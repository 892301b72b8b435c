import Mathlib
import UpdatePosture.Apt.Index
import UpdatePosture.Proofs.Dialogue

/-!
# What the index is made of

The index asks for texts and puts the packages together from them. Main statements: the texts are what was
answered when they were asked for (`exists_of_runFrom_installedPackages`), every package is one of the rows of
the package database, each name once (`nodup_map_name_packages`), and every version of a package with a known
origin stands in a block about that package (`exists_of_mem_available`).
-/

namespace UpdatePosture.Apt

open Dialogue

/-! ## The run -/

/-- The version tables of a reply are what was answered about some names. -/
def ChunkReply.AnsweredIn (respond : Responder Query (Except Failure String)) (asked : List Query)
    (reply : ChunkReply) : Prop :=
  ∃ names, Answered respond asked (.policy names) reply.policy

/-- The replies are what was answered in a run that asked these queries. -/
structure Replies.AnsweredBy (replies : Replies) (respond : Responder Query (Except Failure String))
    (asked : List Query) : Prop where
  installed : respond [] .installed = .ok replies.installed
  packageFiles : respond [.installed] .packageFiles = .ok replies.packageFiles
  chunks : ∀ reply ∈ replies.chunks, reply.AnsweredIn respond asked

section Run

variable {respond : Responder Query (Except Failure String)}

/-- Some names are asked about twice, and the first answer has the version tables. -/
theorem policy_of_runFrom_askChunk {files : PackageFiles} {names : List String} {asked asked' : List Query}
    {reply : ChunkReply} (h : runFrom (askChunk (ask respond) files names) asked = (.ok reply, asked')) :
    respond asked (.policy names) = .ok reply.policy ∧ asked' = asked ++ [.policy names, .details names] := by
  obtain ⟨policy, between, hpolicy, h⟩ := exists_of_runFrom_bind h
  obtain ⟨details, between', hdetails, h⟩ := exists_of_runFrom_bind h
  rw [runFrom_pure] at h
  cases h
  rw [runFrom_logging, runFrom_ask, Prod.mk.injEq] at hpolicy
  obtain ⟨hpolicy, rfl⟩ := hpolicy
  -- whether or not there are details, the query for them has been asked
  rw [runFrom_attempt, runFrom_ask] at hdetails
  cases hdetails
  exact ⟨hpolicy, List.append_assoc ..⟩

theorem answeredIn_of_askChunk {files : PackageFiles} {names : List String} {asked asked' : List Query}
    {reply : ChunkReply} (h : runFrom (askChunk (ask respond) files names) asked = (.ok reply, asked')) :
    asked <+: asked' ∧ reply.AnsweredIn respond asked' := by
  obtain ⟨hpolicy, rfl⟩ := policy_of_runFrom_askChunk h
  exact ⟨List.prefix_append _ _, names, asked, [.details names], rfl, hpolicy⟩

/-- The two lists are asked for first, and then the names are asked about, some at a time. -/
theorem exists_of_runFrom_askAll {chunkSize : Nat} {replies : Replies} {asked : List Query}
    (h : runFrom (askAll (ask respond) chunkSize) [] = (.ok replies, asked)) :
    respond [] .installed = .ok replies.installed ∧ respond [.installed] .packageFiles = .ok replies.packageFiles ∧
    ∃ names : List (List String),
      runFrom (names.mapM (askChunk (ask respond) replies.files)) [.installed, .packageFiles] =
        (.ok replies.chunks, asked) := by
  obtain ⟨installed, asked₁, hinstalled, h⟩ := exists_of_runFrom_bind h
  obtain ⟨packageFiles, asked₂, hfiles, h⟩ := exists_of_runFrom_bind h
  obtain ⟨chunkReplies, asked₃, hchunks, h⟩ := exists_of_runFrom_bind h
  rw [runFrom_pure] at h
  cases h
  rw [runFrom_ask, Prod.mk.injEq] at hinstalled
  obtain ⟨hinstalled, rfl⟩ := hinstalled
  rw [runFrom_ask, Prod.mk.injEq] at hfiles
  obtain ⟨hfiles, rfl⟩ := hfiles
  exact ⟨hinstalled, hfiles, _, hchunks⟩

theorem answeredBy_of_askAll {chunkSize : Nat} {replies : Replies} {asked : List Query}
    (h : runFrom (askAll (ask respond) chunkSize) [] = (.ok replies, asked)) :
    replies.AnsweredBy respond asked := by
  obtain ⟨hinstalled, hfiles, names, hchunks⟩ := exists_of_runFrom_askAll h
  refine ⟨hinstalled, hfiles, (forall_of_runFrom_mapM (ChunkReply.AnsweredIn respond) ?_ ?_ hchunks).2⟩
  · rintro asked asked' reply hmore ⟨names, hanswered⟩
    exact ⟨names, hanswered.of_prefix hmore⟩
  · exact fun _ _ _ _ hreply => answeredIn_of_askChunk hreply

/-- The packages are put together from all replies. -/
theorem runFrom_installedPackages {Q : Type} (tools : Tools Q) (chunkSize : Nat) (asked : List Q) :
    runFrom (installedPackages tools chunkSize) asked =
      ((runFrom (askAll tools chunkSize) asked).1.map Replies.packages,
        (runFrom (askAll tools chunkSize) asked).2) := by
  rw [installedPackages, runFrom_map, runFrom_logging]

theorem exists_of_runFrom_packages {chunkSize : Nat} {packages : List InstalledPackage} {asked : List Query}
    (h : runFrom (installedPackages (ask respond) chunkSize) [] = (.ok packages, asked)) :
    ∃ replies : Replies, runFrom (askAll (ask respond) chunkSize) [] = (.ok replies, asked) ∧
      replies.packages = packages := by
  rw [runFrom_installedPackages, ← runFrom_map] at h
  exact exists_of_runFrom_map h

/-- The packages are put together from what was answered. -/
theorem exists_of_runFrom_installedPackages {chunkSize : Nat} {packages : List InstalledPackage}
    {asked : List Query}
    (h : runFrom (installedPackages (ask respond) chunkSize) [] = (.ok packages, asked)) :
    ∃ replies : Replies, replies.AnsweredBy respond asked ∧ packages = replies.packages := by
  obtain ⟨replies, hreplies, rfl⟩ := exists_of_runFrom_packages h
  exact ⟨replies, answeredBy_of_askAll hreplies, rfl⟩

end Run

/-! ## Chunks -/

section Chunks

variable {α : Type}

theorem flatten_chunks (size : Nat) (items : List α) : (chunks size items).flatten = items := by
  fun_induction chunks size items with
  | case1 => rfl
  | case2 item items ih => rw [List.flatten_cons, ih, List.cons_append, List.take_append_drop]

theorem chunks_zero (items : List α) : chunks 0 items = chunks 1 items := by
  induction items with
  | nil => rw [chunks, chunks]
  | cons item items ih =>
    rw [chunks, chunks]
    simp [ih]

theorem ne_nil_and_length_le_of_mem_chunks {size : Nat} {items chunk : List α} (h : chunk ∈ chunks size items) :
    chunk ≠ [] ∧ chunk.length ≤ max 1 size := by
  fun_induction chunks size items with
  | case1 => cases h
  | case2 item items ih =>
    rcases List.mem_cons.mp h with rfl | hmem
    · refine ⟨List.cons_ne_nil _ _, ?_⟩
      rw [List.length_cons, List.length_take]
      omega
    · exact ih hmem

end Chunks

/-! ## The rows of the package database -/

/-- A row is a line with three columns or more, of which the first says that the package is installed. -/
theorem exists_of_mem_installedRows {text : String} {row : InstalledRow} (h : row ∈ installedRows text) :
    ∃ line ∈ Text.lines text.toList, ∃ state name version rest,
      line.splitOn '\t' = state :: name :: version :: rest ∧ Text.trim state = "ii".toList ∧
      Text.trim name ≠ [] ∧ Text.trim version ≠ [] ∧
      row = ⟨String.ofList (Text.trim name), String.ofList (Text.trim version)⟩ := by
  obtain ⟨line, hline, hrow⟩ := List.mem_filterMap.mp h
  unfold installedRow? at hrow
  split at hrow
  next state name version rest hcolumns =>
    split at hrow
    next hinstalled =>
      cases hrow
      exact ⟨line, hline, state, name, version, rest, hcolumns, hinstalled.1, hinstalled.2.1, hinstalled.2.2, rfl⟩
    · cases hrow
  · cases hrow

theorem firstRows_sublist (rows : List InstalledRow) : (firstRows rows).Sublist rows := by
  induction rows with
  | nil => exact .slnil
  | cons row rows ih => exact (List.filter_sublist.trans ih).cons_cons row

theorem nodup_map_name_firstRows (rows : List InstalledRow) : ((firstRows rows).map (·.name)).Nodup := by
  induction rows with
  | nil => exact .nil
  | cons row rows ih =>
    rw [firstRows, List.map_cons, List.nodup_cons]
    refine ⟨?_, ih.sublist (List.filter_sublist.map _)⟩
    intro hmem
    obtain ⟨other, hother, hname⟩ := List.mem_map.mp hmem
    have hne := (List.mem_filter.mp hother).2
    simp [hname] at hne

theorem filter_eraseDups {α : Type} [BEq α] [LawfulBEq α] (keep : α → Bool) (items : List α) :
    items.eraseDups.filter keep = (items.filter keep).eraseDups := by
  induction hlength : items.length using Nat.strong_induction_on generalizing items with
  | _ length ih =>
    cases items with
    | nil => rfl
    | cons item items =>
      have hshort : (items.filter fun other => !other == item).length < length :=
        hlength ▸ Nat.lt_succ_of_le (List.length_filter_le _ _)
      have hothers := ih _ hshort _ rfl
      rw [List.filter_comm] at hothers
      rw [List.eraseDups_cons]
      cases hkeep : keep item with
      | true =>
        rw [List.filter_cons_of_pos hkeep, List.filter_cons_of_pos hkeep, List.eraseDups_cons, hothers]
      | false =>
        have hdropped : ((items.filter keep).filter fun other => !other == item) = items.filter keep := by
          refine List.filter_eq_self.mpr fun other hother => ?_
          have hkept := (List.mem_filter.mp hother).2
          have hne : other ≠ item := by
            rintro rfl
            simp [hkeep] at hkept
          simpa using hne
        rw [List.filter_cons_of_neg (by simp [hkeep]), List.filter_cons_of_neg (by simp [hkeep]), hothers,
          hdropped]

/-- The first rows have the names of all rows, each name where it stands first. -/
theorem map_name_firstRows (rows : List InstalledRow) :
    (firstRows rows).map (·.name) = (rows.map (·.name)).eraseDups := by
  induction rows with
  | nil => rfl
  | cons row rows ih =>
    have hnames : ((firstRows rows).filter (·.name != row.name)).map (·.name) =
        ((firstRows rows).map (·.name)).filter (· != row.name) := by
      rw [List.filter_map]
      rfl
    rw [firstRows, List.map_cons, List.map_cons, List.eraseDups_cons, hnames, ih, filter_eraseDups]
    rfl

/-! ## Packages -/

theorem name_package (sizes : Sizes) (row : InstalledRow) (found : Option PolicyEntry) :
    (package sizes row found).name = row.name := by
  cases found <;> rfl

/-- The block that is inserted last under a name is the first one from the end. -/
theorem getElem?_foldl_insert (entries : List PolicyEntry) (policies : Std.TreeMap String PolicyEntry) (name : String) :
    (entries.foldl (fun policies entry => policies.insert entry.name entry) policies)[name]? =
      (entries.reverse.find? (·.name == name) <|> policies[name]?) := by
  induction entries generalizing policies with
  | nil => simp
  | cons entry entries ih =>
    rw [List.foldl_cons, ih, Std.TreeMap.getElem?_insert, List.reverse_cons, List.find?_append]
    by_cases h : entry.name = name <;> simp [h]

theorem getElem?_policies (replies : Replies) (name : String) :
    replies.policies[name]? = replies.entries.reverse.find? (·.name == name) := by
  rw [Replies.policies, getElem?_foldl_insert]
  simp

/-- Where no name comes twice, to take blocks out makes no difference to the rows that follow. -/
theorem packagesFrom_eq_map (sizes : Sizes) {rows : List InstalledRow} (h : (rows.map (·.name)).Nodup)
    (policies : Std.TreeMap String PolicyEntry) :
    packagesFrom sizes policies rows = rows.map fun row => package sizes row policies[row.name]? := by
  induction rows generalizing policies with
  | nil => rfl
  | cons row rows ih =>
    obtain ⟨hrow, hrows⟩ := List.nodup_cons.mp h
    rw [packagesFrom, ih hrows, List.map_cons]
    refine congrArg _ (List.map_congr_left fun other hother => ?_)
    have hne : row.name ≠ other.name := fun heq => hrow (List.mem_map.mpr ⟨other, hother, heq.symm⟩)
    rw [Std.TreeMap.getElem?_erase]
    simp [hne]

/-- The block about a package is the last one of its name. -/
theorem packages_eq_map (replies : Replies) :
    replies.packages =
      replies.rows.map fun row => package replies.sizes row (replies.entries.reverse.find? (·.name == row.name)) := by
  have hnames : (replies.rows.map (·.name)).Nodup := nodup_map_name_firstRows _
  rw [Replies.packages, packagesFrom_eq_map _ hnames]
  simp only [getElem?_policies]

theorem mem_packages {replies : Replies} {installed : InstalledPackage} :
    installed ∈ replies.packages ↔
      ∃ row ∈ replies.rows,
        package replies.sizes row (replies.entries.reverse.find? (·.name == row.name)) = installed := by
  rw [packages_eq_map, List.mem_map]

theorem map_name_packages (replies : Replies) :
    replies.packages.map (·.name) = replies.rows.map (·.name) := by
  rw [packages_eq_map, List.map_map]
  exact List.map_congr_left fun row _ => name_package _ row _

theorem nodup_map_name_packages (replies : Replies) : (replies.packages.map (·.name)).Nodup := by
  rw [map_name_packages]
  exact nodup_map_name_firstRows _

/-- Packages of the same name are one package. -/
theorem eq_of_name_eq {replies : Replies} {first second : InstalledPackage} (hfirst : first ∈ replies.packages)
    (hsecond : second ∈ replies.packages) (hname : first.name = second.name) : first = second :=
  List.inj_on_of_nodup_map (nodup_map_name_packages replies) hfirst hsecond hname

/-- An available version of a package is the one that is installed, with no origin but the machine itself, or
stands in a block about this package. -/
theorem exists_of_mem_available {replies : Replies} {package : InstalledPackage} {record : VersionRecord}
    (hpackage : package ∈ replies.packages) (hrecord : record ∈ package.available) :
    (∃ row ∈ installedRows replies.installed, row.name = package.name) ∧
    (record.origins = [.localInstall] ∨
      ∃ chunk ∈ replies.chunks, ∃ entry ∈ readPolicy replies.files chunk.policy, entry.name = package.name ∧
        ∃ found ∈ entry.versions, found.version = record.version ∧ found.origins = record.origins) := by
  obtain ⟨row, hrow, rfl⟩ := mem_packages.mp hpackage
  refine ⟨⟨row, (firstRows_sublist _).subset hrow, (name_package _ row _).symm⟩, ?_⟩
  cases hentry : replies.entries.reverse.find? (·.name == row.name) with
  | none =>
    rw [hentry] at hrecord
    cases List.mem_singleton.mp hrecord
    exact .inl rfl
  | some entry =>
    rw [hentry] at hrecord
    obtain ⟨found, hfound, rfl⟩ := List.mem_map.mp hrecord
    have hmem : entry ∈ replies.entries := List.mem_reverse.mp (List.mem_of_find?_eq_some hentry)
    obtain ⟨chunk, hchunk, hmem⟩ := List.mem_flatMap.mp hmem
    have hname : entry.name = row.name := by simpa using List.find?_some hentry
    exact .inr ⟨chunk, hchunk, entry, hmem, hname, found, hfound, rfl, rfl⟩

end UpdatePosture.Apt
