import Mathlib
import UpdatePosture.Proofs.Apt.Index
import UpdatePosture.Proofs.Manifest
import UpdatePosture.Proofs.Report.Entries
import UpdatePosture.Proofs.Version.Order

/-!
# What the package database decides

Which packages are installed is up to the package database alone. The version tables say which version of a
package is installed, and what else there is of it, but they add no package and leave none out. Main statement:
`determined_of_installedPackages`.
-/

namespace UpdatePosture.Apt

open Text Dialogue

/-! ## What is decided -/

/-- The name on a line of a manifest. -/
def nameOn (line : String) : String :=
  String.ofList (line.toList.takeWhile (· != '\t'))

/-- The last of the blocks about a package. -/
def lastBlock? (blocks : List PolicyEntry) (name : String) : Option PolicyEntry :=
  (blocks.filter (·.name == name)).getLast?

/-- The version tables in an answer to a query for them. -/
def policyText? : Query × Except Failure String → Option String
  | (.policy _, .ok text) => some text
  | _ => none

/-- All blocks of version tables in the answers of a run, in their order. -/
def blocksIn (respond : Responder Query (Except Failure String)) (files : PackageFiles) (asked : List Query) :
    List PolicyEntry :=
  ((answersTo respond [] asked).filterMap policyText?).flatMap (readPolicy files)

/-- One of the packages of which nothing is known but that it is installed. -/
structure Unlisted (packages : List InstalledPackage) (package : InstalledPackage) : Prop where
  noCandidate : package.candidate = none
  unknown : ∀ series, (OriginTable.ofSeries series).classify package = .unknown
  noUpdate : ∀ series, ((OriginTable.ofSeries series).scan [package]).toList = []
  notReported : ∀ series subscription,
    ∀ listed ∈ (Report.build (.ofSeries series) packages subscription).entries, listed.package ≠ package.name

/-- The packages are those of the package database, each name once and where it stands first. Their versions are
those of the last block that gives one, or of the first row. -/
structure Determined (rows : List InstalledRow) (blocks : List PolicyEntry) (packages : List InstalledPackage) :
    Prop where
  names : packages.map (·.name) = ((rows.map (·.manifestLine)).map nameOn).eraseDups
  distinct : (packages.map (·.name)).Nodup
  version : ∀ package ∈ packages, ∃ row, rows.find? (·.name == package.name) = some row ∧
    package.installed.version = ((lastBlock? blocks package.name).bind (·.installed)).getD row.version
  unlisted : ∀ package ∈ packages, (∀ block ∈ blocks, block.name ≠ package.name) → Unlisted packages package

/-! ## Rows and blocks -/

theorem nameOn_manifestLine {row : InstalledRow} (h : IsField row.name) : nameOn row.manifestLine = row.name := by
  have hname : ∀ c ∈ row.name.toList, (c != '\t') = true := fun c hc =>
    bne_iff_ne.mpr (ne_of_mem_of_not_mem hc h.no_tab)
  have hline : row.manifestLine.toList = row.name.toList ++ '\t' :: row.version.toList := by
    simp [InstalledRow.manifestLine]
  rw [nameOn, hline, List.takeWhile_append_of_pos hname, List.takeWhile_cons_of_neg (by decide), List.append_nil,
    String.ofList_toList]

/-- A row that is kept is what is found under its name. -/
theorem find?_of_mem_firstRows {rows : List InstalledRow} {row : InstalledRow} (h : row ∈ firstRows rows) :
    rows.find? (·.name == row.name) = some row := by
  induction rows with
  | nil => cases h
  | cons first rows ih =>
    rcases List.mem_cons.mp h with rfl | hlater
    · exact List.find?_cons_of_pos (beq_self_eq_true _)
    · obtain ⟨hlater, hne⟩ := List.mem_filter.mp hlater
      rw [List.find?_cons_of_neg, ih hlater]
      rw [bne_iff_ne] at hne
      simpa using hne.symm

theorem find?_reverse_eq_lastBlock? (blocks : List PolicyEntry) (name : String) :
    blocks.reverse.find? (·.name == name) = lastBlock? blocks name := by
  rw [lastBlock?, ← List.head?_filter, List.filter_reverse, List.head?_reverse]

/-! ## Packages -/

theorem version_installed_package (sizes : Sizes) (row : InstalledRow) (found : Option PolicyEntry) :
    (package sizes row found).installed.version = (found.bind (·.installed)).getD row.version := by
  cases found with
  | none => rfl
  | some entry =>
    -- a record is taken for its version, and the record in place of a missing one is made with it
    have hrecord (available : List VersionRecord) (version : String) :
        ((available.find? (·.version == version)).getD (localRecord sizes row.name version)).version = version := by
      cases hfound : available.find? (·.version == version) with
      | none => rfl
      | some record => simpa using List.find?_some hfound
    exact hrecord _ _

theorem updates_package_none (table : OriginTable) (sizes : Sizes) (row : InstalledRow) :
    table.updates [package sizes row none] = [] := by
  refine List.eq_nil_iff_forall_not_mem.mpr fun update hupdate => ?_
  obtain ⟨_, hpackage, record, hrecord, hupdate⟩ := OriginTable.exists_of_mem_updates hupdate
  obtain rfl := List.mem_singleton.mp hpackage
  -- the only version there is would have to be higher than itself
  obtain rfl := List.mem_singleton.mp hrecord
  exact Version.compare?_self_ne_gt _ (OriginTable.update?_eq_some hupdate).1

/-- An entry of the report on some packages is about one of them that has an update. -/
theorem exists_updates_ne_nil {series : String} {packages : List InstalledPackage} {subscription : Subscription}
    {listed : ReportEntry} (h : listed ∈ (Report.build (.ofSeries series) packages subscription).entries) :
    ∃ package ∈ packages, package.name = listed.package ∧ (OriginTable.ofSeries series).updates [package] ≠ [] := by
  obtain ⟨update, hupdate, rfl⟩ :=
    List.mem_map.mp ((entries_build_perm series packages subscription).mem_iff.mp h)
  obtain ⟨package, hpackage, record, hrecord, hupdate⟩ := OriginTable.exists_of_mem_updates hupdate
  have hmem : update ∈ (OriginTable.ofSeries series).updates [package] :=
    List.mem_flatMap.mpr
      ⟨package, List.mem_singleton_self _, List.mem_filterMap.mpr ⟨record, hrecord, hupdate⟩⟩
  exact ⟨package, hpackage, (OriginTable.update?_eq_some hupdate).2.1.symm, List.ne_nil_of_mem hmem⟩

theorem unlisted_package_none {replies : Replies} {sizes : Sizes} {row : InstalledRow}
    (h : package sizes row none ∈ replies.packages) : Unlisted replies.packages (package sizes row none) where
  noCandidate := rfl
  unknown := fun _ => rfl
  noUpdate := fun _ => by rw [OriginTable.toList_scan, updates_package_none, byService_nil]
  notReported := by
    intro series subscription listed hlisted hname
    obtain ⟨other, hother, hotherName, hupdates⟩ := exists_updates_ne_nil hlisted
    obtain rfl := eq_of_name_eq hother h (hotherName.trans hname)
    exact hupdates (updates_package_none _ sizes row)

theorem determined_packages (replies : Replies) :
    Determined (installedRows replies.installed) replies.entries replies.packages where
  names := by
    have hnames : ((installedRows replies.installed).map (·.manifestLine)).map nameOn =
        (installedRows replies.installed).map (·.name) := by
      rw [List.map_map]
      exact List.map_congr_left fun row hrow => nameOn_manifestLine (isField_of_mem_installedRows hrow).1
    rw [map_name_packages, hnames]
    exact map_name_firstRows _
  distinct := nodup_map_name_packages replies
  version := by
    intro installed hinstalled
    obtain ⟨row, hrow, rfl⟩ := mem_packages.mp hinstalled
    rw [name_package, find?_reverse_eq_lastBlock?, version_installed_package]
    exact ⟨row, find?_of_mem_firstRows hrow, rfl⟩
  unlisted := by
    intro installed hinstalled hblocks
    obtain ⟨row, hrow, heq⟩ := mem_packages.mp hinstalled
    have hnone : replies.entries.reverse.find? (·.name == row.name) = none := by
      rw [List.find?_eq_none]
      intro block hblock
      rw [← heq, name_package] at hblocks
      simpa using hblocks block (List.mem_reverse.mp hblock)
    rw [hnone] at heq
    subst heq
    exact unlisted_package_none hinstalled

/-! ## Runs -/

section Run

variable {respond : Responder Query (Except Failure String)}

theorem exists_of_runFrom_askChunk {files : PackageFiles} {names : List String} {asked asked' : List Query}
    {reply : ChunkReply} (h : runFrom (askChunk (ask respond) files names) asked = (.ok reply, asked')) :
    ∃ queries, asked' = asked ++ queries ∧
      (answersTo respond asked queries).filterMap policyText? = [reply.policy] := by
  obtain ⟨hpolicy, rfl⟩ := policy_of_runFrom_askChunk h
  refine ⟨[.policy names, .details names], rfl, ?_⟩
  simp [answersTo, hpolicy, policyText?]

/-- The blocks are read in the order in which their tables were answered. -/
theorem entries_of_askAll {chunkSize : Nat} {replies : Replies} {asked : List Query}
    (h : runFrom (askAll (ask respond) chunkSize) [] = (.ok replies, asked)) :
    replies.entries = blocksIn respond replies.files asked := by
  obtain ⟨-, -, names, hchunks⟩ := exists_of_runFrom_askAll h
  obtain ⟨queries, rfl, htexts⟩ :=
    exists_of_runFrom_mapM (fun reply : ChunkReply => [reply.policy])
      (fun _ _ _ _ hreply => exists_of_runFrom_askChunk hreply) hchunks
  -- the two lists, which are asked for before, are no version tables
  have hlists : (answersTo respond [] [.installed, .packageFiles]).filterMap policyText? = [] := rfl
  have htables : (answersTo respond [] ([.installed, .packageFiles] ++ queries)).filterMap policyText? =
      replies.chunks.map (·.policy) := by
    rw [answersTo_append, List.filterMap_append, hlists, List.nil_append, List.nil_append, htexts,
      List.map_eq_flatMap]
  rw [blocksIn, htables, List.flatMap_map]
  rfl

/-- Whatever is answered, and however many names are asked about at a time, the packages are those of the lines
that the package database has for a manifest. -/
theorem determined_of_installedPackages {chunkSize : Nat} {packages : List InstalledPackage}
    {asked : List Query} (h : (installedPackages (ask respond) chunkSize).transcript = (.ok packages, asked)) :
    ∃ text files, respond [] .installed = .ok text ∧ respond [.installed] .packageFiles = .ok files ∧
      (manifestLines (ask respond)).transcript = (.ok ((installedRows text).map (·.manifestLine)), [.installed]) ∧
      Determined (installedRows text) (blocksIn respond (.read files) asked) packages := by
  obtain ⟨replies, hreplies, rfl⟩ := exists_of_runFrom_packages h
  obtain ⟨hinstalled, hfiles, -⟩ := answeredBy_of_askAll hreplies
  refine ⟨replies.installed, replies.packageFiles, hinstalled, hfiles, ?_, ?_⟩
  · rw [transcript_eq_runFrom, runFrom_manifestLines, runFrom_ask, hinstalled]
    rfl
  · have hblocks := entries_of_askAll hreplies
    rw [Replies.files] at hblocks
    rw [← hblocks]
    exact determined_packages replies

end Run

/-! ## A run -/

/-- A table of libc6. -/
def ownTable : String := "libc6:\n  Installed: 2.36\n  Candidate: 2.36\n"

/-- A table that tells of libc6 once more, and of a package that is not installed. -/
def strayTable : String := "libc6:\n  Installed: 2.37\n  Candidate: 2.38\nvim:\n  Candidate: 9.1\n"

/-- The replies on a machine that has libc6 twice in its database, and another package of which no table tells. -/
def scatteredReplies : Replies where
  installed := "ii \tlibc6\t2.35\nii \tcurl\t8.5\nrc \tvim\t9.0\nii \tlibc6\t2.34\n"
  packageFiles := ""
  chunks := [⟨ownTable, none⟩, ⟨strayTable, none⟩]

/-- The answers that the replies are made of; there are no details to be had. -/
def scatteredAnswers (_asked : List Query) : Query → Except Failure String
  | .installed => .ok scatteredReplies.installed
  | .packageFiles => .ok scatteredReplies.packageFiles
  | .policy names => .ok (if names = ["libc6"] then ownTable else strayTable)
  | .details _ => .error default

def scatteredQueries : List Query :=
  [.installed, .packageFiles, .policy ["libc6"], .details ["libc6"], .policy ["curl"], .details ["curl"]]

theorem rows_scatteredReplies :
    installedRows scatteredReplies.installed = [⟨"libc6", "2.35"⟩, ⟨"curl", "8.5"⟩, ⟨"libc6", "2.34"⟩] := by
  simp only [installedRows, scatteredReplies, String.reduceToList]
  decide +kernel

theorem entries_scatteredReplies :
    scatteredReplies.entries =
      [⟨"libc6", some "2.36", some "2.36", []⟩, ⟨"libc6", some "2.37", some "2.38", []⟩,
        ⟨"vim", none, some "9.1", []⟩] := by
  simp only [Replies.entries, readPolicy, scatteredReplies, ownTable, strayTable, List.flatMap_cons,
    List.flatMap_nil]
  decide +kernel

theorem packages_scatteredReplies :
    scatteredReplies.packages =
      [⟨"libc6", ⟨"2.37", 0, [.localInstall]⟩, [], some "2.38"⟩,
        ⟨"curl", ⟨"8.5", 0, [.localInstall]⟩, [⟨"8.5", 0, [.localInstall]⟩], none⟩] := by
  rw [packages_eq_map, entries_scatteredReplies, Replies.rows, rows_scatteredReplies]
  decide +kernel

theorem transcript_scatteredAnswers :
    (installedPackages (ask scatteredAnswers) 1).transcript = (.ok scatteredReplies.packages, scatteredQueries) := by
  have hnames : (firstRows (installedRows scatteredReplies.installed)).map (·.name) = ["libc6", "curl"] := by
    rw [rows_scatteredReplies]
    decide
  have hchunks : chunks 1 ["libc6", "curl"] = [["libc6"], ["curl"]] := by simp [chunks]
  rw [transcript_eq_runFrom, runFrom_installedPackages]
  simp only [askAll, runFrom_bind, runFrom_ask, scatteredAnswers, hnames, hchunks]
  rfl

theorem determined_scatteredReplies :
    (installedPackages (ask scatteredAnswers) 1).transcript = (.ok scatteredReplies.packages, scatteredQueries) ∧
      Determined [⟨"libc6", "2.35"⟩, ⟨"curl", "8.5"⟩, ⟨"libc6", "2.34"⟩]
        [⟨"libc6", some "2.36", some "2.36", []⟩, ⟨"libc6", some "2.37", some "2.38", []⟩,
          ⟨"vim", none, some "9.1", []⟩]
        [⟨"libc6", ⟨"2.37", 0, [.localInstall]⟩, [], some "2.38"⟩,
          ⟨"curl", ⟨"8.5", 0, [.localInstall]⟩, [⟨"8.5", 0, [.localInstall]⟩], none⟩] := by
  refine ⟨transcript_scatteredAnswers, ?_⟩
  obtain ⟨text, files, hinstalled, hfiles, -, hdetermined⟩ :=
    determined_of_installedPackages transcript_scatteredAnswers
  obtain rfl := Except.ok.inj hinstalled
  obtain rfl := Except.ok.inj hfiles
  have hblocks : blocksIn scatteredAnswers (.read scatteredReplies.packageFiles) scatteredQueries =
      scatteredReplies.entries := rfl
  rwa [rows_scatteredReplies, hblocks, entries_scatteredReplies, packages_scatteredReplies] at hdetermined

end UpdatePosture.Apt
