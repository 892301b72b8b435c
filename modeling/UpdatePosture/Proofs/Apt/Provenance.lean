import Mathlib
import UpdatePosture.Proofs.Apt.Index
import UpdatePosture.Proofs.Apt.PackageFiles
import UpdatePosture.Proofs.Apt.Policy
import UpdatePosture.Proofs.Report.Entries

/-!
# Where the entries of a report come from

Everything that an entry says can be pointed out in the answers of the package tools, whatever these are. Main
statement: every entry is backed by the answers of the run (`backed_of_mem_entries`).
-/

namespace UpdatePosture.Apt

open Text Dialogue

/-! ## What is pointed out -/

/-- A line of the package database says that the package is installed. -/
def NamesInstalled (text name : String) : Prop :=
  ∃ line ∈ lines text.toList, ∃ state package version rest,
    line.splitOn '\t' = state :: package :: version :: rest ∧ trim state = "ii".toList ∧
    String.ofList (trim package) = name

/-- A line at the margin that names a package. -/
def IsHeader (name : String) (line : List Char) : Prop :=
  line.head?.any isBlank = false ∧ String.ofList (dropTrailing ':' (trim line)) = name

/-- A row with a version. A line with a label is none, even if there is a number behind the label. -/
def IsVersionRow (version : String) (line : List Char) : Prop :=
  line.head?.any isBlank = true ∧ isLabelled (trim line) = false ∧ versionRow? line = some version

/-- A row with a package file. -/
def IsFileRow (location : String) (line : List Char) : Prop :=
  line.head?.any isBlank = true ∧ isLabelled (trim line) = false ∧ versionRow? line = none ∧
    location? (trim line) = some location

/-- A reply says that a package has a version at a location: the row of the location stands below the row of
the version, with no other version between them, and both stand below the header of the package, with no
other header between them. -/
def Mentions (text name version location : String) : Prop :=
  ∃ before header middle row between file after,
    textLines text = before ++ header :: (middle ++ row :: (between ++ file :: after)) ∧
    IsHeader name header ∧ IsVersionRow version row ∧ IsFileRow location file ∧
    (∀ line ∈ middle ++ between, line.head?.any isBlank = true) ∧
    ∀ line ∈ between, ∀ other, ¬IsVersionRow other line

/-- The table of package files says where the versions at a location come from. If it lists the location more
than once, the rows below the last listing do. -/
def Describes (text location : String) (origin : Origin) : Prop :=
  ∃ before row rows after, tableRows text = before ++ row :: (rows ++ after) ∧
    location? row = some location ∧ (∀ below ∈ rows, location? below = none) ∧
    (∀ next ∈ after.head?, (location? next).isSome) ∧ (∀ later ∈ after, location? later ≠ some location) ∧
    origin = describedBy rows

/-- What an entry of a report says, as the answers of a run have it. -/
structure Backed (respond : Responder Query (Except Failure String)) (asked : List Query) (series : String)
    (packages : List InstalledPackage) (listed : ReportEntry) : Prop where
  installed : ∃ text, respond [] .installed = .ok text ∧ NamesInstalled text listed.package
  published : ∃ files names policy location origin, respond [.installed] .packageFiles = .ok files ∧
    Answered respond asked (.policy names) policy ∧
    Mentions policy listed.package listed.version location ∧ Describes files location origin ∧
    (OriginTable.ofSeries series).service? origin = some listed.service ∧ origin.site = listed.site
  higher : ∃ package ∈ packages, package.name = listed.package ∧
    (∀ other ∈ packages, other.name = listed.package → other = package) ∧
    Version.compare? listed.version package.installed.version = some .gt

/-! ## Pointing it out -/

theorem namesInstalled_of_mem_installedRows {text : String} {row : InstalledRow}
    (h : row ∈ installedRows text) : NamesInstalled text row.name := by
  obtain ⟨line, hline, state, name, version, rest, hcolumns, hstate, -, -, rfl⟩ := exists_of_mem_installedRows h
  exact ⟨line, hline, state, name, version, rest, hcolumns, hstate, rfl⟩

/-- The origins of a version in a block are those of the locations that are mentioned for it. -/
theorem exists_mentions {files : PackageFiles} {text : String} {entry : PolicyEntry} {found : PolicyVersion}
    {origin : Origin} (hentry : entry ∈ readPolicy files text) (hfound : found ∈ entry.versions)
    (horigin : origin ∈ found.origins) :
    ∃ location, Mentions text entry.name found.version location ∧ files.resolve? location = some origin := by
  -- the sections of what the lines say are those of the lines themselves, which is what is pointed out
  rw [readPolicy_eq, policyLines, sections_map, List.map_map] at hentry
  obtain ⟨⟨name, body⟩, hblock, rfl⟩ := List.mem_map.mp hentry
  have hversions : found ∈ (sections PolicyLine.version? (body.map PolicyLine.read)).map fun found =>
      ⟨found.1, (found.2.filterMap PolicyLine.file?).filterMap files.resolve?⟩ := hfound
  rw [sections_map, List.map_map] at hversions
  obtain ⟨⟨version, rows⟩, hrows, rfl⟩ := List.mem_map.mp hversions
  obtain ⟨location, hlocation, hresolve⟩ := List.mem_filterMap.mp horigin
  obtain ⟨line, hline, hfile⟩ := List.mem_filterMap.mp hlocation
  obtain ⟨file, hmem, rfl⟩ := List.mem_map.mp hline
  obtain ⟨before, header, after, htext, hheader, hbody⟩ := exists_of_mem_sections hblock
  obtain ⟨middle, row, others, rfl, hrow, hbelow⟩ := exists_of_mem_sections hrows
  obtain ⟨between, below, rfl⟩ := List.append_of_mem hmem
  refine ⟨location, ⟨before, header, middle, row, between, file, below ++ others ++ after, ?_,
    PolicyLine.header?_read_eq_some_iff.mp hheader, PolicyLine.version?_read_eq_some_iff.mp hrow,
    PolicyLine.file?_read_eq_some_iff.mp hfile, ?_, ?_⟩, hresolve⟩
  · rw [htext]
    simp
  · intro line hline
    refine PolicyLine.header?_read_eq_none_iff.mp (hbody line ?_)
    rcases List.mem_append.mp hline with hmiddle | hbetween
    · exact List.mem_append_left _ hmiddle
    · exact List.mem_append_right _ (List.mem_cons_of_mem _ (by simp [hbetween]))
  · intro line hline other hother
    have hnone : (PolicyLine.read line).version? = none := hbelow line (by simp [hline])
    rw [PolicyLine.version?_read_eq_some_iff.mpr hother] at hnone
    cases hnone

/-- The origin at a location is described in the table. -/
theorem describes_of_origin? {text location : String} {origin : Origin}
    (h : (PackageFiles.read text).origin? location = some origin) : Describes text location origin := by
  obtain ⟨earlier, rows, later, hcut, hlater, horigin⟩ := origin?_read_eq_some h
  obtain ⟨before, row, after, htable, hrow, hrows, hnext, hafter⟩ := exists_of_sections_eq hcut
  refine ⟨before, row, rows, after, htable, hrow, hrows, hnext, ?_, horigin⟩
  intro line hline hlocation
  obtain ⟨body, hbody⟩ := exists_mem_sections hline hlocation
  rw [hafter] at hbody
  exact hlater _ hbody rfl

/-- What is on the machine already is no security update. -/
theorem service?_localInstall (series : String) :
    (OriginTable.ofSeries series).service? .localInstall = none := by
  have hlabel : ∀ pocket ∈ OriginTable.pockets, pocket.label ≠ Origin.localInstall.label := by decide
  refine Option.eq_none_iff_forall_ne_some.mpr fun service h => ?_
  obtain ⟨pocket, hpocket, hsame, -⟩ := OriginTable.exists_pocket_of_service? h
  exact hlabel pocket hpocket hsame

/-- Every entry of the report on the packages that a run comes up with is backed by the answers of that run:
the package is installed, some version table mentions the version below the name of this very package and at a
location that the table of package files describes as the service's and the site's, and the version is higher
than the one that is taken to be installed. -/
theorem backed_of_mem_entries (respond : Responder Query (Except Failure String)) (chunkSize : Nat)
    (series : String) (subscription : Subscription) {packages : List InstalledPackage} {asked : List Query}
    (h : (installedPackages (ask respond) chunkSize).transcript = (.ok packages, asked)) :
    ∀ listed ∈ (Report.build (.ofSeries series) packages subscription).entries,
      Backed respond asked series packages listed := by
  intro listed hlisted
  obtain ⟨replies, hreplies, rfl⟩ := exists_of_runFrom_installedPackages h
  obtain ⟨update, hupdate, rfl⟩ :=
    List.mem_map.mp ((entries_build_perm series replies.packages subscription).mem_iff.mp hlisted)
  obtain ⟨package, hpackage, record, hrecord, hupdate⟩ := OriginTable.exists_of_mem_updates hupdate
  obtain ⟨hgt, hname, rfl, origin, horigin, hservice, hsite⟩ := OriginTable.update?_eq_some hupdate
  obtain ⟨⟨row, hrow, hrowName⟩, hsource⟩ := exists_of_mem_available hpackage hrecord
  -- a package without a table, and the machine's own database, have no other origin than this one
  have hlocal : origin ≠ .localInstall := by
    rintro rfl
    rw [service?_localInstall] at hservice
    cases hservice
  refine ⟨?_, ?_, ?_⟩
  · refine ⟨replies.installed, hreplies.installed, ?_⟩
    show NamesInstalled _ update.package
    rw [hname, ← hrowName]
    exact namesInstalled_of_mem_installedRows hrow
  · rcases hsource with hblank | ⟨chunk, hchunk, entry, hentry, hentryName, found, hfound, hversion, horigins⟩
    · rw [hblank] at horigin
      exact absurd (List.mem_singleton.mp horigin) hlocal
    · rw [← horigins] at horigin
      obtain ⟨location, hmentions, hresolve⟩ := exists_mentions hentry hfound horigin
      obtain ⟨names, hanswered⟩ := hreplies.chunks chunk hchunk
      have hdescribed : Describes replies.packageFiles location origin := by
        unfold PackageFiles.resolve? at hresolve
        split at hresolve
        · exact absurd (Option.some.inj hresolve).symm hlocal
        · exact describes_of_origin? hresolve
      rw [hentryName, ← hname, hversion] at hmentions
      exact ⟨replies.packageFiles, names, chunk.policy, location, origin, hreplies.packageFiles, hanswered,
        hmentions, hdescribed, hservice, hsite.symm⟩
  · refine ⟨package, hpackage, hname.symm, ?_, hgt⟩
    intro other hother hotherName
    exact eq_of_name_eq hother hpackage (hotherName.trans hname)

/-! ## A run -/

/-- A machine with one package, which has an update at a location that is listed twice. -/
def sampleReplies : Replies where
  installed := "ii \tlibc6\t2.35\n"
  packageFiles :=
    " 500 http://security main\n     release o=Other,a=jammy\n" ++
    " 500 http://security main\n     release o=Ubuntu,a=jammy-security,c=main\n     origin security\n" ++
    "Pinned packages:\n 500 http://security main\n"
  chunks := [⟨"libc6:\n  Installed: 2.35\n  Candidate: 2.36\n  Version table:\n" ++
    "     2.36 500\n        500 http://security main\n *** 2.35 100\n        100 /var/lib/dpkg/status\n", none⟩]

/-- The answers that the replies are made of; there are no details to be had. -/
def sampleAnswers (_asked : List Query) : Query → Except Failure String
  | .installed => .ok sampleReplies.installed
  | .packageFiles => .ok sampleReplies.packageFiles
  | .policy _ => sampleReplies.chunks.head?.elim (.error default) fun reply => .ok reply.policy
  | .details _ => .error default

theorem rows_sampleReplies : sampleReplies.rows = [⟨"libc6", "2.35"⟩] := by
  simp only [Replies.rows, installedRows, sampleReplies, String.reduceToList]
  decide +kernel

theorem files_sampleReplies :
    sampleReplies.files =
      ⟨[("http://security main", ⟨"Ubuntu", "jammy-security", "main", "security"⟩),
        ("http://security main", ⟨"Other", "jammy", "", ""⟩)]⟩ := by
  simp only [Replies.files, PackageFiles.read, sampleReplies, String.toList_append, String.reduceToList]
  decide +kernel

theorem entries_sampleReplies :
    sampleReplies.entries =
      [⟨"libc6", some "2.35", some "2.36",
        [⟨"2.36", [⟨"Ubuntu", "jammy-security", "main", "security"⟩]⟩, ⟨"2.35", [.localInstall]⟩]⟩] := by
  rw [Replies.entries, files_sampleReplies]
  simp only [readPolicy, sampleReplies, List.flatMap_cons, List.flatMap_nil]
  decide +kernel

theorem packages_sampleReplies :
    sampleReplies.packages =
      [⟨"libc6", ⟨"2.35", 0, [.localInstall]⟩,
        [⟨"2.36", 0, [⟨"Ubuntu", "jammy-security", "main", "security"⟩]⟩, ⟨"2.35", 0, [.localInstall]⟩],
        some "2.36"⟩] := by
  rw [packages_eq_map, entries_sampleReplies, rows_sampleReplies]
  decide +kernel

theorem transcript_sampleAnswers :
    (installedPackages (ask sampleAnswers) 1).transcript =
      (.ok sampleReplies.packages, [.installed, .packageFiles, .policy ["libc6"], .details ["libc6"]]) := by
  have hnames : (firstRows (installedRows sampleReplies.installed)).map (·.name) = ["libc6"] :=
    congrArg (List.map InstalledRow.name) rows_sampleReplies
  have hchunks : chunks 1 ["libc6"] = [["libc6"]] := by simp [chunks]
  rw [transcript_eq_runFrom, runFrom_installedPackages]
  simp only [askAll, runFrom_bind, runFrom_ask, sampleAnswers, hnames, hchunks]
  rfl

def sampleEntry : ReportEntry where
  package := "libc6"
  version := "2.36"
  service := .standardSecurity
  availability := .upgradeAvailable
  site := "security"
  downloadSize := 0

theorem backed_sampleEntry :
    sampleEntry ∈ (Report.build (.ofSeries "jammy") sampleReplies.packages .unattached).entries ∧
      Backed sampleAnswers [.installed, .packageFiles, .policy ["libc6"], .details ["libc6"]] "jammy"
        sampleReplies.packages sampleEntry := by
  have hgt : Version.compare? "2.36" "2.35" = some .gt := by cbv
  have hlisted :
      sampleEntry ∈ (Report.build (.ofSeries "jammy") sampleReplies.packages .unattached).entries := by
    rw [entries_build, packages_sampleReplies]
    refine List.mem_flatMap.mpr ⟨.standardSecurity, List.mem_cons_self, ?_⟩
    refine List.mem_flatMap.mpr ⟨_, List.mem_cons_self, List.mem_filterMap.mpr ⟨_, List.mem_cons_self, ?_⟩⟩
    simp only [Report.listed?, hgt]
    rfl
  exact ⟨hlisted, backed_of_mem_entries sampleAnswers 1 "jammy" .unattached transcript_sampleAnswers _ hlisted⟩

end UpdatePosture.Apt
