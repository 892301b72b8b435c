import Mathlib
import UpdatePosture.Proofs.Apt.Installed

/-!
# The installed version among the available ones

The versions that are available of a package are the rows of its version table, and the record of the installed
version is looked up among them. If no row has that version a record is made up, with no origin but the machine
itself, and it is not added to the available ones. So the installed version is among the available ones of every
package that has a row for it, and of every package without a table, but not of all packages (`RowForInstalled`).
Main statement: `installed_mem_available_iff`.
-/

namespace UpdatePosture.Apt

open Dialogue

/-- The last block about the package, if there is one, has a row for the installed version. -/
def RowForInstalled (blocks : List PolicyEntry) (package : InstalledPackage) : Prop :=
  ∀ block ∈ lastBlock? blocks package.name, ∃ row ∈ block.versions, row.version = package.installed.version

/-- The versions of a package are those of the last block about it, or the installed one if there is no block. -/
structure VersionsFrom (blocks : List PolicyEntry) (package : InstalledPackage) : Prop where
  rows : ∀ block ∈ lastBlock? blocks package.name,
    package.available.map (fun record => (record.version, record.origins)) =
      block.versions.map fun row => (row.version, row.origins)
  noBlock : lastBlock? blocks package.name = none → package.available = [package.installed]
  /-- Of several rows for the installed version the first counts. -/
  listed : package.installed ∈ package.available →
    package.record? package.installed.version = some package.installed
  /-- A record that is made up stands in for no other. -/
  unlisted : package.installed ∉ package.available →
    package.record? package.installed.version = none ∧ package.installed.origins = [.localInstall]

/-! ## Looking the installed version up -/

/-- With a table or without one, the installed record is what is found under its version, or it is made up. -/
theorem installed_package (sizes : Sizes) (row : InstalledRow) (found : Option PolicyEntry) :
    (package sizes row found).installed =
      ((package sizes row found).record? (package sizes row found).installed.version).getD
        (localRecord sizes row.name (package sizes row found).installed.version) := by
  cases found with
  | none => simp [package, InstalledPackage.record?, localRecord]
  | some block =>
    rw [version_installed_package]
    rfl

section Lookup

variable {package : InstalledPackage} {made : VersionRecord}

theorem record?_eq_none_iff {version : String} :
    package.record? version = none ↔ ∀ record ∈ package.available, record.version ≠ version := by
  simp [InstalledPackage.record?]

theorem mem_available_of_record? {version : String} {record : VersionRecord}
    (h : package.record? version = some record) : record ∈ package.available :=
  List.mem_of_find?_eq_some h

/-- A record that is available has been found under its version, and not been made up. -/
theorem record?_of_installed_mem
    (hinstalled : package.installed = (package.record? package.installed.version).getD made)
    (hmem : package.installed ∈ package.available) :
    package.record? package.installed.version = some package.installed := by
  cases hfound : package.record? package.installed.version with
  | none => exact absurd rfl (record?_eq_none_iff.mp hfound _ hmem)
  | some record =>
    rw [hfound, Option.getD_some] at hinstalled
    rw [hinstalled]

theorem record?_of_installed_notMem
    (hinstalled : package.installed = (package.record? package.installed.version).getD made)
    (hmem : package.installed ∉ package.available) :
    package.record? package.installed.version = none ∧ package.installed = made := by
  cases hfound : package.record? package.installed.version with
  | none =>
    rw [hfound, Option.getD_none] at hinstalled
    exact ⟨rfl, hinstalled⟩
  | some record =>
    rw [hfound, Option.getD_some] at hinstalled
    exact absurd (hinstalled ▸ mem_available_of_record? hfound) hmem

theorem installed_mem_iff_exists_version
    (hinstalled : package.installed = (package.record? package.installed.version).getD made) :
    package.installed ∈ package.available ↔
      ∃ record ∈ package.available, record.version = package.installed.version := by
  constructor
  · intro hmem
    exact ⟨_, hmem, rfl⟩
  · rintro ⟨record, hrecord, hversion⟩
    by_contra hmem
    exact record?_eq_none_iff.mp (record?_of_installed_notMem hinstalled hmem).1 record hrecord hversion

end Lookup

/-! ## Packages -/

/-- The rows of a table become records in their order, and only get a size. -/
theorem map_available_package (sizes : Sizes) (row : InstalledRow) (block : PolicyEntry) :
    (package sizes row (some block)).available.map (fun record => (record.version, record.origins)) =
      block.versions.map fun row => (row.version, row.origins) := by
  simp [package]

/-- Without a block the installed record is the one that is available. -/
theorem exists_version_available_package (sizes : Sizes) (row : InstalledRow) (found : Option PolicyEntry) :
    (∃ record ∈ (package sizes row found).available, record.version = (package sizes row found).installed.version) ↔
      ∀ block ∈ found, ∃ row' ∈ block.versions, row'.version = (package sizes row found).installed.version := by
  cases found with
  | none => simp [package]
  | some block =>
    have hversions (version : String) :
        (∃ record ∈ (package sizes row (some block)).available, record.version = version) ↔
          ∃ row' ∈ block.versions, row'.version = version := by
      simp [package]
    rw [hversions]
    simp

theorem package_of_mem_packages {replies : Replies} {installed : InstalledPackage}
    (h : installed ∈ replies.packages) :
    ∃ row, installed = package replies.sizes row (lastBlock? replies.entries installed.name) := by
  obtain ⟨row, -, rfl⟩ := mem_packages.mp h
  refine ⟨row, ?_⟩
  rw [name_package, find?_reverse_eq_lastBlock?]

theorem installed_mem_available_packages_iff {replies : Replies} {installed : InstalledPackage}
    (h : installed ∈ replies.packages) :
    installed.installed ∈ installed.available ↔ RowForInstalled replies.entries installed := by
  obtain ⟨row, heq⟩ := package_of_mem_packages h
  have hinstalled := installed_package replies.sizes row (lastBlock? replies.entries installed.name)
  have hversions := exists_version_available_package replies.sizes row (lastBlock? replies.entries installed.name)
  rw [← heq] at hinstalled hversions
  rw [installed_mem_iff_exists_version hinstalled, hversions, RowForInstalled]

theorem versionsFrom_packages {replies : Replies} {installed : InstalledPackage}
    (h : installed ∈ replies.packages) : VersionsFrom replies.entries installed := by
  obtain ⟨row, heq⟩ := package_of_mem_packages h
  have hinstalled := installed_package replies.sizes row (lastBlock? replies.entries installed.name)
  rw [← heq] at hinstalled
  refine { rows := ?_, noBlock := ?_, listed := record?_of_installed_mem hinstalled, unlisted := ?_ }
  · intro block hblock
    rw [Option.mem_def.mp hblock] at heq
    rw [heq]
    exact map_available_package _ row block
  · intro hnone
    rw [hnone] at heq
    rw [heq]
    rfl
  · intro hmem
    obtain ⟨hnone, hmade⟩ := record?_of_installed_notMem hinstalled hmem
    exact ⟨hnone, congrArg VersionRecord.origins hmade⟩

/-! ## Runs -/

/-- Of every package that a run gives, the installed version is among the available ones exactly if the table of
the package, where it has one, has a row for it. -/
theorem installed_mem_available_iff {respond : Responder Query (Except Failure String)} {chunkSize : Nat}
    {packages : List InstalledPackage} {asked : List Query}
    (h : (installedPackages (ask respond) chunkSize).transcript = (.ok packages, asked)) :
    ∃ files, respond [.installed] .packageFiles = .ok files ∧
      ∀ package ∈ packages,
        (package.installed ∈ package.available ↔
          RowForInstalled (blocksIn respond (.read files) asked) package) ∧
        VersionsFrom (blocksIn respond (.read files) asked) package := by
  obtain ⟨replies, hreplies, rfl⟩ := exists_of_runFrom_packages h
  obtain ⟨-, hfiles, -⟩ := answeredBy_of_askAll hreplies
  have hblocks := entries_of_askAll hreplies
  rw [Replies.files] at hblocks
  refine ⟨replies.packageFiles, hfiles, fun package hpackage => ?_⟩
  rw [← hblocks]
  exact ⟨installed_mem_available_packages_iff hpackage, versionsFrom_packages hpackage⟩

/-! ## A table without rows -/

/-- A table of a package that has been removed after the package database was asked. -/
def rowlessTable : String := "vim:\n  Installed: (none)\n  Candidate: (none)\n  Version table:\n"

def rowlessReplies : Replies where
  installed := "ii \tvim\t9.0\n"
  packageFiles := ""
  chunks := [⟨rowlessTable, some ""⟩]

/-- The answers that the replies are made of. -/
def rowlessAnswers (_asked : List Query) : Query → Except Failure String
  | .installed => .ok rowlessReplies.installed
  | .packageFiles => .ok rowlessReplies.packageFiles
  | .policy _ => .ok rowlessTable
  | .details _ => .ok ""

def rowlessQueries : List Query :=
  [.installed, .packageFiles, .policy ["vim"], .details ["vim"]]

/-- The package that is made of the row of the database alone. -/
def rowlessPackage : InstalledPackage :=
  ⟨"vim", ⟨"9.0", 0, [.localInstall]⟩, [], none⟩

theorem rows_rowlessReplies : installedRows rowlessReplies.installed = [⟨"vim", "9.0"⟩] := by
  simp only [installedRows, rowlessReplies, String.reduceToList]
  decide +kernel

theorem entries_rowlessReplies : rowlessReplies.entries = [⟨"vim", none, none, []⟩] := by
  simp only [Replies.entries, readPolicy, rowlessReplies, rowlessTable, List.flatMap_cons, List.flatMap_nil]
  decide +kernel

theorem packages_rowlessReplies : rowlessReplies.packages = [rowlessPackage] := by
  rw [packages_eq_map, entries_rowlessReplies, Replies.rows, rows_rowlessReplies]
  decide +kernel

theorem transcript_rowlessAnswers :
    (installedPackages (ask rowlessAnswers) defaultChunkSize).transcript =
      (.ok [rowlessPackage], rowlessQueries) := by
  have hnames : (firstRows (installedRows rowlessReplies.installed)).map (·.name) = ["vim"] := by
    rw [rows_rowlessReplies]
    decide
  have hchunks : chunks defaultChunkSize ["vim"] = [["vim"]] := by simp [chunks]
  rw [← packages_rowlessReplies, transcript_eq_runFrom, runFrom_installedPackages]
  simp only [askAll, runFrom_bind, runFrom_ask, rowlessAnswers, hnames, hchunks]
  rfl

/-- The block has no row, so the version that is installed is not among the available ones. -/
theorem installed_mem_available_rowless :
    (installedPackages (ask rowlessAnswers) defaultChunkSize).transcript = (.ok [rowlessPackage], rowlessQueries) ∧
      (rowlessPackage.installed ∈ rowlessPackage.available ↔
        RowForInstalled [⟨"vim", none, none, []⟩] rowlessPackage) ∧
      VersionsFrom [⟨"vim", none, none, []⟩] rowlessPackage := by
  refine ⟨transcript_rowlessAnswers, ?_⟩
  obtain ⟨files, hfiles, hpackages⟩ := installed_mem_available_iff transcript_rowlessAnswers
  obtain rfl := Except.ok.inj hfiles
  have hblocks : blocksIn rowlessAnswers (.read rowlessReplies.packageFiles) rowlessQueries =
      rowlessReplies.entries := rfl
  rw [hblocks, entries_rowlessReplies] at hpackages
  exact hpackages _ (List.mem_singleton_self _)

theorem not_installed_mem_available :
    ¬∀ (respond : Responder Query (Except Failure String)) (chunkSize : Nat) (packages : List InstalledPackage)
      (asked : List Query), (installedPackages (ask respond) chunkSize).transcript = (.ok packages, asked) →
        ∀ package ∈ packages, package.installed ∈ package.available := by
  intro h
  exact List.not_mem_nil (h _ _ _ _ transcript_rowlessAnswers rowlessPackage (List.mem_singleton_self _))

end UpdatePosture.Apt
