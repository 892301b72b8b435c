import Std.Data.TreeMap
import UpdatePosture.Apt.Installed
import UpdatePosture.Apt.Policy
import UpdatePosture.Apt.Stanzas
import UpdatePosture.Dialogue

/-!
# The index of installed packages

The package tools are asked for the installed packages, for the package files, and then, some names at a
time, for version tables and details. The answers together give the installed packages with every version
that is known of them. Details only add download sizes, so a failure to give them is let pass.
-/

namespace UpdatePosture.Apt

inductive Query where
  | installed
  | packageFiles
  | policy (names : List String)
  | details (names : List String)
  deriving DecidableEq, Repr

/-- Asks the package tools, in a dialogue whose queries may be of another type. -/
abbrev Tools (Q : Type) := Query → Dialogue Q String

/-- How many names are asked about at a time unless it is said otherwise. -/
def defaultChunkSize : Nat := 256

/-- Cuts a list into pieces of `size` items, the last of which may be shorter. Size 0 acts as 1. -/
def chunks {α : Type} (size : Nat) : List α → List (List α)
  | [] => []
  | item :: items => (item :: items.take (size - 1)) :: chunks size (items.drop (size - 1))
termination_by items => items.length
decreasing_by simp only [List.length_drop, List.length_cons]; omega

/-- What is answered about some names. -/
structure ChunkReply where
  policy : String
  /-- `none` if the details could not be had. -/
  details : Option String
  deriving DecidableEq, Repr

/-- Everything the package tools answer. -/
structure Replies where
  installed : String
  packageFiles : String
  chunks : List ChunkReply
  deriving DecidableEq, Repr

namespace Replies

/-- The installed packages, each name once, with the version that the package database gives. -/
def rows (replies : Replies) : List InstalledRow :=
  firstRows (installedRows replies.installed)

def files (replies : Replies) : PackageFiles :=
  .read replies.packageFiles

/-- All blocks of all version tables, in the order of the replies. -/
def entries (replies : Replies) : List PolicyEntry :=
  replies.chunks.flatMap fun chunk => readPolicy replies.files chunk.policy

/-- The blocks by the packages that they are about. Of several blocks about one package the last counts. -/
def policies (replies : Replies) : Std.TreeMap String PolicyEntry :=
  replies.entries.foldl (fun policies entry => policies.insert entry.name entry) ∅

def sizes (replies : Replies) : Sizes :=
  (replies.chunks.filterMap (·.details)).foldl (fun sizes text => sizes.updatedBy (.read text)) .empty

end Replies

/-- A version that is known to be installed and of which no table tells. -/
def localRecord (sizes : Sizes) (name version : String) : VersionRecord :=
  ⟨version, sizes.get name version, [.localInstall]⟩

/-- An installed package, from its row and the block about it. -/
def package (sizes : Sizes) (row : InstalledRow) : Option PolicyEntry → InstalledPackage
  | none =>
      let record := localRecord sizes row.name row.version
      ⟨row.name, record, [record], none⟩
  | some entry =>
      let available := entry.versions.map fun found =>
        VersionRecord.mk found.version (sizes.get row.name found.version) found.origins
      let version := entry.installed.getD row.version
      let installed := (available.find? (·.version == version)).getD (localRecord sizes row.name version)
      ⟨row.name, installed, available, entry.candidate⟩

/-- The packages of some rows. Each row takes the block about its package out of those that are left. -/
def packagesFrom (sizes : Sizes) (policies : Std.TreeMap String PolicyEntry) :
    List InstalledRow → List InstalledPackage
  | [] => []
  | row :: rows => package sizes row policies[row.name]? :: packagesFrom sizes (policies.erase row.name) rows

namespace Replies

/-- The installed packages that the replies tell of. -/
def packages (replies : Replies) : List InstalledPackage :=
  packagesFrom replies.sizes replies.policies replies.rows

/-- What is logged of the packages. Locations that are listed more than once count once. -/
def log (replies : Replies) : List LogEvent :=
  [.packagesRead replies.packages.length (replies.files.entries.map (·.1)).eraseDups.length]

end Replies

variable {Q : Type}

/-- Asks about some names, when the package files are known. -/
def askChunk (tools : Tools Q) (files : PackageFiles) (names : List String) : Dialogue Q ChunkReply := do
  let policy ← Dialogue.logging (policyLog files) (tools (.policy names))
  let details ← Dialogue.attempt (tools (.details names)) .detailsFailed
  return ⟨policy, details⟩

/-- Asks everything there is to ask. -/
def askAll (tools : Tools Q) (chunkSize : Nat) : Dialogue Q Replies := do
  let installed ← tools .installed
  let packageFiles ← tools .packageFiles
  let names := (firstRows (installedRows installed)).map (·.name)
  let replies ← (chunks chunkSize names).mapM (askChunk tools (.read packageFiles))
  return ⟨installed, packageFiles, replies⟩

/-- The installed packages with every version that is known of them. -/
def installedPackages (tools : Tools Q) (chunkSize : Nat) : Dialogue Q (List InstalledPackage) :=
  Replies.packages <$> Dialogue.logging Replies.log (askAll tools chunkSize)

/-- The installed packages as lines of a manifest, repetitions included. -/
def manifestLines (tools : Tools Q) : Dialogue Q (List String) := do
  return (installedRows (← tools .installed)).map (·.manifestLine)

end UpdatePosture.Apt
