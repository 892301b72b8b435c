import UpdatePosture.Listing

/-!
# Listings as text

A text is a list of lines. Both reports and listings open with a package summary: the number of installed
packages, then one indented line for each group that is shown.
-/

namespace UpdatePosture

/-- Ends every line with a line feed. -/
def unlines (lines : List String) : String :=
  String.join (lines.map (· ++ "\n"))

/-- The ending of a noun that is counted. -/
def plural (count : Nat) : String :=
  if count = 1 then "" else "s"

/-- A count where none is written as a word. -/
def countOrNo (count : Nat) : String :=
  if count = 0 then "No" else toString count

namespace ListingKind

/-- What a summary says of where the packages of a group come from. -/
def whence : ListingKind → String
  | esmInfra => "from Ubuntu Main/Restricted repository"
  | esmApps => "from Ubuntu Universe/Multiverse repository"
  | thirdParty => "from third parties"
  | unknown => "no longer available for download"

def description : ListingKind → List String
  | thirdParty =>
      ["Packages from third parties are not provided by the official Ubuntu",
       "archive, for example packages from Personal Package Archives in Launchpad."]
  | unknown =>
      ["Packages that are not available for download may be left over from a",
       "previous release of Ubuntu, may have been installed directly from a",
       ".deb file, or are from a source which has been disabled."]
  | esmInfra =>
      ["Main/Restricted packages receive security updates from Canonical",
       "through the esm-infra service once standard support ends."]
  | esmApps =>
      ["Universe/Multiverse packages receive security updates from Canonical",
       "through the esm-apps service."]

/-- What a listing without packages says. -/
def emptyMessage : ListingKind → String
  | thirdParty => "There are no third-party packages installed on this system."
  | unknown => "There are no packages installed that are unavailable for download."
  | esmInfra => "There are no Main/Restricted packages installed on this system."
  | esmApps => "There are no Universe/Multiverse packages installed on this system."

/-- The groups in the order of a summary's lines. -/
def summaryOrder : List ListingKind := [esmInfra, esmApps, thirdParty, unknown]

end ListingKind

namespace PackageSummary

/-- The number of packages in a group. -/
def group (summary : PackageSummary) : ListingKind → Nat
  | .esmInfra => summary.mainRestricted
  | .esmApps => summary.universeMultiverse
  | .thirdParty => summary.thirdParty
  | .unknown => summary.unknown

/-- The groups that have a line. A listing shows its own; a report shows the first, and of the others those
that are not empty. -/
def shown (summary : PackageSummary) : Option ListingKind → List ListingKind
  | some kind => [kind]
  | none => ListingKind.summaryOrder.filter fun kind => kind = .esmInfra ∨ 0 < summary.group kind

/-- The line of a group, indented by one column more than the total has digits. -/
def groupLine (summary : PackageSummary) (kind : ListingKind) : String :=
  let indent := String.ofList (List.replicate ((toString summary.installed).length + 1) ' ')
  let count := summary.group kind
  s!"{indent}{count} package{plural count} {kind.whence}"

/-- The summary as lines, for a listing or for a report, with a blank line after it. -/
def lines (summary : PackageSummary) (only : Option ListingKind) : List String :=
  [s!"{summary.installed} package{plural summary.installed} installed:"] ++
    (summary.shown only).map summary.groupLine ++ [""]

end PackageSummary

namespace Listing

/-- What a listing says of the packages with updates. -/
def updateLines (listing : Listing) : List String :=
  match listing.kind.service? with
  | some service =>
      if listing.withUpdates.toList.isEmpty then []
      else ["", s!"Packages with {service} updates:", " ".intercalate listing.withUpdates.toList]
  | none => []

def hintLines (listing : Listing) : List String :=
  match listing.hint with
  | some package =>
      ["", "For example, run:", s!"    apt-cache policy {package}", "to learn more about that package."]
  | none => []

def lines (listing : Listing) : List String :=
  listing.summary.lines (some listing.kind) ++
    if listing.packages.isEmpty then [listing.kind.emptyMessage]
    else
      listing.kind.description ++ ["", "Packages:", " ".intercalate listing.packages] ++
        listing.updateLines ++ listing.hintLines

/-- The listing as text. -/
def text (listing : Listing) : String :=
  unlines listing.lines

end Listing

end UpdatePosture
