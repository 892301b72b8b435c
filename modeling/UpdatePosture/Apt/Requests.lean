import UpdatePosture.Apt.Index
import UpdatePosture.Tool.Run

/-!
# Requests to the package tools

Every tool is asked to answer in the plain locale, because its answer is read by its wording.
-/

namespace UpdatePosture.Apt

/-- How long a tool may take to list packages, in milliseconds. -/
def listTimeout : Nat := 120000

/-- The columns that the package database is asked for. -/
def rowFormat : String := "$\x7bdb:Status-Abbrev\x7d\t$\x7bPackage\x7d\t$\x7bVersion\x7d\n"

/-- A request to list something in the plain locale. -/
def listRequest (source : Source) (action : Action) (program : String) (args : List String) : Request :=
  (Request.mk program args [] source action (some listTimeout)).setEnv "LC_ALL" "C"

def installedRequest (action : Action) : Request :=
  listRequest .dpkg action "dpkg-query" ["-W", "-f", rowFormat]

def packageFilesRequest : Request :=
  listRequest .apt .listVersions "apt-cache" ["policy"]

def policyRequest (names : List String) : Request :=
  listRequest .apt .listVersions "apt-cache" ("policy" :: names)

def detailsRequest (names : List String) : Request :=
  listRequest .apt .listVersions "apt-cache" ("show" :: names)

/-- The request that puts a query to a tool. -/
def Query.request : Query → Request
  | installed => installedRequest .listInstalled
  | packageFiles => packageFilesRequest
  | policy names => policyRequest names
  | details names => detailsRequest names

/-- The package tools of the machine. -/
def tools (execute : Executor) (timeout : Option Nat) : Tools Request := fun query =>
  (query.request.limited timeout).perform execute

end UpdatePosture.Apt
