import UpdatePosture.CommandLine.Reader
import UpdatePosture.Listing.Json
import UpdatePosture.Listing.Text
import UpdatePosture.Report.Json
import UpdatePosture.Report.Text
import UpdatePosture.Session
import UpdatePosture.Settings

/-!
# The program

A run of the program reads the command line, settles the series, asks the tools and writes one complete
document to standard output, or nothing there and one line about the first failure to standard error. Above that
line stands what is shown of the log.
-/

namespace UpdatePosture

/-- The report in a format. -/
def Report.render (report : Report) : OutputFormat → String
  | .json => report.jsonLine ++ "\n"
  | .text => report.text

/-- The listing in a format. -/
def Listing.render (listing : Listing) : OutputFormat → String
  | .json => listing.jsonLine ++ "\n"
  | .text => listing.text

/-- The manifest, which has one format. -/
def Manifest.render (manifest : Manifest) : String :=
  manifest.jsonLine ++ "\n"

/-- What the program finds around it. -/
structure Host where
  release : ReleaseFile
  execute : Executor
  reader : StatusReader
  logger : Logger

/-- The session that the settings describe. -/
def Settings.session (settings : Settings) (host : Host) : Session where
  table := .ofSeries settings.series
  chunkSize := settings.chunkSize
  listTimeout := some settings.listTimeout
  statusTimeout := some settings.statusTimeout
  reader := host.reader
  execute := host.execute

namespace Command

/-- The document that a command writes. -/
def document (session : Session) : Command → Dialogue Request String
  | securityStatus format none => (·.render format) <$> session.report
  | securityStatus format (some kind) => (·.render format) <$> session.listing kind
  | manifest => Manifest.render <$> session.manifest

/-- What the program was about to do when a command failed. -/
def context : Command → String
  | securityStatus _ none => "failed to build the security status report"
  | securityStatus _ (some _) => "failed to list installed packages"
  | manifest => "failed to build the package manifest"

end Command

/-- How a run of the program ends. -/
structure ExitReport where
  code : Nat
  stdout : String
  stderr : String
  deriving DecidableEq, Repr, Inhabited

namespace ExitReport

/-- The end of a run that wrote its document. -/
def success (log document : String) : ExitReport := ⟨0, document, log⟩

/-- The end of a run that failed at something. -/
def failure (log context : String) (failure : Failure) : ExitReport :=
  ⟨1, "", log ++ s!"Error: {context}: {failure.display}\n"⟩

end ExitReport

/-- Reads the words of a command line, given the series in the environment. Words that ask for no command end the
program at once. -/
abbrev ArgumentParser := List String → Option String → Except ExitReport Invocation

namespace CommandLine

def versionText : String := "secstat 0.1.0\n"

/-- The end of a run whose words ask for no command. Help and the version are given to who asks for them; anything
else is a mistake. All but the version is in the words of a parser. -/
def usageExit (wording : UsageOutcome → String) : UsageOutcome → ExitReport
  | .version => .success "" versionText
  | .help => .success "" (wording .help)
  | outcome => ⟨2, "", wording outcome⟩

def parser (wording : UsageOutcome → String) : ArgumentParser := fun words environment =>
  (read words environment).mapError (usageExit wording)

end CommandLine

namespace Program

/-- What the program was about to do when the series could not be settled. -/
def seriesContext : String := "could not determine the release series"

/-- What is logged when an invocation is carried out. -/
def log (invocation : Invocation) (host : Host) : List LogEvent :=
  Settings.resolveLog invocation.series host.release ++
    match Settings.resolve invocation.series host.release with
    | .error _ => []
    | .ok settings =>
        .resolved settings.series :: (invocation.command.document (settings.session host)).course.log

/-- Carries out an invocation; the requests that were handed over come back with the end of the run. -/
def perform (invocation : Invocation) (host : Host) : ExitReport × List Request :=
  let shown := host.logger.text invocation.verbose (log invocation host)
  match Settings.resolve invocation.series host.release with
  | .error failure => (.failure shown seriesContext failure, [])
  | .ok settings =>
      match (invocation.command.document (settings.session host)).transcript with
      | (.ok document, requests) => (.success shown document, requests)
      | (.error failure, requests) => (.failure shown invocation.command.context failure, requests)

/-- A whole run, from the words of the command line and the series in the environment. -/
def run (parse : ArgumentParser) (words : List String) (environment : Option String) (host : Host) :
    ExitReport × List Request :=
  match parse words environment with
  | .error exit => (exit, [])
  | .ok invocation => perform invocation host

end Program

end UpdatePosture
