import UpdatePosture.Listing

/-!
# What a command line asks for

The commands of the program, the options that each level of the command line knows, and the ways in which a
command line can fail to ask for a command.
-/

namespace UpdatePosture

inductive OutputFormat where
  | json
  | text
  deriving DecidableEq, Repr, Inhabited

namespace OutputFormat

def name : OutputFormat → String
  | json => "json"
  | text => "text"

def ofName? (value : String) : Option OutputFormat :=
  [json, text].find? fun format => format.name == value

end OutputFormat

inductive Command where
  /-- The report, or a listing. -/
  | securityStatus (format : OutputFormat) (listing : Option ListingKind)
  | manifest
  deriving DecidableEq, Repr, Inhabited

structure Invocation where
  command : Command
  /-- The release series that is asked for. -/
  series : Option String
  verbose : Bool
  deriving DecidableEq, Repr, Inhabited

/-- Why a command line asks for no command. Two of the ways ask for something else: help or the version. -/
inductive UsageOutcome where
  | help
  | version
  /-- Nothing was asked for at all. -/
  | helpForNothing
  | unknownArgument
  | invalidValue
  | tooManyValues
  | invalidSubcommand
  | missingSubcommand
  | argumentConflict
  deriving DecidableEq, Repr, Inhabited

def UsageOutcome.name : UsageOutcome → String
  | help => "DisplayHelp"
  | version => "DisplayVersion"
  | helpForNothing => "DisplayHelpOnMissingArgumentOrSubcommand"
  | unknownArgument => "UnknownArgument"
  | invalidValue => "InvalidValue"
  | tooManyValues => "TooManyValues"
  | invalidSubcommand => "InvalidSubcommand"
  | missingSubcommand => "MissingSubcommand"
  | argumentConflict => "ArgumentConflict"

namespace CommandLine

/-- A command line has a part before the name of a subcommand and a part after it. -/
inductive Level where
  | root
  | securityStatus
  | manifest
  deriving DecidableEq, Repr

inductive Subcommand where
  | securityStatus
  | manifest
  | help
  deriving DecidableEq, Repr

namespace Subcommand

def name : Subcommand → String
  | securityStatus => "security-status"
  | manifest => "manifest"
  | help => "help"

def ofName? (word : String) : Option Subcommand :=
  [securityStatus, manifest, help].find? fun subcommand => subcommand.name == word

end Subcommand

/-- An option without a value. -/
inductive Switch where
  | verbose
  | help
  | version
  | listing (kind : ListingKind)
  deriving DecidableEq, Repr

/-- An option with a value. -/
inductive Setting where
  | series
  | format
  deriving DecidableEq, Repr

/-- The switches of a level by their long names. -/
def Level.switches : Level → List (String × Switch)
  | root => [("verbose", .verbose), ("help", .help), ("version", .version)]
  | securityStatus =>
      [("verbose", .verbose), ("help", .help), ("thirdparty", .listing .thirdParty),
       ("unavailable", .listing .unknown), ("esm-infra", .listing .esmInfra),
       ("esm-apps", .listing .esmApps)]
  | manifest => [("verbose", .verbose), ("help", .help)]

/-- The options of a level that take a value, by their long names. -/
def Level.settings : Level → List (String × Setting)
  | securityStatus => [("series", .series), ("format", .format)]
  | root | manifest => [("series", .series)]

/-- The switches of a level by their letters. -/
def Level.letters : Level → List (Char × Switch)
  | root => [('v', .verbose), ('h', .help), ('V', .version)]
  | securityStatus | manifest => [('v', .verbose), ('h', .help)]

end CommandLine

end UpdatePosture
