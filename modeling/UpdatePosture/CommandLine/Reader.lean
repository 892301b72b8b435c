import UpdatePosture.CommandLine.Basic
import UpdatePosture.Text.Cut

/-!
# Reading a command line

Words are taken from left to right, first at the root and then below a subcommand. An option that takes a
value may have it in the same word behind an equals sign or as the next word; in the second case it is
settled, and looked at for mistakes, only when another option is met or the level ends. A mistake that is met
before that wins. After two hyphens no word is an option, nor the value of one, so any word there is one too
many.

Options of the root may also stand below a subcommand, and count over those before it there.
-/

namespace UpdatePosture.CommandLine

/-- A word of the command line. -/
inductive Word where
  /-- Two hyphens, after which no word is an option. -/
  | escape
  | long (name : List Char) (value : Option (List Char))
  | short (letters : List Char)
  | plain
  deriving DecidableEq, Repr

def Word.read (word : String) : Word :=
  match word.toList with
  | ['-', '-'] => escape
  | '-' :: '-' :: rest =>
      match Text.cutFirst? (· == '=') rest with
      | some (name, value) => long name (some value)
      | none => long rest none
  | '-' :: letter :: letters => short (letter :: letters)
  | _ => plain

/-- An option whose value stands in a word of its own. -/
structure Pending where
  setting : Setting
  /-- `none` while the value is due. -/
  value : Option String
  deriving DecidableEq, Repr

/-- What a level has been given so far. -/
structure Given where
  series : Option String
  format : Option OutputFormat
  verbose : Bool
  listings : List ListingKind
  pending : Option Pending
  deriving DecidableEq, Repr

namespace Given

def nothing : Given := ⟨none, none, false, [], none⟩

/-- Whether the next word is a value. -/
def isAwaiting (given : Given) : Bool :=
  given.pending.any (·.value.isNone)

/-- Takes over the value of an option that has none so far. -/
def set (given : Given) (value : String) : Setting → Except UsageOutcome Given
  | .series =>
      if given.series.isSome then .error .argumentConflict
      else .ok { given with series := some value }
  | .format =>
      if given.format.isSome then .error .argumentConflict
      else
        match OutputFormat.ofName? value with
        | some format => .ok { given with format := some format }
        | none => .error .invalidValue

/-- Settles the option whose value stood in a word of its own. -/
def settle (given : Given) : Except UsageOutcome Given :=
  match given.pending with
  | none => .ok given
  | some ⟨_, none⟩ => .error .invalidValue
  | some ⟨setting, some value⟩ => { given with pending := none }.set value setting

/-- Takes over a switch that has not been given so far. -/
def turnOn (given : Given) : Switch → Except UsageOutcome Given
  | .help => .error .help
  | .version => .error .version
  | .verbose =>
      if given.verbose then .error .argumentConflict else .ok { given with verbose := true }
  | .listing kind =>
      if kind ∈ given.listings then .error .argumentConflict
      else .ok { given with listings := kind :: given.listings }

/-- Takes a word that starts with two hyphens. -/
def takeLong (level : Level) (given : Given) (name : List Char) (value : Option (List Char)) :
    Except UsageOutcome Given :=
  let name := String.ofList name
  match level.settings.lookup name, level.switches.lookup name, value with
  | some setting, _, some value => do (← given.settle).set (String.ofList value) setting
  | some setting, _, none => do return { ← given.settle with pending := some ⟨setting, none⟩ }
  | none, some _, some _ => .error .tooManyValues
  | none, some switch, none => do (← given.settle).turnOn switch
  | none, none, _ => .error .unknownArgument

/-- Takes a letter of a word that starts with one hyphen. -/
def takeLetter (level : Level) (given : Given) (letter : Char) : Except UsageOutcome Given :=
  match level.letters.lookup letter with
  | some switch => do (← given.settle).turnOn switch
  | none => .error .unknownArgument

/-- Takes a word that is no option: the value that is due, or a word too many. -/
def takePlain (level : Level) (given : Given) (word : String) : Except UsageOutcome Given :=
  match given.pending with
  | some ⟨setting, none⟩ => .ok { given with pending := some ⟨setting, some word⟩ }
  | _ => .error (if level = .root then .invalidSubcommand else .unknownArgument)

/-- Takes the words after an escape: there must be none. -/
def takeEscaped (level : Level) (given : Given) : List String → Except UsageOutcome Given
  | [] => .ok given
  | word :: _ =>
      .error (if level = .root ∧ Subcommand.ofName? word = none then .invalidSubcommand
        else .unknownArgument)

/-- The subcommand that a word names, where one may stand. -/
def subcommand? (level : Level) (given : Given) (word : String) : Option Subcommand :=
  if level = .root ∧ !given.isAwaiting then Subcommand.ofName? word else none

/-- Takes the words of a level, up to the name of a subcommand, which comes back with the words after it. -/
def takeAll (level : Level) (given : Given) :
    List String → Except UsageOutcome (Given × Option (Subcommand × List String))
  | [] => .ok (given, none)
  | word :: words =>
      match given.subcommand? level word with
      | some subcommand => .ok (given, some (subcommand, words))
      | none =>
          match Word.read word with
          | .escape => do return (← given.takeEscaped level words, none)
          | .long name value => do (← given.takeLong level name value).takeAll level words
          | .short letters => do (← letters.foldlM (takeLetter level) given).takeAll level words
          | .plain => do (← given.takePlain level word).takeAll level words

/-- The end of a level: the last option is settled, and only one listing may be asked for. -/
def finish (given : Given) : Except UsageOutcome Given := do
  let given ← given.settle
  if 1 < given.listings.length then .error .argumentConflict else .ok given

end Given

/-- Takes the words below a subcommand. -/
def below (level : Level) (words : List String) : Except UsageOutcome Given := do
  let (given, _) ← Given.nothing.takeAll level words
  given.finish

/-- What the words after `help` come to: they have to name a subcommand. -/
def helpOutcome : List String → UsageOutcome
  | [] => .help
  | [word] => if (Subcommand.ofName? word).isSome then .help else .invalidSubcommand
  | _ => .invalidSubcommand

/-- Puts together what was given before the subcommand and below it. A series from the environment counts
when no other is given. -/
def invocation (command : Command) (before after : Given) (environment : Option String) : Invocation where
  command := command
  series := after.series <|> before.series <|> environment
  verbose := before.verbose || after.verbose

/-- Reads the words of a command line, without the name of the program. -/
def read (words : List String) (environment : Option String) : Except UsageOutcome Invocation := do
  let (before, found) ← Given.nothing.takeAll .root words
  match found with
  | none =>
      let before ← before.finish
      .error (if before = .nothing ∧ environment = none then .helpForNothing else .missingSubcommand)
  | some (.help, words) => .error (helpOutcome words)
  | some (.manifest, words) =>
      let after ← below .manifest words
      return invocation .manifest (← before.finish) after environment
  | some (.securityStatus, words) =>
      let after ← below .securityStatus words
      let command := .securityStatus (after.format.getD .text) after.listings.head?
      return invocation command (← before.finish) after environment

end UpdatePosture.CommandLine
