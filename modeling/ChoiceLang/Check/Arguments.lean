import ChoiceLang.Check.Report
import ChoiceLang.Check.LogLevel

/-!
# Command lines

A command line is a command with its options and files; the log level may also be set before the
command. An option has its value after `=` or as the next argument. Values given as arguments of
their own are checked only when the next option or the end of the command line is reached.
-/

namespace ChoiceLang.Check

/-- Why a command line starts no command. -/
inductive UsageError where
  /-- The policy or the files are missing. -/
  | missingRequiredArgument
  | unknownArgument
  | invalidSubcommand
  | missingSubcommand
  /-- An option has no value, or an empty path for it. -/
  | invalidValue
  /-- A text names no log level. -/
  | valueValidation
  /-- A flag has a value. -/
  | tooManyValues
  /-- An option is repeated. -/
  | argumentConflict
  | displayHelp
  | displayVersion
  /-- Nothing was asked for. -/
  | nothingAsked
deriving DecidableEq

/-- The name of an error. -/
def UsageError.name : UsageError → String
  | missingRequiredArgument => "MissingRequiredArgument"
  | unknownArgument => "UnknownArgument"
  | invalidSubcommand => "InvalidSubcommand"
  | missingSubcommand => "MissingSubcommand"
  | invalidValue => "InvalidValue"
  | valueValidation => "ValueValidation"
  | tooManyValues => "TooManyValues"
  | argumentConflict => "ArgumentConflict"
  | displayHelp => "DisplayHelp"
  | displayVersion => "DisplayVersion"
  | nothingAsked => "DisplayHelpOnMissingArgumentOrSubcommand"

/-- The options that have a value. -/
inductive OptionName where
  | policy
  | references
  | logLevel
deriving DecidableEq

/-- The options without a value. -/
inductive Flag where
  | help
  | version
deriving DecidableEq

/-- An argument by its form. -/
inductive Argument where
  /-- `--`: all later arguments are words. -/
  | dashes
  /-- `--name` or `--name=value`. -/
  | long (name : List Char) (value : Option (List Char))
  /-- One dash, then a letter and perhaps more. -/
  | short (letter : Char)
  | word (text : String)

/-- The form of an argument. -/
def Argument.ofText (text : String) : Argument :=
  match text.toList with
  | ['-', '-'] => .dashes
  | '-' :: '-' :: rest =>
    match Text.cutAt '=' rest with
    | some (name, value) => .long name (some value)
    | none => .long rest none
  | '-' :: letter :: _ => .short letter
  | _ => .word text

/-- What a part of a command line may hold besides words. -/
structure Vocabulary where
  options : List (String × OptionName)
  flags : List (String × Char × Flag)

/-- What may stand before the command. -/
def rootVocabulary : Vocabulary where
  options := [("log-level", .logLevel)]
  flags := [("help", 'h', .help), ("version", 'V', .version)]

/-- What may stand after the command. -/
def commandVocabulary : Vocabulary where
  options := [("policy", .policy), ("references", .references), ("log-level", .logLevel)]
  flags := [("help", 'h', .help)]

/-- The values that were given and checked. -/
structure Settings where
  policy : Option String := none
  references : Option String := none
  logLevel : Option Level := none
  files : List String := []
deriving DecidableEq

/-- Checks a path. -/
def checkPath (text : String) : Except UsageError String :=
  if text = "" then .error .invalidValue else .ok text

namespace Settings

/-- Whether an option was given. -/
def isSet (settings : Settings) : OptionName → Bool
  | .policy => settings.policy.isSome
  | .references => settings.references.isSome
  | .logLevel => settings.logLevel.isSome

/-- Sets an option, which may be done once. -/
def set (settings : Settings) (option : OptionName) (value : String) :
    Except UsageError Settings :=
  if settings.isSet option then .error .argumentConflict
  else
    match option with
    | .policy => (checkPath value).map fun path => { settings with policy := some path }
    | .references => (checkPath value).map fun path => { settings with references := some path }
    | .logLevel =>
      match readLevel value with
      | .ok level => .ok { settings with logLevel := some level }
      | .error _ => .error .valueValidation

/-- Adds files. -/
def addFiles (settings : Settings) (files : List String) : Except UsageError Settings :=
  if "" ∈ files then .error .invalidValue
  else .ok { settings with files := settings.files ++ files }

end Settings

/-- What was given and is not checked yet. -/
inductive Pending where
  | nothing
  /-- An option, and its value once that is there. -/
  | option (name : OptionName) (value : Option String)
  | files (paths : List String)
deriving DecidableEq

/-- A part of a command line, read so far. -/
structure Progress where
  settings : Settings := {}
  pending : Pending := .nothing
  /-- `--` was read. -/
  wordsOnly : Bool := false
deriving DecidableEq

namespace Progress

/-- Checks what is pending. -/
def settle (progress : Progress) : Except UsageError Settings :=
  match progress.pending with
  | .nothing => .ok progress.settings
  | .option _ none => .error .invalidValue
  | .option name (some value) => progress.settings.set name value
  | .files paths => progress.settings.addFiles paths

/-- Whether an option waits for its value. -/
def waitsForValue (progress : Progress) : Option OptionName :=
  match progress.pending with
  | .option name none => some name
  | _ => none

/-- Shows what a flag asks for, after what is pending was checked. -/
def raise {α : Type} (progress : Progress) (flag : Flag) : Except UsageError α := do
  let _ ← progress.settle
  match flag with
  | .help => .error .displayHelp
  | .version => .error .displayVersion

/-- Takes in an argument with two dashes. -/
def long (progress : Progress) (vocabulary : Vocabulary) (name : String)
    (value : Option String) : Except UsageError Progress :=
  match vocabulary.options.lookup name, vocabulary.flags.lookup name with
  | some option, _ => do
    let settings ← progress.settle
    match value with
    | none => return { progress with settings, pending := .option option none }
    | some value =>
      let settings ← settings.set option value
      return { progress with settings, pending := .nothing }
  | none, some (_, flag) =>
    match value with
    | none => progress.raise flag
    | some _ => .error .tooManyValues
  | none, none => .error .unknownArgument

/-- Takes in an argument with one dash. -/
def short (progress : Progress) (vocabulary : Vocabulary) (letter : Char) :
    Except UsageError Progress :=
  match vocabulary.flags.find? fun (_, short, _) => short = letter with
  | some (_, _, flag) => progress.raise flag
  | none => .error .unknownArgument

/-- Takes in the path of a file. -/
def addFile (progress : Progress) (path : String) : Except UsageError Progress :=
  match progress.pending with
  | .files paths => .ok { progress with pending := .files (paths ++ [path]) }
  | _ => do
    let settings ← progress.settle
    return { progress with settings, pending := .files [path] }

/-- Takes in an argument after the command. -/
def argument (progress : Progress) (text : String) : Except UsageError Progress :=
  if progress.wordsOnly then progress.addFile text
  else
    match Argument.ofText text with
    | .dashes => .ok { progress with wordsOnly := true }
    | .long name value =>
      progress.long commandVocabulary (String.ofList name) (value.map String.ofList)
    | .short letter => progress.short commandVocabulary letter
    | .word word =>
      match progress.waitsForValue with
      | some name => .ok { progress with pending := .option name (some word) }
      | none => progress.addFile word

/-- Takes in the arguments after the command. -/
def arguments (progress : Progress) : List String → Except UsageError Progress
  | [] => .ok progress
  | text :: others => do
    let progress ← progress.argument text
    progress.arguments others

end Progress

/-- The names of the commands. -/
def commandNames : List (String × Command) :=
  [Command.check, .unparse, .tree].map fun command => (command.name, command)

/-- The word that asks for help. -/
def helpWord : String := "help"

/-- Whether a word is the name of a command or asks for help. -/
def isCommandWord (word : String) : Bool :=
  word = helpWord || (commandNames.lookup word).isSome

/-- A command to run. -/
structure Invocation where
  command : Command
  paths : Paths
  logLevel : Option Level
deriving DecidableEq

/-- The arguments after a command: its paths and the log level. -/
def readCommand (arguments : List String) : Except UsageError (Paths × Option Level) := do
  let progress ← Progress.arguments {} arguments
  let settings ← progress.settle
  match settings.policy, settings.files with
  | some policy, first :: others =>
    return (⟨policy, settings.references, first :: others⟩, settings.logLevel)
  | _, _ => .error .missingRequiredArgument

/-- What the words after the one that asks for help come to: at most a command. -/
def readHelp : List String → UsageError
  | [] => .displayHelp
  | [word] => if isCommandWord word then .displayHelp else .invalidSubcommand
  | _ => .invalidSubcommand

/-- Reads a command line from the part before the command on. -/
def readRoot (progress : Progress) : List String → Except UsageError Invocation
  | [] => do
    let settings ← progress.settle
    .error (if settings.logLevel.isSome then .missingSubcommand else .nothingAsked)
  | text :: others =>
    if progress.wordsOnly then
      .error (if isCommandWord text then .unknownArgument else .invalidSubcommand)
    else
      match Argument.ofText text with
      | .dashes => readRoot { progress with wordsOnly := true } others
      | .long name value => do
        let progress ←
          progress.long rootVocabulary (String.ofList name) (value.map String.ofList)
        readRoot progress others
      | .short letter => do
        let progress ← progress.short rootVocabulary letter
        readRoot progress others
      | .word word =>
        match progress.waitsForValue with
        | some name => readRoot { progress with pending := .option name (some word) } others
        | none =>
          match commandNames.lookup word with
          | some command => do
            let (paths, logLevel) ← readCommand others
            let settings ← progress.settle
            return ⟨command, paths, logLevel.or settings.logLevel⟩
          | none => .error (if word = helpWord then readHelp others else .invalidSubcommand)

/-- Reads a command line. -/
def Invocation.ofArguments (arguments : List String) : Except UsageError Invocation :=
  readRoot {} arguments

end ChoiceLang.Check
