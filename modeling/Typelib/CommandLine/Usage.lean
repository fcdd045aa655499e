import Typelib.CommandLine.Command

/-!
# Arguments

The options of each command, and what can be wrong with a command line.

* `Argument.long?`, `Argument.short?`: the option of a name, where it may stand;
* `UsageError`: why a command line was not understood.
-/

namespace Typelib

/-- Why a command line leads to no command. -/
inductive UsageError
  /-- Help was asked for. -/
  | help
  /-- There are no arguments at all. -/
  | noArguments
  /-- There are options but no command. -/
  | noCommand
  | unknownCommand
  | unknownArgument
  /-- The command needs an argument that is not there. -/
  | missingArgument
  /-- An option that can be set once is set again. -/
  | repeatedArgument
  /-- The value of an option is missing or is none that it can have. -/
  | invalidValue
  /-- An option that takes no value is given one. -/
  | unwantedValue
  deriving DecidableEq, Repr

namespace UsageError

/-- The exit code: it is no failure to ask for help. -/
def exitCode : UsageError → Nat
  | help => 0
  | _ => 2

def message : UsageError → String
  | help => "help was asked for"
  | noArguments => "no arguments"
  | noCommand => "no command"
  | unknownCommand => "unknown command"
  | unknownArgument => "unknown argument"
  | missingArgument => "a required argument is missing"
  | repeatedArgument => "an argument can be used only once"
  | invalidValue => "an argument has a missing or invalid value"
  | unwantedValue => "an argument takes no value"

end UsageError

/-- The name of a command. -/
inductive Verb
  | compile
  | dump
  deriving DecidableEq, Repr

namespace Verb

def name : Verb → String
  | compile => "compile"
  | dump => "dump"

def ofName? : String → Option Verb
  | "compile" => some compile
  | "dump" => some dump
  | _ => none

end Verb

/-! ### Options -/

/-- An option without a value. -/
inductive Switch
  | help
  | verbose
  | strict
  deriving DecidableEq, Repr

/-- Something that is set to a value. -/
inductive Setting
  /-- The file that a command reads. It is set by a word that belongs to no option. -/
  | input
  | output
  | format
  | color
  /-- A namespace that may be referred to. -/
  | included
  deriving DecidableEq, Repr

namespace Setting

/-- More than one value can be given. -/
def isList : Setting → Bool
  | included => true
  | _ => false

/-- The setting can have the value. -/
def accepts : Setting → String → Bool
  | input, value | output, value => !value.isEmpty
  | format, value => (OutputFormat.ofName? value).isSome
  | color, value => (ColorMode.ofName? value).isSome
  | included, _ => true

end Setting

/-- What the name of an option stands for. -/
inductive Argument
  | switch (s : Switch)
  | setting (s : Setting)
  deriving DecidableEq, Repr

namespace Argument

/-- The option with a long name, after a command or before any. -/
def long? : Option Verb → String → Option Argument
  | _, "help" => some (.switch .help)
  | some .compile, "output" => some (.setting .output)
  | some .compile, "format" => some (.setting .format)
  | some .compile, "strict" => some (.switch .strict)
  | some .compile, "include" => some (.setting .included)
  | some .dump, "color" => some (.setting .color)
  | _, _ => none

/-- The option with a name of one letter, after a command or before any. -/
def short? : Option Verb → Char → Option Argument
  | _, 'h' => some (.switch .help)
  | _, 'v' => some (.switch .verbose)
  | some .compile, 'o' => some (.setting .output)
  | some .compile, 'I' => some (.setting .included)
  | _, _ => none

end Argument

/-! ### Words -/

/-- A word of the command line, by its form. -/
inductive Word
  /-- Two dashes: no option follows. -/
  | terminator
  /-- A long name, perhaps with a value behind an equals sign. -/
  | long (name : String) (value : Option String)
  /-- Letters behind a dash. -/
  | letters (cs : List Char)
  | plain
  deriving DecidableEq, Repr

namespace Word

/-- The text behind an equals sign. -/
def afterEquals? : List Char → Option String
  | '=' :: cs => some (String.ofList cs)
  | _ => none

def ofString (s : String) : Word :=
  match s.toList with
  | ['-', '-'] => terminator
  | '-' :: '-' :: cs =>
    long (String.ofList (cs.takeWhile (· != '='))) (afterEquals? (cs.dropWhile (· != '=')))
  | '-' :: c :: cs => letters (c :: cs)
  | _ => plain

end Word

end Typelib
