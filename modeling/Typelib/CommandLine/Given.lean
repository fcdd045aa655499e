import Typelib.CommandLine.Usage

/-!
# Arguments that were given

The arguments of a command are read from left to right. A value is not checked when it is met but when
the next argument is, so that an argument that nobody knows is reported before a wrong value to its
left.

* `Given`: the arguments so far;
* `Given.ofWords`: the arguments of a command.
-/

namespace Typelib

/-- The arguments that were given so far. -/
structure Given where
  verbosity : Nat := 0
  strict : Bool := false
  /-- The settings whose values were checked, in order. -/
  settings : List (Setting × String) := []
  /-- The last setting, if its value is still to be checked or is still to come. -/
  pending : Option (Setting × Option String) := none
  deriving DecidableEq, Repr

namespace Given

/-- How often the verbosity counts at most. -/
def maxVerbosity : Nat := 255

/-- The first value of a setting. -/
def value? (g : Given) (s : Setting) : Option String := g.settings.lookup s

/-- All values of a setting, in order. -/
def values (g : Given) (s : Setting) : List String :=
  (g.settings.filter fun p => p.1 = s).map Prod.snd

/-- Sets a value, unless the setting has one that stands alone or cannot have this one. -/
def set (g : Given) (s : Setting) (value : String) : Except UsageError Given :=
  if !s.isList ∧ (g.value? s).isSome then .error .repeatedArgument
  else if !s.accepts value then .error .invalidValue
  else .ok { g with settings := g.settings ++ [(s, value)] }

/-- Checks the last value. -/
def settle (g : Given) : Except UsageError Given :=
  match g.pending with
  | none => .ok g
  | some (_, none) => .error .invalidValue
  | some (s, some value) => { g with pending := none }.set s value

/-- Turns a switch on. -/
def turnOn (g : Given) : Switch → Except UsageError Given
  | .help => .error .help
  | .verbose => .ok { g with verbosity := min (g.verbosity + 1) maxVerbosity }
  | .strict => if g.strict then .error .repeatedArgument else .ok { g with strict := true }

/-- Takes an option that is known; a value that is not given with it is to come. -/
def option (g : Given) : Argument → Option String → Except UsageError Given
  | .switch s, none => do (← g.settle).turnOn s
  | .switch _, some _ => .error .unwantedValue
  | .setting s, some value => do (← g.settle).set s value
  | .setting s, none => do
    let g ← g.settle
    .ok { g with pending := some (s, none) }

/-! ### Words -/

/-- Takes an option by its long name. -/
def long (verb : Option Verb) (g : Given) (name : String) (value : Option String) :
    Except UsageError Given :=
  match Argument.long? verb name with
  | none => .error .unknownArgument
  | some a => g.option a value

/-- Takes options by their letters. What follows the letter of a setting is its value. -/
def letters (verb : Option Verb) (g : Given) : List Char → Except UsageError Given
  | [] => .ok g
  | c :: cs =>
    match Argument.short? verb c with
    | none => .error .unknownArgument
    | some (.switch s) => do letters verb (← g.option (.switch s) none) cs
    | some (.setting s) =>
      match cs with
      | [] => g.option (.setting s) none
      | '=' :: value => g.option (.setting s) (some (String.ofList value))
      | value => g.option (.setting s) (some (String.ofList value))

/-- The input was given already, even if it was not checked. -/
def hasInput (g : Given) : Bool :=
  (g.value? .input).isSome || (g.pending.any fun p => p.1 = .input)

/-- Takes a word that is no value of an option. There can be one. -/
def input (g : Given) (word : String) : Except UsageError Given :=
  if g.hasInput then .error .unknownArgument
  else do
    let g ← g.settle
    .ok { g with pending := some (.input, some word) }

/-- Takes a word that is no option: the value that is to come, or else the input. -/
def plain (g : Given) (word : String) : Except UsageError Given :=
  match g.pending with
  | some (s, none) => .ok { g with pending := some (s, some word) }
  | _ => g.input word

/-- Takes the words that follow a command. -/
def takeWords (verb : Verb) (g : Given) : List String → Except UsageError Given
  | [] => g.settle
  | word :: words =>
    match Word.ofString word with
    | .terminator => do (← words.foldlM input g).settle
    | .long name value => do takeWords verb (← g.long verb name value) words
    | .letters cs => do takeWords verb (← g.letters verb cs) words
    | .plain => do takeWords verb (← g.plain word) words

/-- The arguments of a command. -/
def ofWords (verb : Verb) (words : List String) : Except UsageError Given :=
  takeWords verb {} words

/-! ### Commands -/

/-- The command that the arguments describe. Nothing but its input is required. -/
def command (g : Given) (verb : Verb) : Except UsageError Command :=
  match g.value? .input with
  | none => .error .missingArgument
  | some input =>
    .ok <| match verb with
    | .compile => .compile
      { input
        output := g.value? .output
        format := ((g.value? .format).bind OutputFormat.ofName?).getD .binary
        options := { strict := g.strict, includes := g.values .included } }
    | .dump => .dump
      { input
        color := ((g.value? .color).bind ColorMode.ofName?).getD .auto }

end Given

end Typelib
