import Typelib.CommandLine.Given

/-!
# Command lines

Options that hold for every command, then the name of a command, then its arguments.

* `Invocation.ofArgs`: what a command line asks for.
-/

namespace Typelib.Invocation

/-- Help on a command, or on help itself. -/
def helpOn : List String → UsageError
  | [] => .help
  | [name] => if (Verb.ofName? name).isSome ∨ name = "help" then .help else .unknownCommand
  | _ => .unknownCommand

/-- The command line ends without a command. -/
def withoutCommand (g : Given) : UsageError := if g.verbosity = 0 then .noArguments else .noCommand

/-- No command can follow when no option can. -/
def afterTerminator (g : Given) : List String → UsageError
  | [] => withoutCommand g
  | word :: _ =>
    if (Verb.ofName? word).isSome ∨ word = "help" then .unknownArgument else .unknownCommand

/-- A command with its arguments. How verbose it is it says itself, if it does. -/
def ofVerb (g : Given) (verb : Verb) (words : List String) : Except UsageError Invocation := do
  let own ← Given.ofWords verb words
  let command ← own.command verb
  return { verbosity := if own.verbosity = 0 then g.verbosity else own.verbosity, command }

/-- Reads the words before a command. -/
def takeWords (g : Given) : List String → Except UsageError Invocation
  | [] => .error (withoutCommand g)
  | word :: words =>
    match Verb.ofName? word with
    | some verb => ofVerb g verb words
    | none =>
      if word = "help" then .error (helpOn words)
      else
        match Word.ofString word with
        | .terminator => .error (afterTerminator g words)
        | .long name value => do takeWords (← g.long none name value) words
        | .letters cs => do takeWords (← g.letters none cs) words
        | .plain => .error .unknownCommand

/-- What a command line asks for. -/
def ofArgs (args : List String) : Except UsageError Invocation := takeWords {} args

end Typelib.Invocation
