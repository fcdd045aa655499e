import Typelib.Build.Options
import Typelib.Palette

/-!
# Commands

What a command line can ask for: a description to be built into a file, or a file to be shown as text.
-/

namespace Typelib

/-- What a file is written as. -/
inductive OutputFormat
  | binary
  /-- C source that holds the bytes. -/
  | cSource
  deriving DecidableEq, Repr

namespace OutputFormat

def name : OutputFormat → String
  | binary => "binary"
  | cSource => "c"

def ofName? : String → Option OutputFormat
  | "binary" => some binary
  | "c" => some cSource
  | _ => none

theorem ofName?_name (f : OutputFormat) : ofName? f.name = some f := by cases f <;> rfl

end OutputFormat

/-- Whether text is coloured. -/
inductive ColorMode
  /-- It is if it goes to a terminal. -/
  | auto
  | always
  | never
  deriving DecidableEq, Repr

namespace ColorMode

def name : ColorMode → String
  | auto => "auto"
  | always => "always"
  | never => "never"

def ofName? : String → Option ColorMode
  | "auto" => some auto
  | "always" => some always
  | "never" => some never
  | _ => none

theorem ofName?_name (m : ColorMode) : ofName? m.name = some m := by cases m <;> rfl

/-- The mode settles the matter, whatever the text goes to. -/
def fixed? : ColorMode → Option Bool
  | auto => none
  | always => some true
  | never => some false

/-- The palette for text that goes to a terminal or not. -/
def palette (m : ColorMode) (terminal : Bool) : Palette := .ofBool (m.fixed?.getD terminal)

end ColorMode

/-! ### Commands -/

/-- A description is to be built. -/
structure CompileJob where
  /-- The file that holds the description. -/
  input : String
  /-- Where the result goes; to standard output if nothing is named. -/
  output : Option String := none
  format : OutputFormat := .binary
  options : Options := {}
  deriving DecidableEq, Repr

/-- A file is to be shown. -/
structure DumpJob where
  input : String
  color : ColorMode := .auto
  deriving DecidableEq, Repr

inductive Command
  | compile (job : CompileJob)
  | dump (job : DumpJob)
  deriving DecidableEq, Repr

/-- What a command line asks for. -/
structure Invocation where
  /-- How often more messages were asked for. -/
  verbosity : Nat := 0
  command : Command
  deriving DecidableEq, Repr

/-- The least severe messages that are shown. -/
def Invocation.logLevel (i : Invocation) : String :=
  match i.verbosity with
  | 0 => "warn"
  | 1 => "info"
  | 2 => "debug"
  | _ => "trace"

end Typelib
