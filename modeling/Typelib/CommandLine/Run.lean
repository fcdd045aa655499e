import Typelib.Build.Assembly
import Typelib.CommandLine.Command
import Typelib.CommandLine.Files
import Typelib.CSource.Unit
import Typelib.Image.Dump

/-!
# Running commands

A command reads its input, and either yields what goes to standard output or fails. Nothing is written
before everything is known.

* `CompileJob.result`, `DumpJob.result`: what a command makes of its input;
* `Command.run`: a whole run.
-/

namespace Typelib

/-- Why a command failed. -/
inductive CommandError
  | read (path : String) (cause : FileError)
  | write (path : String) (cause : FileError)
  /-- The input is no document. -/
  | document (fault : Fault)
  | build (cause : BuildError)
  /-- The input is no file of the format. -/
  | load (cause : ReadError)
  deriving DecidableEq, Repr

namespace CommandError

def message : CommandError → String
  | read path cause => s!"failed to read {path}: " ++ cause.message
  | write path cause => s!"failed to write {path}: " ++ cause.message
  | document _ => "invalid namespace document"
  | build cause => cause.message
  | load cause => "invalid typelib: " ++ cause.message

end CommandError

/-! ### Results -/

/-- The artifact of the document that a text holds. -/
def Artifact.ofText (text : String) (options : Options) : Except CommandError Artifact :=
  match Document.ofText text with
  | .error fault => .error (.document fault)
  | .ok document => (document.compile options).mapError .build

/-- An artifact, written in a format. -/
def Artifact.encode (a : Artifact) : OutputFormat → Bytes
  | .binary => a.bytes
  | .cSource => (Text.toBytes a.cSource).toArray

/-- What a text is built into. -/
def CompileJob.result (job : CompileJob) (text : String) : Except CommandError Bytes := do
  return (← Artifact.ofText text job.options).encode job.format

/-- The text of a file. -/
def Image.dumpBytes (bytes : Bytes) (palette : Palette) : Except CommandError String :=
  match Image.load bytes with
  | .error e => .error (.load e)
  | .ok img => (img.dump palette).mapError .load

/-- The text of a file, coloured as the job wants it. -/
def DumpJob.result (job : DumpJob) (terminal : Bool) (bytes : Bytes) : Except CommandError String :=
  Image.dumpBytes bytes (job.color.palette terminal)

/-! ### Runs -/

section
variable {m : Type → Type} [Monad m] (files : FileAccess m)

/-- Builds a file, and writes it where it was asked for. -/
def CompileJob.run (job : CompileJob) : ExceptT CommandError m Bytes := do
  let bytes ← ExceptT.adapt (.read job.input) (ExceptT.mk (files.read job.input))
  match Text.ofBytes? bytes with
  | none => throw (.read job.input .notText)
  | some text =>
    let result ← liftExcept (job.result text)
    match job.output with
    | none => return result
    | some path =>
      ExceptT.adapt (.write path) (ExceptT.mk (files.write path result))
      return #[]
where
  liftExcept {α : Type} (r : Except CommandError α) : ExceptT CommandError m α := ExceptT.mk (pure r)

/-- Shows a file. -/
def DumpJob.run (job : DumpJob) (terminal : Bool) : ExceptT CommandError m Bytes := do
  let bytes ← ExceptT.adapt (.read job.input) (ExceptT.mk (files.read job.input))
  let text ← ExceptT.mk (pure (job.result terminal bytes))
  return (Text.toBytes text).toArray

/-- Runs a command, which yields what goes to standard output. -/
def Command.run (terminal : Bool) : Command → ExceptT CommandError m Bytes
  | .compile job => job.run files
  | .dump job => job.run files terminal

end

end Typelib
