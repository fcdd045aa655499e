import Typelib.CommandLine.Invocation
import Typelib.CommandLine.Run

/-!
# The command line
-/

namespace Typelib

/-- What is printed if help is asked for. -/
def usage : String := Text.ofLines
  ["Compile interface descriptions into binary typelibs",
    "",
    "Usage: typelib [-v]... <command>",
    "  typelib compile <FOREST> [-o <FILE>] [--format <binary|c>] [--strict] [-I <NAMESPACE>]...",
    "  typelib dump <TYPELIB> [--color <auto|always|never>]"]

/-- An error of the file system. -/
def FileError.ofSystem : IO.Error → FileError
  | .noFileOrDirectory .. => .noSuchFile
  | .inappropriateType _ code reason => .system code.toNat reason
  | .permissionDenied _ code reason => .system code.toNat reason
  | .resourceExhausted _ code reason => .system code.toNat reason
  | .otherError code reason => .system code.toNat reason
  | e => .system 5 (toString e)

/-- The files of the system. -/
def FileAccess.system : FileAccess IO where
  read path := do
    try return .ok (← IO.FS.readBinFile path).data
    catch e => return .error (.ofSystem e)
  write path bytes := do
    try
      IO.FS.writeBinFile path ⟨bytes⟩
      return .ok ()
    catch e => return .error (.ofSystem e)

/-- Does what a command line asks for, and yields the exit code. -/
def runArgs (args : List String) : IO UInt32 := do
  let stdout ← IO.getStdout
  match Invocation.ofArgs args with
  | .error e =>
    if e = .help then stdout.putStr usage
    else IO.eprint (s!"error: {e.message}\n\n" ++ usage)
    return .ofNat e.exitCode
  | .ok invocation =>
    match ← (invocation.command.run .system (← stdout.isTty)).run with
    | .ok output =>
      stdout.write ⟨output⟩
      stdout.flush
      return 0
    | .error e =>
      IO.eprintln s!"error: {e.message}"
      return 1

end Typelib

def main (args : List String) : IO UInt32 := Typelib.runArgs args
