import Typelib.Artifact.Basic
import Typelib.Build.Error

/-!
# Writing artifacts out

A sink takes bytes until it is full, then fails. What fits is taken even if the rest does not.
-/

namespace Typelib

/-- A place that takes bytes. -/
structure Sink where
  /-- Number of bytes that it still takes. -/
  room : Nat
  /-- Why it takes no more. -/
  reason : String
  received : Bytes := #[]
  /-- All that was received has been passed on. -/
  flushed : Bool := false
  deriving DecidableEq

namespace Sink

/-- Takes as many of the bytes as there is room for, and fails if some are left. -/
def write (s : Sink) (bytes : Bytes) : Except BuildError Unit × Sink :=
  let taken := bytes.extract 0 s.room
  let s' := { s with room := s.room - taken.size, received := s.received ++ taken }
  if taken.size < bytes.size then (.error (.sink s.reason), s') else (.ok (), s')

def flush (s : Sink) : Sink := { s with flushed := true }

end Sink

/-- Writes the bytes of an artifact; they are passed on if there was room for all. -/
def Artifact.writeTo (a : Artifact) (s : Sink) : Except BuildError Unit × Sink :=
  match s.write a.bytes with
  | (.ok _, s) => (.ok (), s.flush)
  | failed => failed

end Typelib
