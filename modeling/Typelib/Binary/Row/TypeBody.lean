import Typelib.Binary.TypeRef

/-!
# Rows of complex types

The bodies that array, list, hash and error types point at. A parametrised type is followed by its
type references, an error type by the directory slots of its domains.
-/

namespace Typelib

open Record

structure ArrayTypeRow where
  tag : UInt8
  flags : UInt8
  /-- Position of the parameter that holds the length, where there is one. -/
  length : UInt16
  element : TypeRef
  deriving DecidableEq, Repr

namespace ArrayTypeRow

def pointerBit : Nat := 0
def zeroTerminatedBit : Nat := 1
def hasLengthBit : Nat := 2

instance : Row ArrayTypeRow where
  record := (byte.seq <| .seq byte <| .seq word16 <| .seq (filler 4) TypeRef.record).imap
    (fun (tag, flags, length, _, element) => ⟨tag, flags, length, element⟩)
    (fun r => (r.tag, r.flags, r.length, (), r.element))

end ArrayTypeRow

/-- A list, slist or hash. -/
structure ParamTypeRow where
  tag : UInt8
  flags : UInt8
  /-- Number of type references that follow. -/
  typeCount : UInt16
  deriving DecidableEq, Repr

instance : Row ParamTypeRow where
  record := (byte.seq <| .seq byte <| .seq word16 (filler 4)).imap
    (fun (tag, flags, typeCount, _) => ⟨tag, flags, typeCount⟩)
    (fun r => (r.tag, r.flags, r.typeCount, ()))

structure ErrorTypeRow where
  tag : UInt8
  flags : UInt8
  /-- Number of directory slots that follow. -/
  domainCount : UInt16
  deriving DecidableEq, Repr

instance : Row ErrorTypeRow where
  record := (byte.seq <| .seq byte <| .seq word16 (filler 4)).imap
    (fun (tag, flags, domainCount, _) => ⟨tag, flags, domainCount⟩)
    (fun r => (r.tag, r.flags, r.domainCount, ()))

end Typelib
