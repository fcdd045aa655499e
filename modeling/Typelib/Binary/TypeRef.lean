import Typelib.Binary.Record
import Typelib.Binary.TypeTag

/-!
# Type references

The eight bytes that stand for a type wherever one is used: its tag, its pointer flag, the directory
slot of an interface, and the offset of the body that describes a complex type.
-/

namespace Typelib

/-- A type as it is stored where it is used. -/
structure TypeRef where
  /-- The code of a `TypeTag`; files may hold codes that stand for none. -/
  tag : UInt8
  flags : UInt8
  /-- The directory slot of an interface, as a raw `DirRef`; 0 for the other types. -/
  interface : UInt16
  /-- The offset of the body of a complex type; 0 for the other types. -/
  offset : UInt32
  deriving DecidableEq, Repr

namespace TypeRef

/-- All zero: an unused type. -/
def none : TypeRef := ⟨0, 0, 0, 0⟩

/-- The bit of `flags` that says that values are passed by pointer. -/
def pointerBit : Nat := 0

def isPointer (t : TypeRef) : Bool := t.flags.toNat.testBit pointerBit

/-- The flags of a type that is a pointer or not. -/
def flagsOf (pointer : Bool) : UInt8 := .ofNat (flagWord [pointer])

/-- A reference that needs neither a slot nor a body. -/
def simple (tag : TypeTag) (pointer : Bool) : TypeRef := ⟨tag.code, flagsOf pointer, 0, 0⟩

def tag? (t : TypeRef) : Option TypeTag := TypeTag.ofCode? t.tag

/-- Tag, flags, slot, offset. -/
def record : Record TypeRef :=
  (Record.byte.seq <| .seq .byte <| .seq .word16 .word32).imap
    (fun (tag, flags, interface, offset) => ⟨tag, flags, interface, offset⟩)
    (fun t => (t.tag, t.flags, t.interface, t.offset))

theorem record_lawful : record.Lawful :=
  (Record.byte_lawful.seq <| .seq Record.byte_lawful <|
    .seq Record.word16_lawful Record.word32_lawful).imap fun _ => rfl

instance : Row TypeRef := ⟨record⟩

end TypeRef

end Typelib
