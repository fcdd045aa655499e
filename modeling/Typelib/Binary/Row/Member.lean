import Typelib.Binary.TypeRef

/-!
# Rows of members

Fields, properties, enumeration values and constants: the rows that follow the row of their owner. A
constant may also stand for itself in the directory.
-/

namespace Typelib

open Record

/-! ### Properties -/

structure PropertyRow where
  name : UInt32
  flags : UInt32
  type : TypeRef
  deriving DecidableEq, Repr

namespace PropertyRow

def deprecatedBit : Nat := 0
def readableBit : Nat := 1
def writableBit : Nat := 2
def constructBit : Nat := 3
def constructOnlyBit : Nat := 4

instance : Row PropertyRow where
  record := (word32.seq <| .seq word32 TypeRef.record).imap
    (fun (name, flags, type) => ⟨name, flags, type⟩)
    (fun r => (r.name, r.flags, r.type))

end PropertyRow

/-! ### Fields -/

structure FieldRow where
  name : UInt32
  flags : UInt8
  /-- Width of a bit field, 0 for a whole one. -/
  bits : UInt8
  structOffset : UInt16
  type : TypeRef
  deriving DecidableEq, Repr

namespace FieldRow

def readableBit : Nat := 0
def writableBit : Nat := 1

instance : Row FieldRow where
  record := (word32.seq <| .seq byte <| .seq byte <| .seq word16 TypeRef.record).imap
    (fun (name, flags, bits, structOffset, type) => ⟨name, flags, bits, structOffset, type⟩)
    (fun r => (r.name, r.flags, r.bits, r.structOffset, r.type))

end FieldRow

/-! ### Enumeration values -/

structure ValueRow where
  flags : UInt32
  name : UInt32
  /-- The low 32 bits of the value; `ValueRow.value` is the number that they stand for. -/
  bits : UInt32
  deriving DecidableEq, Repr

namespace ValueRow

def deprecatedBit : Nat := 0
def unsignedBit : Nat := 1

/-- The bits are to be read as an unsigned number. -/
def isUnsigned (r : ValueRow) : Bool := r.flags.toNat.testBit unsignedBit

def value (r : ValueRow) : Int := if r.isUnsigned then r.bits.toNat else r.bits.toInt32.toInt

instance : Row ValueRow where
  record := (word32.seq <| .seq word32 word32).imap
    (fun (flags, name, bits) => ⟨flags, name, bits⟩)
    (fun r => (r.flags, r.name, r.bits))

end ValueRow

/-! ### Constants -/

structure ConstantRow where
  kind : UInt16
  flags : UInt16
  name : UInt32
  type : TypeRef
  /-- Number of bytes of the value. -/
  size : UInt32
  /-- Offset of the bytes of the value. -/
  offset : UInt32
  deriving DecidableEq, Repr

namespace ConstantRow

def deprecatedBit : Nat := 0

instance : Row ConstantRow where
  record := (word16.seq <| .seq word16 <| .seq word32 <| .seq TypeRef.record <|
    .seq word32 word32).imap
    (fun (kind, flags, name, type, size, offset) => ⟨kind, flags, name, type, size, offset⟩)
    (fun r => (r.kind, r.flags, r.name, r.type, r.size, r.offset))

end ConstantRow

end Typelib
