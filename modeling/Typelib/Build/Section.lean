import Std.Data.TreeMap
import Typelib.Binary.TypeRef
import Typelib.Build.Error

/-!
# The bodies of a file under construction

Bodies are written before it is known where they and the strings will stand. A reference to either is
written as four zero bytes and recorded, to be filled in when the file is put together.
-/

namespace Typelib

/-- What a reference leads to. -/
inductive Target
  /-- A string, by its pool offset. -/
  | string (offset : UInt32)
  /-- The start of a body. -/
  | body (id : BodyId)
  deriving DecidableEq, Repr

/-- A reference that is not filled in yet. -/
structure Reloc where
  /-- Position of its four bytes. -/
  pos : Nat
  target : Target
  deriving DecidableEq, Repr

/-- Bodies as far as they are written. -/
structure Section where
  bytes : Array UInt8 := #[]
  relocs : Array Reloc := #[]
  /-- Where each body starts. -/
  starts : Std.TreeMap BodyId Nat := {}

namespace Section

def size (s : Section) : Nat := s.bytes.size

def append (s : Section) (bytes : List UInt8) : Section := { s with bytes := s.bytes ++ bytes }

/-- Zero bytes up to the next place where a body may start. -/
def align (s : Section) : Section := s.append (List.replicate (alignUp s.size - s.size) 0)

/-- The place where a body was begun. -/
def startOf? (s : Section) (id : BodyId) : Option Nat := s.starts[id]?

/-- Number of bodies. -/
def bodyCount (s : Section) : Nat := s.starts.size

/-- Begins a body, which must not have been begun before. -/
def start (s : Section) (id : BodyId) : Except BuildError Nat × Section :=
  let s := s.align
  let pos := s.size
  let outcome := match s.startOf? id with
    | none => .ok pos
    | some previous => .error (.writtenTwice id previous)
  (outcome, { s with starts := s.starts.insert id pos })

/-- Four bytes to be filled in. -/
def reference (s : Section) (target : Target) : Section :=
  let relocs := s.relocs.push ⟨s.size, target⟩
  { s with bytes := s.bytes ++ leBytes 4 0, relocs }

/-- A reference to a string, or zero. -/
def stringRef (s : Section) : Option UInt32 → Section
  | some offset => s.reference (.string offset)
  | none => s.append (leBytes 4 0)

/-- A reference to a body. -/
def bodyRef (s : Section) (id : BodyId) : Section := s.reference (.body id)

/-- A type. The offset of a complex one, in its last four bytes, is to be filled in. -/
def typeRef (s : Section) (type : TypeRef) : Option BodyId → Section
  | none => s.append (TypeRef.record.encode type)
  | some id =>
    let relocs := s.relocs.push ⟨s.size + 4, .body id⟩
    { s with bytes := s.bytes ++ TypeRef.record.encode type, relocs }

end Section

end Typelib
