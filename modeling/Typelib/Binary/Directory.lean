import Typelib.Binary.Record
import Typelib.Binary.EntryKind

/-!
# Directory entries and references to them

A file lists its entries, local ones first, in a directory. Rows refer to a slot of the directory by
its position plus one, so that zero can mean "no entry".
-/

namespace Typelib

/-- A reference to a directory slot: its position plus one, or 0 for no entry. -/
structure DirRef where
  raw : UInt16
  deriving DecidableEq, Repr

namespace DirRef

def none : DirRef := ⟨0⟩

def isNone (r : DirRef) : Bool := r.raw == 0

/-- The reference to the slot at a position, unless the position is too large for one. -/
def ofIndex? (i : Nat) : Option DirRef :=
  if i + 1 < UInt16.size then some ⟨.ofNat (i + 1)⟩ else Option.none

/-- The position that is referred to. -/
def index? (r : DirRef) : Option Nat := if r.isNone then Option.none else some (r.raw.toNat - 1)

def text (r : DirRef) : String := s!"#{r.raw.toNat}"

theorem index?_eq_of_ofIndex? {i : Nat} {r : DirRef} (h : ofIndex? i = some r) :
    r.index? = some i := by
  unfold ofIndex? at h
  split at h
  next hi =>
    cases h
    have hn : (UInt16.ofNat (i + 1)).toNat = i + 1 := UInt16.toNat_ofNat_of_lt' hi
    have h0 : (UInt16.ofNat (i + 1) == 0) = false := by
      rw [beq_eq_false_iff_ne]
      intro h0
      rw [h0] at hn
      exact absurd hn (by simp)
    simp only [index?, isNone, h0, hn]
    simp
  next => cases h

end DirRef

/-- One slot of the directory. A local entry points at its body; an entry of another namespace holds
its symbol in `name` and its namespace in `offset`. -/
structure DirEntry where
  /-- The code of an `EntryKind`; files may hold codes that stand for none. -/
  kind : UInt16
  isLocal : Bool
  name : UInt32
  offset : UInt32
  deriving DecidableEq, Repr

namespace DirEntry

def kind? (e : DirEntry) : Option EntryKind := EntryKind.ofCode? e.kind

/-- Kind, local flag, name, offset. -/
def record : Record DirEntry :=
  (Record.word16.seq <| .seq .flag16 <| .seq .word32 .word32).imap
    (fun (kind, isLocal, name, offset) => ⟨kind, isLocal, name, offset⟩)
    (fun e => (e.kind, e.isLocal, e.name, e.offset))

theorem record_lawful : record.Lawful :=
  (Record.word16_lawful.seq <| .seq Record.flag16_lawful <|
    .seq Record.word32_lawful Record.word32_lawful).imap fun _ => rfl

instance : Row DirEntry := ⟨record⟩

end DirEntry

end Typelib
