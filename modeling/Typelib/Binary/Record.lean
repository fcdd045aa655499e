import Typelib.Binary.Word

/-!
# Fixed-width records

A `Record α` lays the values of `α` out in a fixed number of bytes. Records are built from words,
filler and sequencing, so that one definition both writes and reads a row of the format.

* `Record.Lawful r`: every value takes `r.width` bytes and reads back from them, whatever follows;
* each combinator keeps the law.
-/

namespace Typelib

/-- A fixed-width layout of the values of `α`. -/
structure Record (α : Type) where
  /-- Number of bytes that a value takes. -/
  width : Nat
  encode : α → List UInt8
  /-- Reads the value at the front of the bytes; what is missing reads as zero. -/
  decode : List UInt8 → α

namespace Record

variable {α β : Type}

/-- Every value takes `width` bytes and reads back from them, whatever follows. -/
structure Lawful (r : Record α) : Prop where
  length_encode : ∀ a, (r.encode a).length = r.width
  decode_encode : ∀ a rest, r.decode (r.encode a ++ rest) = a

/-! ### Words -/

def byte : Record UInt8 where
  width := 1
  encode b := [b]
  decode bs := bs.headD 0

/-- A 16-bit word. -/
def word16 : Record UInt16 where
  width := 2
  encode n := leBytes 2 n.toNat
  decode bs := .ofNat (leNat (bs.take 2))

/-- A 32-bit word. -/
def word32 : Record UInt32 where
  width := 4
  encode n := leBytes 4 n.toNat
  decode bs := .ofNat (leNat (bs.take 4))

/-- `n` zero bytes, ignored when read. -/
def filler (n : Nat) : Record Unit where
  width := n
  encode _ := List.replicate n 0
  decode _ := ()

/-! ### Combination -/

/-- One record after another. -/
def seq (r : Record α) (s : Record β) : Record (α × β) where
  width := r.width + s.width
  encode p := r.encode p.1 ++ s.encode p.2
  decode bs := (r.decode bs, s.decode (bs.drop r.width))

/-- The same layout for another view of the values. -/
def imap (r : Record α) (f : α → β) (g : β → α) : Record β where
  width := r.width
  encode b := r.encode (g b)
  decode bs := f (r.decode bs)

/-- `n` records of one layout. -/
def vector (n : Nat) (r : Record α) : Record (Vector α n) where
  width := n * r.width
  encode v := v.toList.flatMap r.encode
  decode bs := .ofFn fun i => r.decode (bs.drop (i * r.width))

/-- A signed 32-bit word, in two's complement. -/
def int32 : Record Int32 := word32.imap UInt32.toInt32 Int32.toUInt32

/-- A 16-bit word that holds a flag: 1 is written for set, and every word but 0 reads as set. -/
def flag16 : Record Bool := word16.imap (· != 0) fun b => if b then 1 else 0

/-! ### Laws -/

theorem byte_lawful : byte.Lawful := ⟨fun _ => rfl, fun _ _ => rfl⟩

theorem word16_lawful : word16.Lawful := by
  refine ⟨fun _ => length_leBytes _ _, fun a rest => ?_⟩
  have h := a.toNat_lt
  have ht : (leBytes 2 a.toNat ++ rest).take 2 = leBytes 2 a.toNat := by
    rw [List.take_append_of_le_length (by simp)]; simp [List.take_of_length_le]
  have hs : byteSpan 2 = 65536 := rfl
  simp only [word16, ht, leNat_leBytes, hs]
  rw [Nat.mod_eq_of_lt (by omega)]
  exact UInt16.ofNat_toNat

theorem word32_lawful : word32.Lawful := by
  refine ⟨fun _ => length_leBytes _ _, fun a rest => ?_⟩
  have h := a.toNat_lt
  have ht : (leBytes 4 a.toNat ++ rest).take 4 = leBytes 4 a.toNat := by
    rw [List.take_append_of_le_length (by simp)]; simp [List.take_of_length_le]
  have hs : byteSpan 4 = 4294967296 := rfl
  simp only [word32, ht, leNat_leBytes, hs]
  rw [Nat.mod_eq_of_lt (by omega)]
  exact UInt32.ofNat_toNat

theorem filler_lawful (n : Nat) : (filler n).Lawful := ⟨fun _ => by simp [filler], fun _ _ => rfl⟩

theorem Lawful.seq {r : Record α} {s : Record β} (hr : r.Lawful) (hs : s.Lawful) :
    (r.seq s).Lawful := by
  refine ⟨fun a => ?_, fun a rest => ?_⟩
  · simp [Record.seq, hr.length_encode, hs.length_encode]
  · have hd : (r.encode a.1 ++ (s.encode a.2 ++ rest)).drop r.width = s.encode a.2 ++ rest := by
      rw [← hr.length_encode a.1, List.drop_left]
    simp only [Record.seq, List.append_assoc, hr.decode_encode, hd, hs.decode_encode]

theorem Lawful.imap {r : Record α} (hr : r.Lawful) {f : α → β} {g : β → α}
    (h : ∀ b, f (g b) = b) : (r.imap f g).Lawful :=
  ⟨fun _ => hr.length_encode _, fun b rest => by simp [Record.imap, hr.decode_encode, h]⟩

theorem int32_lawful : int32.Lawful := word32_lawful.imap fun _ => by simp

theorem flag16_lawful : flag16.Lawful := word16_lawful.imap fun b => by cases b <;> decide

end Record

/-- A fixed-width row of the format, with its layout. -/
class Row (α : Type) where
  record : Record α

/-- Number of bytes of a row. -/
def Row.width (α : Type) [Row α] : Nat := (Row.record : Record α).width

end Typelib
