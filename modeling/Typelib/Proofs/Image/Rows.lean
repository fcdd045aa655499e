import Mathlib.Algebra.GroupWithZero.Nat
import Typelib.Binary.Header

/-!
# Every row reads back

Each row of the format, and the header, takes its width in bytes and reads back from them.

* `LawfulRow`: rows that do so;
* `Header.record_lawful`: the header does so.
-/

namespace Typelib

/-- Rows that take their width in bytes and read back from them. -/
class LawfulRow (α : Type) [Row α] : Prop where
  lawful : (Row.record : Record α).Lawful

open Record

/-! ### Records one after another -/

namespace Record.Lawful

variable {α : Type} {r : Record α}

theorem length_flatMap (hr : r.Lawful) (as : List α) :
    (as.flatMap r.encode).length = as.length * r.width := by
  induction as with
  | nil => simp
  | cons a as ih => rw [List.flatMap_cons, List.length_append, ih, hr.length_encode,
      List.length_cons, Nat.succ_mul, Nat.add_comm]

/-- The bytes from a record on. -/
theorem drop_flatMap (hr : r.Lawful) {as : List α} {i : Nat} (hi : i < as.length)
    (rest : List UInt8) : (as.flatMap r.encode ++ rest).drop (i * r.width) =
      r.encode as[i] ++ ((as.drop (i + 1)).flatMap r.encode ++ rest) := by
  induction as generalizing i with
  | nil => cases hi
  | cons a as ih =>
    rw [List.flatMap_cons, List.append_assoc]
    cases i with
    | zero => simp
    | succ i =>
      have hwidth : (i + 1) * r.width = (r.encode a).length + i * r.width := by
        rw [hr.length_encode, Nat.succ_mul, Nat.add_comm]
      rw [hwidth, List.drop_length_add_append]
      exact ih (Nat.lt_of_succ_lt_succ hi)

theorem vector (hr : r.Lawful) (n : Nat) : (Record.vector n r).Lawful := by
  refine ⟨fun v => ?_, fun v rest => ?_⟩
  · have hlen := hr.length_flatMap v.toList
    rwa [Vector.length_toList] at hlen
  · apply Vector.ext
    intro i hi
    have hlt : i < v.toList.length := by rwa [Vector.length_toList]
    simp only [Record.vector, Vector.getElem_ofFn, hr.drop_flatMap hlt, hr.decode_encode,
      Vector.getElem_toList]

end Record.Lawful

/-! ### Flags -/

theorem flagWord_lt (bs : List Bool) : flagWord bs < 2 ^ bs.length := by
  induction bs with
  | nil => exact Nat.one_pos
  | cons b bs ih =>
    have hb := Bool.toNat_lt b
    rw [flagWord, List.length_cons, Nat.pow_succ]
    omega

theorem flagWord_lt_of_le {bs : List Bool} {n : Nat} (h : bs.length ≤ n) : flagWord bs < 2 ^ n :=
  Nat.lt_of_lt_of_le (flagWord_lt bs) (Nat.pow_le_pow_right Nat.two_pos h)

theorem toNat_flags8 {bs : List Bool} (h : bs.length ≤ 8) :
    (UInt8.ofNat (flagWord bs)).toNat = flagWord bs :=
  UInt8.toNat_ofNat_of_lt' (flagWord_lt_of_le h)

theorem toNat_flags16 {bs : List Bool} (h : bs.length ≤ 16) :
    (UInt16.ofNat (flagWord bs)).toNat = flagWord bs :=
  UInt16.toNat_ofNat_of_lt' (flagWord_lt_of_le h)

theorem toNat_flags32 {bs : List Bool} (h : bs.length ≤ 32) :
    (UInt32.ofNat (flagWord bs)).toNat = flagWord bs :=
  UInt32.toNat_ofNat_of_lt' (flagWord_lt_of_le h)

/-! ### Callables -/

instance : LawfulRow FunctionRow :=
  ⟨(word16_lawful.seq <| word16_lawful.seq <| word16_lawful.seq <| (filler_lawful 2).seq <|
    word32_lawful.seq <| word32_lawful.seq word32_lawful).imap fun _ => rfl⟩

instance : LawfulRow CallbackRow :=
  ⟨(word16_lawful.seq <| word16_lawful.seq <| word32_lawful.seq word32_lawful).imap fun _ => rfl⟩

instance : LawfulRow SignalRow :=
  ⟨(word16_lawful.seq <| word16_lawful.seq <| word32_lawful.seq word32_lawful).imap fun _ => rfl⟩

instance : LawfulRow VFuncRow :=
  ⟨(word32_lawful.seq <| word16_lawful.seq <| word16_lawful.seq <| word16_lawful.seq <|
    (filler_lawful 2).seq word32_lawful).imap fun _ => rfl⟩

instance : LawfulRow ArgRow :=
  ⟨(word32_lawful.seq <| word16_lawful.seq <| (filler_lawful 2).seq
    TypeRef.record_lawful).imap fun _ => rfl⟩

instance : LawfulRow SignatureRow :=
  ⟨(TypeRef.record_lawful.seq <| word16_lawful.seq <| word16_lawful.seq
    (filler_lawful 4)).imap fun _ => rfl⟩

/-! ### Members -/

instance : LawfulRow PropertyRow :=
  ⟨(word32_lawful.seq <| word32_lawful.seq TypeRef.record_lawful).imap fun _ => rfl⟩

instance : LawfulRow FieldRow :=
  ⟨(word32_lawful.seq <| byte_lawful.seq <| byte_lawful.seq <| word16_lawful.seq
    TypeRef.record_lawful).imap fun _ => rfl⟩

instance : LawfulRow ValueRow :=
  ⟨(word32_lawful.seq <| word32_lawful.seq word32_lawful).imap fun _ => rfl⟩

instance : LawfulRow ConstantRow :=
  ⟨(word16_lawful.seq <| word16_lawful.seq <| word32_lawful.seq <| TypeRef.record_lawful.seq <|
    word32_lawful.seq word32_lawful).imap fun _ => rfl⟩

/-! ### Registered types -/

theorem RegisteredHead.record_lawful : RegisteredHead.record.Lawful :=
  (word16_lawful.seq <| word16_lawful.seq <| word32_lawful.seq <| word32_lawful.seq
    word32_lawful).imap fun _ => rfl

instance : LawfulRow ErrorDomainRow :=
  ⟨(word16_lawful.seq <| word16_lawful.seq <| word32_lawful.seq <| word32_lawful.seq <|
    word16_lawful.seq (filler_lawful 2)).imap fun _ => rfl⟩

instance : LawfulRow EnumRow :=
  ⟨(RegisteredHead.record_lawful.seq <| word16_lawful.seq (filler_lawful 2)).imap fun _ => rfl⟩

instance : LawfulRow StructRow :=
  ⟨(RegisteredHead.record_lawful.seq <| word16_lawful.seq word16_lawful).imap fun _ => rfl⟩

instance : LawfulRow UnionRow :=
  ⟨(RegisteredHead.record_lawful.seq <| word16_lawful.seq <| word16_lawful.seq <|
    word16_lawful.seq <| (filler_lawful 2).seq <| int32_lawful.seq
    TypeRef.record_lawful).imap fun _ => rfl⟩

instance : LawfulRow ObjectRow :=
  ⟨(RegisteredHead.record_lawful.seq <| word16_lawful.seq <| word16_lawful.seq <|
    word16_lawful.seq <| word16_lawful.seq <| word16_lawful.seq <| word16_lawful.seq <|
    word16_lawful.seq <| word16_lawful.seq (filler_lawful 4)).imap fun _ => rfl⟩

instance : LawfulRow InterfaceRow :=
  ⟨(RegisteredHead.record_lawful.seq <| word16_lawful.seq <| word16_lawful.seq <|
    word16_lawful.seq <| word16_lawful.seq <| word16_lawful.seq <| word16_lawful.seq
    (filler_lawful 4)).imap fun _ => rfl⟩

/-! ### Types and the directory -/

instance : LawfulRow TypeRef := ⟨TypeRef.record_lawful⟩

instance : LawfulRow ArrayTypeRow :=
  ⟨(byte_lawful.seq <| byte_lawful.seq <| word16_lawful.seq <| (filler_lawful 4).seq
    TypeRef.record_lawful).imap fun _ => rfl⟩

instance : LawfulRow ParamTypeRow :=
  ⟨(byte_lawful.seq <| byte_lawful.seq <| word16_lawful.seq (filler_lawful 4)).imap fun _ => rfl⟩

instance : LawfulRow ErrorTypeRow :=
  ⟨(byte_lawful.seq <| byte_lawful.seq <| word16_lawful.seq (filler_lawful 4)).imap fun _ => rfl⟩

instance : LawfulRow DirEntry := ⟨DirEntry.record_lawful⟩

theorem Header.record_lawful : Header.record.Lawful :=
  ((byte_lawful.vector 16).seq <| byte_lawful.seq <| byte_lawful.seq <| (filler_lawful 2).seq <|
    word16_lawful.seq <| word16_lawful.seq <| word32_lawful.seq <| word32_lawful.seq <|
    word32_lawful.seq <| word32_lawful.seq <| (word16_lawful.vector 21).seq
    (filler_lawful 14)).imap fun _ => rfl

/-- A header with the row sizes of this version is in order. -/
theorem Header.mismatch?_eq_none {h : Header} (hs : h.rowSizes = Typelib.rowSizes.map Prod.snd) :
    h.mismatch? = none := by
  rw [mismatch?, hs]
  decide +kernel

end Typelib
