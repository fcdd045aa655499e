import Typelib.Proofs.Guard.Reader

/-!
# Rows look at nothing beyond their width

A record made of words, filler and sequencing reads the bytes of its width and no others, so each row
of the format may be read from exactly its bytes.

* `ConfinedRow`: rows of which this holds, and whose width fits the word that the header has for it;
* the instances: all rows of the format.
-/

namespace Typelib

/-- A row that looks at nothing beyond its width, and whose width fits its word in the header. -/
class ConfinedRow (α : Type) [Row α] : Prop where
  confined : (Row.record : Record α).Confined
  width_pos : 0 < Row.width α
  width_lt : Row.width α < UInt16.size

namespace Record

variable {α β : Type} {r : Record α} {s : Record β}

theorem byte_confined : byte.Confined := by
  intro bs bs' h
  cases bs <;> cases bs' <;> simp_all [byte]

theorem word16_confined : word16.Confined := by
  intro bs bs' h
  simp only [word16] at h ⊢
  rw [h]

theorem word32_confined : word32.Confined := by
  intro bs bs' h
  simp only [word32] at h ⊢
  rw [h]

theorem filler_confined (n : Nat) : (filler n).Confined := fun _ _ _ => rfl

/-- Bytes that agree up to a length agree in each part of it. -/
theorem take_drop_congr {bs bs' : List UInt8} {n i m : Nat} (h : bs.take n = bs'.take n)
    (hle : i + m ≤ n) : (bs.drop i).take m = (bs'.drop i).take m := by
  have hcut : ∀ xs : List UInt8, (xs.drop i).take m = ((xs.take n).drop i).take m := by
    intro xs
    rw [List.drop_take, List.take_take, Nat.min_eq_left (by omega)]
  rw [hcut, h, ← hcut]

theorem Confined.seq (hr : r.Confined) (hs : s.Confined) : (r.seq s).Confined := by
  intro bs bs' h
  have hfirst : bs.take r.width = bs'.take r.width :=
    take_drop_congr (i := 0) h (by rw [Nat.zero_add]; exact Nat.le_add_right _ _)
  have hsecond : (bs.drop r.width).take s.width = (bs'.drop r.width).take s.width :=
    take_drop_congr h (Nat.le_refl _)
  exact Prod.ext (hr _ _ hfirst) (hs _ _ hsecond)

theorem Confined.imap (hr : r.Confined) {f : α → β} {g : β → α} : (r.imap f g).Confined :=
  fun bs bs' h => congrArg f (hr bs bs' h)

theorem Confined.vector (hr : r.Confined) (n : Nat) : (Record.vector n r).Confined := by
  intro bs bs' h
  apply Vector.ext
  intro i hi
  simp only [Record.vector, Vector.getElem_ofFn] at h ⊢
  refine hr _ _ (take_drop_congr h ?_)
  have hmul := Nat.mul_le_mul_right r.width (Nat.succ_le_of_lt hi)
  rwa [Nat.succ_mul] at hmul

theorem int32_confined : int32.Confined := word32_confined.imap

theorem flag16_confined : flag16.Confined := word16_confined.imap

end Record

open Record

/-! ### Callables -/

instance : ConfinedRow FunctionRow :=
  ⟨(word16_confined.seq <| word16_confined.seq <| word16_confined.seq <| (filler_confined 2).seq <|
    word32_confined.seq <| word32_confined.seq word32_confined).imap, by decide, by decide⟩

instance : ConfinedRow CallbackRow :=
  ⟨(word16_confined.seq <| word16_confined.seq <| word32_confined.seq word32_confined).imap,
    by decide, by decide⟩

instance : ConfinedRow SignalRow :=
  ⟨(word16_confined.seq <| word16_confined.seq <| word32_confined.seq word32_confined).imap,
    by decide, by decide⟩

instance : ConfinedRow VFuncRow :=
  ⟨(word32_confined.seq <| word16_confined.seq <| word16_confined.seq <| word16_confined.seq <|
    (filler_confined 2).seq word32_confined).imap, by decide, by decide⟩

theorem TypeRef.record_confined : TypeRef.record.Confined :=
  (byte_confined.seq <| byte_confined.seq <| word16_confined.seq word32_confined).imap

instance : ConfinedRow ArgRow :=
  ⟨(word32_confined.seq <| word16_confined.seq <| (filler_confined 2).seq
    TypeRef.record_confined).imap, by decide, by decide⟩

instance : ConfinedRow SignatureRow :=
  ⟨(TypeRef.record_confined.seq <| word16_confined.seq <| word16_confined.seq
    (filler_confined 4)).imap, by decide, by decide⟩

/-! ### Members -/

instance : ConfinedRow PropertyRow :=
  ⟨(word32_confined.seq <| word32_confined.seq TypeRef.record_confined).imap, by decide, by decide⟩

instance : ConfinedRow FieldRow :=
  ⟨(word32_confined.seq <| byte_confined.seq <| byte_confined.seq <| word16_confined.seq
    TypeRef.record_confined).imap, by decide, by decide⟩

instance : ConfinedRow ValueRow :=
  ⟨(word32_confined.seq <| word32_confined.seq word32_confined).imap, by decide, by decide⟩

instance : ConfinedRow ConstantRow :=
  ⟨(word16_confined.seq <| word16_confined.seq <| word32_confined.seq <|
    TypeRef.record_confined.seq <| word32_confined.seq word32_confined).imap,
    by decide, by decide⟩

/-! ### Registered types -/

theorem RegisteredHead.record_confined : RegisteredHead.record.Confined :=
  (word16_confined.seq <| word16_confined.seq <| word32_confined.seq <| word32_confined.seq
    word32_confined).imap

instance : ConfinedRow ErrorDomainRow :=
  ⟨(word16_confined.seq <| word16_confined.seq <| word32_confined.seq <| word32_confined.seq <|
    word16_confined.seq (filler_confined 2)).imap, by decide, by decide⟩

instance : ConfinedRow EnumRow :=
  ⟨(RegisteredHead.record_confined.seq <| word16_confined.seq (filler_confined 2)).imap,
    by decide, by decide⟩

instance : ConfinedRow StructRow :=
  ⟨(RegisteredHead.record_confined.seq <| word16_confined.seq word16_confined).imap,
    by decide, by decide⟩

instance : ConfinedRow UnionRow :=
  ⟨(RegisteredHead.record_confined.seq <| word16_confined.seq <| word16_confined.seq <|
    word16_confined.seq <| (filler_confined 2).seq <| int32_confined.seq
    TypeRef.record_confined).imap, by decide, by decide⟩

instance : ConfinedRow ObjectRow :=
  ⟨(RegisteredHead.record_confined.seq <| word16_confined.seq <| word16_confined.seq <|
    word16_confined.seq <| word16_confined.seq <| word16_confined.seq <| word16_confined.seq <|
    word16_confined.seq <| word16_confined.seq (filler_confined 4)).imap, by decide, by decide⟩

instance : ConfinedRow InterfaceRow :=
  ⟨(RegisteredHead.record_confined.seq <| word16_confined.seq <| word16_confined.seq <|
    word16_confined.seq <| word16_confined.seq <| word16_confined.seq <| word16_confined.seq
    (filler_confined 4)).imap, by decide, by decide⟩

/-! ### Types, the directory and the header -/

instance : ConfinedRow TypeRef := ⟨TypeRef.record_confined, by decide, by decide⟩

instance : ConfinedRow ArrayTypeRow :=
  ⟨(byte_confined.seq <| byte_confined.seq <| word16_confined.seq <| (filler_confined 4).seq
    TypeRef.record_confined).imap, by decide, by decide⟩

instance : ConfinedRow ParamTypeRow :=
  ⟨(byte_confined.seq <| byte_confined.seq <| word16_confined.seq (filler_confined 4)).imap,
    by decide, by decide⟩

instance : ConfinedRow ErrorTypeRow :=
  ⟨(byte_confined.seq <| byte_confined.seq <| word16_confined.seq (filler_confined 4)).imap,
    by decide, by decide⟩

instance : ConfinedRow DirEntry :=
  ⟨(word16_confined.seq <| flag16_confined.seq <| word32_confined.seq word32_confined).imap,
    by decide, by decide⟩

theorem Header.record_confined : Header.record.Confined :=
  ((byte_confined.vector 16).seq <| byte_confined.seq <| byte_confined.seq <|
    (filler_confined 2).seq <| word16_confined.seq <| word16_confined.seq <| word32_confined.seq <|
    word32_confined.seq <| word32_confined.seq <| word32_confined.seq <|
    (word16_confined.vector 21).seq (filler_confined 14)).imap

end Typelib
