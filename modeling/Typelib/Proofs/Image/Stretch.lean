import Typelib.Proofs.Guard.Endless

/-!
# Rows in their places

The rows of an entry follow one another, kind by kind. How many there are of each kind is said by the
first row; what there is none of takes no room, and behind references stands filler up to the next
boundary. So the place of each row can be told from the first one.

* `Stretch.stop`, `Stretch.Fit`: where each kind begins, and whether all of it lies inside of a file;
* `Column.Stand`: rows that are the ones in their places;
* `Image.Accepted.standsAt_rows`, `Image.Accepted.standsAt_refs`: rows that are read together stand
  in their places.
-/

namespace Typelib

/-! ### Places -/

/-- Rows of one kind, or references, that follow the first row of an entry. -/
structure Stretch where
  /-- Number of bytes of each. -/
  width : Nat
  count : UInt16
  /-- Filler stands behind them. -/
  filled : Bool

namespace Stretch

def rows (α : Type) [Row α] (count : UInt16) : Stretch := ⟨Row.width α, count, false⟩

def refs (count : UInt16) : Stretch := ⟨2, count, true⟩

def length (s : Stretch) : Nat := s.count.toNat * s.width

/-- The place of what comes next. -/
def stop (s : Stretch) (pos : Nat) : Nat :=
  if s.count = 0 then pos else if s.filled then alignUp (pos + s.length) else pos + s.length

/-- From a position on, all that is not empty lies inside of a file. The filler need not. -/
def Fit (size : Nat) : Nat → List Stretch → Prop
  | _, [] => True
  | pos, s :: rest => (s.count ≠ 0 → pos + s.length ≤ size) ∧ Fit size (s.stop pos) rest

theorem stop_rows {α : Type} [Row α] {count : UInt16} (h : count ≠ 0) (pos : Nat) :
    (rows α count).stop pos = pos + Row.width α * count.toNat := by
  rw [Nat.mul_comm]
  exact if_neg h

theorem stop_refs {count : UInt16} (h : count ≠ 0) (pos : Nat) :
    (refs count).stop pos = alignUp (pos + count.toNat * 2) := if_neg h

theorem length_rows_pos {α : Type} [Row α] [ConfinedRow α] {count : UInt16} (h : count ≠ 0) :
    0 < (rows α count).length :=
  Nat.mul_pos (Nat.pos_of_ne_zero fun hz => h (UInt16.toNat_inj.1 hz)) ConfinedRow.width_pos

theorem length_refs_pos {count : UInt16} (h : count ≠ 0) : 0 < (refs count).length :=
  Nat.mul_pos (Nat.pos_of_ne_zero fun hz => h (UInt16.toNat_inj.1 hz)) Nat.two_pos

theorem le_stop (s : Stretch) (pos : Nat) : pos ≤ s.stop pos := by
  unfold stop
  split_ifs
  · exact Nat.le_refl pos
  · exact Nat.le_trans (Nat.le_add_right _ _) (le_alignUp _)
  · exact Nat.le_add_right _ _

end Stretch

/-- What a view holds of a stretch. -/
inductive Column
  | rows (α : Type) [Row α] (count : UInt16) (as : List α)
  | refs (count : UInt16) (rs : List DirRef)

namespace Column

def stretch : Column → Stretch
  | rows α count _ => .rows α count
  | refs count _ => .refs count

variable (img : Image)

/-- As many as there should be, and each is the row, or the word, in its own place. -/
def StandsAt (pos : Nat) : Column → Prop
  | rows α count as => as.length = count.toNat ∧ ∀ (j : Nat) (a : α), as[j]? = some a →
      ∃ offset : UInt32, offset.toNat = pos + j * Row.width α ∧ img.row α offset = .ok a
  | refs count rs => rs.length = count.toNat ∧ ∀ (j : Nat) (r : DirRef), rs[j]? = some r →
      ∃ low high, img.bytes[pos + j * 2]? = some low ∧ img.bytes[pos + j * 2 + 1]? = some high ∧
        r.raw.toNat = low.toNat + 256 * high.toNat

/-- From a position on, one column stands after another. -/
def Stand : Nat → List Column → Prop
  | _, [] => True
  | pos, c :: rest => c.StandsAt img pos ∧ Stand (c.stretch.stop pos) rest

end Column

/-! ### Slices -/

namespace Image

variable {img : Image} {α : Type}

theorem exists_slice_iff {offset : UInt32} {size : Nat} :
    (∃ bytes, img.slice offset size = .ok bytes) ↔
      offset ≠ 0 ∧ offset.toNat + size ≤ img.bytes.size := by
  rw [← Nat.not_lt, ← not_or, slice]
  split_ifs with h
  · simp [h]
  · simp [h]

/-- What is made of bytes is there if they are. -/
theorem exists_bind_pure_iff {ε β : Type} {x : Except ε Bytes} {f : Bytes → β} :
    (∃ b, (x >>= fun bytes => pure (f bytes)) = .ok b) ↔ ∃ bytes, x = .ok bytes := by
  cases x with
  | ok bytes => exact ⟨fun _ => ⟨bytes, rfl⟩, fun _ => ⟨f bytes, rfl⟩⟩
  | error e => exact ⟨fun ⟨_, h⟩ => (nomatch h), fun ⟨_, h⟩ => (nomatch h)⟩

theorem exists_row_iff [Row α] {offset : UInt32} : (∃ a, img.row α offset = .ok a) ↔
    offset ≠ 0 ∧ offset.toNat + Row.width α ≤ img.bytes.size :=
  exists_bind_pure_iff.trans exists_slice_iff

theorem exists_rows_iff [Row α] {offset : UInt32} {count : UInt16} :
    (∃ as, img.rows α offset count = .ok as) ↔
      offset ≠ 0 ∧ offset.toNat + (Stretch.rows α count).length ≤ img.bytes.size := by
  rw [Stretch.length, Nat.mul_comm]
  exact exists_bind_pure_iff.trans exists_slice_iff

theorem exists_refs_iff {offset : UInt32} {count : UInt16} :
    (∃ rs, img.refs offset count = .ok rs) ↔
      offset ≠ 0 ∧ offset.toNat + (Stretch.refs count).length ≤ img.bytes.size :=
  exists_bind_pure_iff.trans exists_slice_iff

/-- The parts of a slice are those of the file. -/
theorem getElem?_records {β : Type} {r : Record β} {offset : UInt32} {count j : Nat} {bytes : Bytes}
    {b : β} (h : img.slice offset (count * r.width) = .ok bytes)
    (hb : (records r count bytes)[j]? = some b) : j < count ∧
      offset.toNat + (j + 1) * r.width ≤ img.bytes.size ∧
      b = r.decode (img.bytes.extract (offset.toNat + j * r.width)
        (offset.toNat + j * r.width + r.width)).toList := by
  obtain ⟨hj, rfl⟩ := List.getElem?_eq_some_iff.1 hb
  have hj : j < count := by simpa [records] using hj
  have hend : (j + 1) * r.width ≤ count * r.width := Nat.mul_le_mul_right _ hj
  have hsize := (Guarded.size_of_slice h).2
  refine ⟨hj, by omega, ?_⟩
  simp only [records, List.getElem_map, List.getElem_range]
  rw [extract_slice _ _ h (by rwa [Nat.succ_mul] at hend)]

theorem extract_two {bytes : Bytes} {pos : Nat} (h : pos + 2 ≤ bytes.size) :
    ∃ low high, bytes[pos]? = some low ∧ bytes[pos + 1]? = some high ∧
      (bytes.extract pos (pos + 2)).toList = [low, high] := by
  have hlow : pos < bytes.toList.length := Nat.lt_of_lt_of_le (by omega) h
  have hhigh : pos + 1 < bytes.toList.length := Nat.lt_of_lt_of_le (by omega) h
  refine ⟨bytes.toList[pos], bytes.toList[pos + 1], ?_, ?_, ?_⟩
  · rw [← Array.getElem?_toList, List.getElem?_eq_getElem hlow]
  · rw [← Array.getElem?_toList, List.getElem?_eq_getElem hhigh]
  · rw [Array.toList_extract, List.extract_eq_take_drop, Nat.add_sub_cancel_left,
      List.drop_eq_getElem_cons hlow, List.drop_eq_getElem_cons hhigh]
    rfl

theorem toNat_decode_word16 (low high : UInt8) :
    (Record.word16.decode [low, high]).toNat = low.toNat + 256 * high.toNat := by
  have hlow := low.toNat_lt
  have hhigh := high.toNat_lt
  simp only [Record.word16, List.take_succ_cons, List.take_zero, leNat, UInt16.toNat_ofNat']
  omega

namespace Accepted

variable (ha : img.Accepted)

include ha

/-- Each row that is read with others is the one in its own place. -/
theorem standsAt_rows [Row α] {offset : UInt32} {count : UInt16} {as : List α}
    (h : img.rows α offset count = .ok as) (h0 : offset ≠ 0) :
    (Column.rows α count as).StandsAt img offset.toNat := by
  have hlt := ha.size_lt
  have hpos : offset.toNat ≠ 0 := fun hz => h0 (UInt32.toNat_inj.1 hz)
  unfold rows at h
  cases hslice : img.slice offset (Row.width α * count.toNat) with
  | error e =>
    rw [hslice] at h
    cases h
  | ok bytes =>
    rw [hslice] at h
    cases h
    rw [Nat.mul_comm] at hslice
    refine ⟨by simp [records], fun j a hj => ?_⟩
    obtain ⟨-, hend, rfl⟩ := getElem?_records hslice hj
    rw [Nat.succ_mul, ← Nat.add_assoc] at hend
    -- the place of the row is an offset, since the row ends inside
    have hoffset : (UInt32.ofNat (offset.toNat + j * Row.width α)).toNat =
        offset.toNat + j * Row.width α :=
      UInt32.toNat_ofNat_of_lt' (Nat.lt_of_le_of_lt (Nat.le_trans (Nat.le_add_right _ _) hend) hlt)
    refine ⟨_, hoffset, ?_⟩
    have hinside : ¬ (UInt32.ofNat (offset.toNat + j * Row.width α) = 0 ∨ img.bytes.size <
        (UInt32.ofNat (offset.toNat + j * Row.width α)).toNat + Row.width α) := by
      rw [hoffset, not_or, Nat.not_lt]
      refine ⟨fun hz => hpos ?_, hend⟩
      rw [hz] at hoffset
      exact Nat.eq_zero_of_add_eq_zero_right hoffset.symm
    rw [row, slice, if_neg hinside, hoffset]
    rfl

omit ha in
/-- Each reference that is read with others is the word in its own place. -/
theorem standsAt_refs {offset : UInt32} {count : UInt16} {rs : List DirRef}
    (h : img.refs offset count = .ok rs) :
    (Column.refs count rs).StandsAt img offset.toNat := by
  unfold refs at h
  cases hslice : img.slice offset (count.toNat * 2) with
  | error e =>
    rw [hslice] at h
    cases h
  | ok bytes =>
    rw [hslice] at h
    cases h
    refine ⟨by simp [records], fun j r hj => ?_⟩
    rw [List.getElem?_map] at hj
    obtain ⟨word, hword, rfl⟩ := Option.map_eq_some_iff.1 hj
    obtain ⟨-, hend, rfl⟩ := getElem?_records hslice hword
    have hinside : offset.toNat + j * 2 + 2 ≤ img.bytes.size := by
      have hwidth : Record.word16.width = 2 := rfl
      rw [hwidth] at hend
      omega
    obtain ⟨low, high, hlow, hhigh, hpart⟩ := extract_two hinside
    exact ⟨low, high, hlow, hhigh,
      (congrArg (fun bs => (Record.word16.decode bs).toNat) hpart).trans
        (toNat_decode_word16 low high)⟩

end Accepted

end Image

end Typelib
