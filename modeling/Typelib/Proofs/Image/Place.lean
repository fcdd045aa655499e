import Typelib.Image.View
import Typelib.Proofs.Body.Fill
import Typelib.Proofs.Image.Rows
import Typelib.Proofs.Text.Cut

/-!
# Reading what stands at a position

If certain bytes stand at a position of a file, the readers find there what the bytes encode.

* `Image.At`: bytes stand at a position;
* `Image.At.row`, `Image.At.rows`, `Image.At.refs`, `Image.At.string`: what the readers find;
* `Walk.rows_ok`, `Walk.refs_ok`: a walk finds it and goes to the end of its bytes.
-/

namespace Typelib

namespace Image

/-- Bytes stand at a position of the file. -/
def At (img : Image) (pos : Nat) (bs : List UInt8) : Prop :=
  ∃ before after, img.bytes.toList = before ++ (bs ++ after) ∧ before.length = pos

variable {img : Image} {α : Type} [Row α] [LawfulRow α] {pos : Nat} {bs bs' : List UInt8}
  {offset : UInt32}

namespace At

theorem left (h : img.At pos (bs ++ bs')) : img.At pos bs := by
  obtain ⟨before, after, hb, hpos⟩ := h
  exact ⟨before, bs' ++ after, by rw [hb, List.append_assoc], hpos⟩

theorem right (h : img.At pos (bs ++ bs')) : img.At (pos + bs.length) bs' := by
  obtain ⟨before, after, hb, rfl⟩ := h
  exact ⟨before ++ bs, after, by rw [hb]; simp only [List.append_assoc], List.length_append⟩

theorem le (h : img.At pos bs) : pos + bs.length ≤ img.bytes.size := by
  obtain ⟨before, after, hb, rfl⟩ := h
  rw [← Array.length_toList, hb]
  simp only [List.length_append]
  omega

theorem extract (h : img.At pos bs) : img.bytes.extract pos (pos + bs.length) = bs.toArray := by
  obtain ⟨before, after, hb, rfl⟩ := h
  apply Array.toList_inj.1
  rw [Array.toList_extract, hb, List.extract_eq_take_drop, List.drop_left, Nat.add_sub_cancel_left,
    List.take_left]

/-- Of things of one width that stand one after another, each stands in its place. -/
theorem getElem?_flatMap {α : Type} {f : α → List UInt8} {width : Nat} {as : List α}
    (hf : ∀ a, (f a).length = width) : ∀ {pos : Nat}, img.At pos (as.flatMap f) →
    ∀ {k : Nat} {a : α}, as[k]? = some a → img.At (pos + k * width) (f a) := by
  induction as with
  | nil => simp
  | cons b as ih =>
    intro pos h k a hk
    rw [List.flatMap_cons] at h
    cases k with
    | zero =>
      cases Option.some.inj hk
      rw [Nat.zero_mul]
      exact h.left
    | succ k =>
      have hrest := ih h.right (k := k) hk
      rwa [hf b, Nat.add_assoc, Nat.add_comm width, ← Nat.succ_mul] at hrest

theorem slice (h : img.At offset.toNat bs) (h0 : offset ≠ 0) :
    img.slice offset bs.length = .ok bs.toArray := by
  have hle := h.le
  have hin : ¬ (offset = 0 ∨ img.bytes.size < offset.toNat + bs.length) := by
    rintro (h | h)
    · exact h0 h
    · omega
  rw [Image.slice, if_neg hin, h.extract]

theorem row {a : α} (h : img.At offset.toNat (Row.record.encode a)) (h0 : offset ≠ 0) :
    img.row α offset = .ok a := by
  have law := LawfulRow.lawful (α := α)
  have hslice := h.slice h0
  have hdecode := law.decode_encode a []
  rw [law.length_encode] at hslice
  rw [List.append_nil] at hdecode
  rw [Image.row, Row.width, hslice]
  exact congrArg Except.ok hdecode

end At

/-- A row is read, and what follows it stands after it. -/
theorem At.head {a : α} {rest : List UInt8}
    (h : img.At offset.toNat (Row.record.encode a ++ rest)) (h0 : offset ≠ 0) :
    img.row α offset = .ok a ∧ img.At (offset.toNat + Row.width α) rest := by
  have hrest := h.right
  rw [(LawfulRow.lawful (α := α)).length_encode] at hrest
  exact ⟨h.left.row h0, hrest⟩

/-- Records that stand one after another are read in their order. -/
theorem records_flatMap {β : Type} {r : Record β} (law : r.Lawful) (bs : List β) :
    records r bs.length (bs.flatMap r.encode).toArray = bs := by
  apply List.ext_getElem
  · simp [records]
  · intro i _ hi
    have hdrop := law.drop_flatMap hi []
    rw [List.append_nil] at hdrop
    simp only [records, List.getElem_map, List.getElem_range, List.extract_toArray,
      List.extract_eq_take_drop, hdrop, Nat.add_sub_cancel_left]
    rw [← law.length_encode bs[i], List.take_left]
    have hdecode := law.decode_encode bs[i] []
    rwa [List.append_nil] at hdecode

namespace At

theorem rows {as : List α} {count : UInt16}
    (h : img.At offset.toNat (as.flatMap Row.record.encode)) (h0 : offset ≠ 0)
    (hc : as.length = count.toNat) : img.rows α offset count = .ok as := by
  have law := LawfulRow.lawful (α := α)
  have hslice := h.slice h0
  rw [law.length_flatMap, Nat.mul_comm, hc] at hslice
  rw [Image.rows, Row.width, hslice, ← hc]
  exact congrArg Except.ok (records_flatMap law as)

theorem refs {refs : List DirRef} {count : UInt16}
    (h : img.At offset.toNat (refs.flatMap fun r => leBytes 2 r.raw.toNat)) (h0 : offset ≠ 0)
    (hc : refs.length = count.toNat) : img.refs offset count = .ok refs := by
  have hbytes : (refs.flatMap fun r => leBytes 2 r.raw.toNat) =
      (refs.map DirRef.raw).flatMap Record.word16.encode := by
    rw [List.flatMap_map]
    rfl
  rw [hbytes] at h
  have hslice : img.slice offset (count.toNat * 2) =
      .ok ((refs.map DirRef.raw).flatMap Record.word16.encode).toArray := by
    rw [← h.slice h0, Record.word16_lawful.length_flatMap, List.length_map, hc]
    rfl
  have hread := records_flatMap Record.word16_lawful (refs.map DirRef.raw)
  rw [List.length_map, hc] at hread
  rw [Image.refs, hslice]
  change Except.ok ((records Record.word16 count.toNat _).map DirRef.mk) = _
  rw [hread, List.map_map]
  exact congrArg Except.ok (List.map_id' refs)

end At

/-! ### Strings -/

theorem zeroFrom?_append {bytes : Bytes} {rest : List UInt8} :
    ∀ (cs before : List UInt8) (size : Nat), bytes.toList = before ++ (cs ++ 0 :: rest) →
    (∀ b ∈ cs, b ≠ 0) → cs.length < size →
    zeroFrom? bytes size before.length = some (before.length + cs.length) := by
  intro cs
  induction cs with
  | nil =>
    intro before size hb _ hsize
    obtain ⟨size, rfl⟩ := Nat.exists_eq_succ_of_ne_zero (Nat.ne_of_gt hsize)
    have hget : bytes[before.length]? = some 0 := by
      rw [← Array.getElem?_toList, hb]
      simp
    rw [zeroFrom?, if_pos hget]
    rfl
  | cons c cs ih =>
    intro before size hb hall hsize
    obtain ⟨size, rfl⟩ := Nat.exists_eq_succ_of_ne_zero (Nat.ne_of_gt (Nat.zero_lt_of_lt hsize))
    have hget : bytes[before.length]? = some c := by
      rw [← Array.getElem?_toList, hb]
      simp
    -- the search goes on behind a byte that is not zero
    have hc : ¬ bytes[before.length]? = some 0 := by
      rw [hget, Option.some.injEq]
      exact hall c List.mem_cons_self
    rw [List.forall_mem_cons] at hall
    have hrest := ih (before ++ [c]) size (by rw [hb]; simp) hall.2 (Nat.lt_of_succ_lt_succ hsize)
    rw [List.length_append, List.length_singleton] at hrest
    rw [zeroFrom?, if_neg hc, hrest, List.length_cons, Nat.add_assoc, Nat.add_comm 1]

/-- Of a stored text, the part in front of its first NUL is read. -/
theorem At.string {s : String} (h : img.At offset.toNat (nulTerminated s)) (h0 : offset ≠ 0) :
    img.string offset = .ok (Text.cut s) := by
  obtain ⟨rest, hs, hall⟩ := Text.nulTerminated_eq s
  rw [hs] at h
  have hle := h.le
  rw [List.length_append, List.length_cons] at hle
  have hin : ¬ (offset = 0 ∨ img.bytes.size ≤ offset.toNat) := by
    rintro (h | h)
    · exact h0 h
    · omega
  have hextract := h.left.extract
  obtain ⟨before, after, hb, hpos⟩ := h
  have hbytes : img.bytes.toList =
      before ++ (Text.toBytes (Text.cut s) ++ 0 :: (rest ++ after)) := by
    rw [hb]
    simp
  have hzero := zeroFrom?_append _ before (img.bytes.size - offset.toNat) hbytes hall (by omega)
  rw [hpos] at hzero
  simp only [Image.string, if_neg hin, hzero, hextract, Text.ofBytes?_toBytes]

end Image

/-! ### Walks -/

namespace Walk

variable {img : Image} {α β : Type} {pos pos' : Nat}

theorem bind_ok {x : Walk α} {f : α → Walk β} {a : α} (h : x pos = .ok (a, pos')) :
    (x >>= f) pos = f a pos' := by
  change (x pos >>= fun p => f p.1 p.2) = _
  rw [h]
  rfl

theorem view_ok [Row α] {offset : UInt32} {members : α → Walk β} {head : α} {b : β}
    (hrow : img.row α offset = .ok head)
    (hmembers : members head (offset.toNat + Row.width α) = .ok (b, pos)) :
    view img offset members = .ok b := by
  rw [view, hrow]
  change (members head (offset.toNat + Row.width α) >>= fun p => .ok p.1) = _
  rw [hmembers]
  rfl

theorem toNat_offset (h : pos ≤ maxWord32) : (offset pos).toNat = pos := by
  have hmax : maxWord32 = 4294967295 := rfl
  have hsize : UInt32.size = 4294967296 := rfl
  rw [offset, Nat.min_eq_left (by omega), UInt32.toNat_ofNat_of_lt' (by omega)]

theorem offset_ne_zero (h : pos ≤ maxWord32) (h0 : 0 < pos) : offset pos ≠ 0 := by
  intro he
  have hpos := toNat_offset h
  rw [he] at hpos
  exact Nat.ne_of_lt h0 hpos

/-- Rows are read, and the walk goes to their end. -/
theorem rows_ok [Row α] [LawfulRow α] {as : List α} {count : UInt16}
    (h : img.At pos (as.flatMap Row.record.encode)) (h0 : 0 < pos)
    (hmax : img.bytes.size ≤ maxWord32) (hc : as.length = count.toNat) :
    rows img α count pos = .ok (as, pos + (as.flatMap Row.record.encode).length) := by
  have law := LawfulRow.lawful (α := α)
  have hle : pos ≤ maxWord32 := Nat.le_trans (Nat.le_trans (Nat.le_add_right _ _) h.le) hmax
  rw [rows]
  split
  next hz =>
    rw [hz] at hc
    rw [List.length_eq_zero_iff.1 hc]
    rfl
  next =>
    rw [← toNat_offset hle] at h
    rw [h.rows (offset_ne_zero hle h0) hc, law.length_flatMap, hc, Nat.mul_comm]
    rfl

/-- References are read with the filler after them. -/
theorem refs_ok {refs : List DirRef} {count : UInt16} {bs : List UInt8}
    (hbs : bs = refs.flatMap fun r => leBytes 2 r.raw.toNat)
    (h : img.At pos (bs ++ padding (pos + bs.length))) (h0 : 0 < pos)
    (halign : pos % bodyAlign = 0) (hmax : img.bytes.size ≤ maxWord32)
    (hc : refs.length = count.toNat) :
    Walk.refs img count pos = .ok (refs, pos + (bs ++ padding (pos + bs.length)).length) := by
  have hle : pos ≤ maxWord32 := Nat.le_trans (Nat.le_trans (Nat.le_add_right _ _) h.le) hmax
  have hlen : bs.length = count.toNat * 2 := by
    rw [hbs, List.length_flatMap]
    simp [hc]
  have hgoal : pos + (bs ++ padding (pos + bs.length)).length = alignUp (pos + bs.length) := by
    have := le_alignUp (pos + bs.length)
    rw [List.length_append, padding, List.length_replicate]
    omega
  rw [hgoal, Walk.refs]
  split
  next hz =>
    rw [hz] at hc hlen
    -- without references the walk stays where it is, which is a boundary
    have hsame : alignUp (pos + bs.length) = pos := by
      simp only [bodyAlign] at halign
      simp only [alignUp, bodyAlign, hlen, UInt16.toNat_zero]
      omega
    rw [List.length_eq_zero_iff.1 hc, hsame]
  next =>
    have hat := h.left
    rw [← toNat_offset hle, hbs] at hat
    rw [hat.refs (offset_ne_zero hle h0) hc, hlen]
    rfl

end Walk

end Typelib
