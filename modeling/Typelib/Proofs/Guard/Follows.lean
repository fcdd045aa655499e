import Mathlib.Tactic.SplitIfs
import Typelib.Proofs.Guard.Rows

/-!
# Guarded readers do not crash

An accepted file is no longer than an offset can tell, and its directory lies inside. Then no guard
of a reader is ever met, whatever the arguments are and whatever else the file holds: a guarded
reader answers and refuses exactly as the reader does.

* `Follows`: a guarded reader does what a reader does;
* `Image.Accepted`: what is known of a file once it is loaded;
* `follows_load`, `Image.Accepted.follows_string`, `Image.Accepted.follows_rows` and so on.
-/

namespace Typelib

/-- A guarded reader does not crash, and does what a reader does; no type is refused as endless. -/
structure Follows {α : Type} (x' : Guarded α) (x : Except ReadError α) : Prop where
  eq : x' = ExceptT.mk (.ok x)
  ends : ∀ offset, x ≠ .error (.endlessType offset)

namespace Follows

variable {α β : Type}

theorem pure (a : α) : Follows (Pure.pure a) (.ok a) := ⟨rfl, fun _ h => by cases h⟩

theorem throw {e : ReadError} (h : ∀ offset, e ≠ .endlessType offset) :
    Follows (MonadExcept.throw e : Guarded α) (.error e) :=
  ⟨rfl, fun offset he => h offset (Except.error.inj he)⟩

theorem bind {x' : Guarded α} {x : Except ReadError α} {f' : α → Guarded β}
    {f : α → Except ReadError β} (hx : Follows x' x) (hf : ∀ a, x = .ok a → Follows (f' a) (f a)) :
    Follows (x' >>= f') (x >>= f) := by
  obtain ⟨rfl, hends⟩ := hx
  cases x with
  | ok a => exact hf a rfl
  | error e => exact throw fun offset he => hends offset (he ▸ rfl)

theorem map {x' : Guarded α} {x : Except ReadError α} (hx : Follows x' x) (f : α → β) :
    Follows (f <$> x') (x.map f) := by
  obtain ⟨rfl, hends⟩ := hx
  cases x with
  | ok a => exact .pure (f a)
  | error e => exact throw fun offset he => hends offset (he ▸ rfl)

theorem ite {p : Prop} [Decidable p] {x' y' : Guarded α} {x y : Except ReadError α}
    (hx : p → Follows x' x) (hy : ¬p → Follows y' y) :
    Follows (if p then x' else y') (if p then x else y) := by
  split
  next h => exact hx h
  next h => exact hy h

theorem mapM {f' : α → Guarded β} {f : α → Except ReadError β} {as : List α}
    (h : ∀ a ∈ as, Follows (f' a) (f a)) : Follows (as.mapM f') (as.mapM f) := by
  induction as with
  | nil => exact .pure []
  | cons a as ih =>
    rw [List.forall_mem_cons] at h
    simp only [List.mapM_cons]
    exact h.1.bind fun b _ => (ih h.2).bind fun bs _ => .pure (b :: bs)

/-- A guarded step whose answer is known may be left out. -/
theorem ok_bind {x' : Guarded α} {a : α} {f' : α → Guarded β} {y : Except ReadError β}
    (hx : Follows x' (.ok a)) (hf : Follows (f' a) y) : Follows (x' >>= f') y := by
  obtain ⟨rfl, -⟩ := hx
  exact hf

/-- A guarded step for each of some things, if the answers are known. -/
theorem mapM_ok {f' : α → Guarded β} {f : α → β} (h : ∀ a, Follows (f' a) (.ok (f a)))
    (as : List α) : Follows (as.mapM f') (.ok (as.map f)) := by
  induction as with
  | nil => exact .pure []
  | cons a as ih =>
    rw [List.mapM_cons]
    exact .ok_bind (h a) (.ok_bind ih (.pure _))

/-- A guarded search, if it is known what each thing is. -/
theorem findM?_ok {p' : α → Guarded Bool} {p : α → Bool} (h : ∀ a, Follows (p' a) (.ok (p a)))
    (as : List α) : Follows (as.findM? p') (.ok (as.find? p)) := by
  induction as with
  | nil => exact .pure none
  | cons a as ih =>
    rw [List.findM?, List.find?]
    refine .ok_bind (h a) ?_
    cases p a with
    | true => exact .pure (some a)
    | false => exact ih

end Follows

namespace Guarded

variable {α : Type}

theorem follows_word {bits n : Nat} (h : n < 2 ^ bits) : Follows (word bits n) (.ok n) := by
  rw [word, if_pos h]
  exact .pure n

/-- A position that is not far beyond an offset fits its word. -/
theorem follows_position {n : Nat} (h : n < 2 ^ 40) : Follows (word wordBits n) (.ok n) :=
  follows_word (Nat.lt_trans h (by decide))

theorem follows_cut {bytes : Bytes} {start stop : Nat} (h : start ≤ stop)
    (h' : stop ≤ bytes.size) : Follows (cut bytes start stop) (.ok (bytes.extract start stop)) := by
  rw [cut, if_pos ⟨h, h'⟩]
  exact .pure _

theorem follows_decode {r : Record α} {bytes : Bytes} (hr : r.Confined)
    (h : r.width ≤ bytes.size) : Follows (decode r bytes) (.ok (r.decode bytes.toList)) := by
  rw [decode, if_neg (Nat.not_lt_of_le h), if_pos hr]
  exact .pure _

theorem follows_load (bytes : Bytes) : Follows (load bytes) (Image.load bytes) := by
  unfold load Image.load
  refine .ite (fun _ => .throw fun _ => by simp) fun hsize => ?_
  rw [Nat.not_lt] at hsize
  have hfront : (bytes.extract 0 Header.width).size = Header.width := by
    rw [Array.size_extract, Nat.min_eq_left hsize, Nat.sub_zero]
  refine .ok_bind (follows_cut (Nat.zero_le _) hsize)
    (.ok_bind (follows_decode Header.record_confined (Nat.le_of_eq hfront.symm)) ?_)
  generalize Header.record.decode (bytes.extract 0 Header.width).toList = h
  have hdirectory := h.directory.toNat_lt
  have hlength : h.entryCount.toNat * Row.width DirEntry < 2 ^ 20 := by
    have hcount := h.entryCount.toNat_lt
    have hwidth : Row.width DirEntry = 12 := rfl
    rw [hwidth]
    omega
  -- both ask the same questions in the same order, and only the last one calls for arithmetic
  simp only [Image.refusal?]
  cases h.mismatch? with
  | some m => split_ifs <;> exact .throw fun _ => by simp
  | none =>
    split_ifs with hmagic hversion hsame hlocal hout
    · exact .throw fun _ => by simp
    · exact .throw fun _ => by simp
    · exact .throw fun _ => by simp
    · exact .throw fun _ => by simp
    · refine .ok_bind (follows_position (by omega)) (.ok_bind (follows_position (by omega)) ?_)
      rw [if_pos hout]
      exact .throw fun _ => by simp
    · refine .ok_bind (follows_position (by omega)) (.ok_bind (follows_position (by omega)) ?_)
      rw [if_neg hout]
      exact .pure _

variable (img : Image)

/-! ### Bytes and rows -/

theorem follows_slice (offset : UInt32) {size : Nat} (hsize : size < 2 ^ 33) :
    Follows (slice img offset size) (img.slice offset size) := by
  have hoffset := offset.toNat_lt
  have refused : Follows (throw (.outOfBounds offset size) : Guarded Bytes)
      (.error (.outOfBounds offset size)) := .throw fun _ => by simp
  unfold slice Image.slice
  by_cases hzero : offset = 0
  · rw [if_pos hzero, if_pos (.inl hzero)]
    exact refused
  · rw [if_neg hzero]
    refine .ok_bind (follows_position (by omega)) ?_
    by_cases hout : img.bytes.size < offset.toNat + size
    · rw [if_pos hout, if_pos (.inr hout)]
      exact refused
    · rw [if_neg hout, if_neg (by simp [hzero, hout])]
      exact follows_cut (Nat.le_add_right _ _) (Nat.le_of_not_lt hout)

variable {img} in
theorem size_of_slice {offset : UInt32} {size : Nat} {bytes : Bytes}
    (h : img.slice offset size = .ok bytes) :
    bytes.size = size ∧ offset.toNat + size ≤ img.bytes.size := by
  unfold Image.slice at h
  split_ifs at h with hout
  cases h
  rw [not_or] at hout
  rw [Array.size_extract]
  omega

theorem follows_row [Row α] [ConfinedRow α] (offset : UInt32) :
    Follows (row img α offset) (img.row α offset) := by
  have hwidth := ConfinedRow.width_lt (α := α)
  refine (follows_slice img offset (by simp only [UInt16.size] at hwidth; omega)).bind ?_
  exact fun bytes hbytes =>
    follows_decode ConfinedRow.confined (Nat.le_of_eq (size_of_slice hbytes).1.symm)

theorem follows_records {r : Record α} (hr : r.Confined) {count : Nat} {bytes : Bytes}
    (hsize : bytes.size = r.width * count) :
    Follows (records r count bytes) (.ok (Image.records r count bytes)) := by
  have hmap : ∀ is : List Nat, (∀ i ∈ is, i < count) →
      Follows (is.mapM fun i => do
          decode r (← cut bytes (i * r.width) (i * r.width + r.width)))
        (.ok (is.map fun i =>
          r.decode (bytes.extract (i * r.width) (i * r.width + r.width)).toList)) := by
    intro is
    induction is with
    | nil => exact fun _ => .pure []
    | cons i is ih =>
      intro hlt
      rw [List.forall_mem_cons] at hlt
      -- the row lies inside, since the rows before it and itself do
      have hmul := Nat.mul_le_mul_left r.width (Nat.succ_le_of_lt hlt.1)
      rw [Nat.mul_succ, Nat.mul_comm r.width i, ← hsize] at hmul
      have hfront : (bytes.extract (i * r.width) (i * r.width + r.width)).size = r.width := by
        rw [Array.size_extract]
        omega
      have hfirst := Follows.ok_bind (follows_cut (Nat.le_add_right _ _) hmul)
        (follows_decode hr (Nat.le_of_eq hfront.symm))
      rw [List.mapM_cons]
      exact .ok_bind hfirst (.ok_bind (ih hlt.2) (.pure _))
  exact hmap _ fun i hi => List.mem_range.1 hi

theorem follows_rows [Row α] [ConfinedRow α] (offset : UInt32) (count : UInt16) :
    Follows (rows img α offset count) (img.rows α offset count) := by
  have hwidth := ConfinedRow.width_lt (α := α)
  have hcount := count.toNat_lt
  have hmul : Row.width α * count.toNat < 2 ^ 33 :=
    Nat.lt_of_le_of_lt (Nat.mul_le_mul (Nat.le_of_lt hwidth) (Nat.le_of_lt hcount)) (by decide)
  refine .ok_bind (follows_position (by omega)) ((follows_slice img offset hmul).bind ?_)
  intro bytes hbytes
  rw [if_neg (Nat.ne_of_gt ConfinedRow.width_pos)]
  exact follows_records ConfinedRow.confined (size_of_slice hbytes).1

theorem follows_refs (offset : UInt32) (count : UInt16) :
    Follows (refs img offset count) (img.refs offset count) := by
  have hcount := count.toNat_lt
  refine .ok_bind (follows_position (by omega))
    ((follows_slice img offset (by omega)).bind fun bytes hbytes => ?_)
  have hsize : bytes.size = Record.word16.width * count.toNat :=
    (size_of_slice hbytes).1.trans (Nat.mul_comm _ _)
  exact .ok_bind (follows_records Record.word16_confined hsize) (.pure _)

theorem follows_constantValue (c : ConstantRow) :
    Follows (constantValue img c) (img.constantValue c) := by
  have hsize := c.size.toNat_lt
  exact .ite (fun _ => .pure _) fun _ => follows_slice img _ (by omega)

/-! ### Strings -/

/-- The first zero byte from a position on, counted from there. -/
theorem zeroFrom?_eq (bytes : Bytes) : ∀ (size pos : Nat), pos + size = bytes.size →
    Image.zeroFrom? bytes size pos =
      ((bytes.toList.drop pos).findIdx? (· == 0)).map (pos + ·) := by
  intro size
  induction size with
  | zero =>
    intro pos hpos
    rw [List.drop_eq_nil_of_le (by rw [Array.length_toList]; omega)]
    rfl
  | succ size ih =>
    intro pos hpos
    have hlt : pos < bytes.toList.length := by rw [Array.length_toList]; omega
    have hbyte : bytes[pos]? = some bytes.toList[pos] := by
      rw [← Array.getElem?_toList, List.getElem?_eq_getElem hlt]
    rw [Image.zeroFrom?, hbyte, ih (pos + 1) (by omega), List.drop_eq_getElem_cons hlt,
      List.findIdx?_cons]
    by_cases hzero : bytes.toList[pos] = 0
    · simp [hzero]
    · simp only [Option.some.injEq, hzero, ↓reduceIte, beq_iff_eq, Option.map_map]
      congr 1
      funext n
      simp only [Function.comp_apply]
      omega

theorem follows_string (offset : UInt32) :
    Follows (string img offset) (img.string offset) := by
  have refused : Follows (throw (.invalidString offset) : Guarded String)
      (.error (.invalidString offset)) := .throw fun _ => by simp
  unfold string Image.string
  refine .ite (fun _ => refused) fun hin => ?_
  rw [not_or, Nat.not_le] at hin
  obtain ⟨tail, htail⟩ : ∃ tail, tail = img.bytes.extract offset.toNat img.bytes.size := ⟨_, rfl⟩
  have hlist : tail.toList = img.bytes.toList.drop offset.toNat := by
    rw [htail, Array.toList_extract, List.extract_eq_take_drop]
    exact List.take_of_length_le (by simp)
  refine .ok_bind (follows_cut (Nat.le_of_lt hin.2) (Nat.le_refl _)) ?_
  rw [← htail, hlist, zeroFrom?_eq _ _ _ (Nat.add_sub_cancel' (Nat.le_of_lt hin.2))]
  cases hfind : (img.bytes.toList.drop offset.toNat).findIdx? (· == 0) with
  | none => exact refused
  | some length =>
    have hlt : length < (img.bytes.toList.drop offset.toNat).length :=
      (List.findIdx?_eq_some_iff_findIdx_eq.1 hfind).1
    have hsize : length ≤ tail.size := by
      rw [← Array.length_toList, hlist]
      exact Nat.le_of_lt hlt
    have hcut : tail.extract 0 length = img.bytes.extract offset.toNat (offset.toNat + length) := by
      apply Array.toList_inj.1
      rw [Array.toList_extract, Array.toList_extract, List.extract_eq_take_drop,
        List.extract_eq_take_drop, hlist]
      simp
    refine .ok_bind (follows_cut (Nat.zero_le _) hsize) ?_
    rw [hcut, Option.map_some]
    simp only
    cases Text.ofBytes? (img.bytes.extract offset.toNat (offset.toNat + length)) with
    | some s => exact .pure s
    | none => exact refused

theorem follows_optString (offset : UInt32) :
    Follows (optString img offset) (img.optString offset) :=
  .ite (fun _ => .pure _) fun _ => (follows_string img offset).map some

end Guarded

/-- What is known of a file once it is loaded. -/
structure Image.Accepted (img : Image) : Prop where
  size_lt : img.bytes.size < UInt32.size
  directory : img.header.directory.toNat + img.header.entryCount.toNat * Row.width DirEntry ≤
    img.bytes.size

theorem Image.accepted_of_load {bytes : Bytes} {img : Image} (h : Image.load bytes = .ok img) :
    img.bytes = bytes ∧ img.Accepted := by
  unfold Image.load at h
  split at h
  next => cases h
  next hsize =>
    simp only at h
    generalize hheader : Header.record.decode (bytes.extract 0 Header.width).toList = header at h
    split at h
    next => cases h
    next hnone =>
      cases h
      simp only [refusal?] at hnone
      cases hm : header.mismatch? with
      | some m =>
        rw [hm] at hnone
        split_ifs at hnone
      | none =>
        rw [hm] at hnone
        split_ifs at hnone with hmagic hversion hlength hlocal hdirectory
        have hlt := header.size.toNat_lt
        exact ⟨rfl, by simp only [UInt32.size]; omega, Nat.le_of_not_lt fun h => hdirectory (.inr h)⟩

/-- A file that is loaded is loaded as itself. -/
theorem Image.load_of_header {img : Image}
    (h : (Image.load img.bytes).map Image.header = .ok img.header) :
    Image.load img.bytes = .ok img := by
  cases hload : Image.load img.bytes with
  | error e =>
    rw [hload] at h
    cases h
  | ok loaded =>
    rw [hload] at h
    have hheader : loaded.header = img.header := Except.ok.inj h
    have hbytes := (accepted_of_load hload).1
    cases loaded
    cases img
    cases hheader
    cases hbytes
    rfl

namespace Image.Accepted

variable {img : Image} (ha : img.Accepted)

include ha

/-! ### Directory -/

theorem follows_entry? (r : DirRef) : Follows (Guarded.entry? img r) (.ok (img.entry? r)) := by
  unfold Guarded.entry? Image.entry?
  cases r.index? with
  | none => exact .pure none
  | some i =>
    simp only
    split
    next hi =>
      have hwidth : Row.width DirEntry = 12 := rfl
      have hdirectory := ha.directory
      have hsize := ha.size_lt
      simp only [UInt32.size] at hsize
      have hmul := Nat.mul_le_mul_right (Row.width DirEntry) (Nat.succ_le_of_lt hi)
      rw [Nat.succ_mul] at hmul
      -- the entry lies before the end of the directory
      have hin : img.header.directory.toNat + i * Row.width DirEntry + Row.width DirEntry ≤
          img.bytes.size := by omega
      obtain ⟨start, hstart⟩ : ∃ start,
          start = img.header.directory.toNat + i * Row.width DirEntry := ⟨_, rfl⟩
      rw [← hstart] at hin
      have htail : Row.width DirEntry ≤ (img.bytes.extract start img.bytes.size).size := by
        rw [Array.size_extract]
        omega
      have hdecode : DirEntry.record.decode (img.bytes.extract start img.bytes.size).toList =
          DirEntry.record.decode
            (img.bytes.extract start (start + Row.width DirEntry)).toList := by
        apply ConfinedRow.confined (α := DirEntry)
        change List.take (Row.width DirEntry) _ = List.take (Row.width DirEntry) _
        simp only [Array.toList_extract, List.extract_eq_take_drop, List.take_take]
        congr 1
        omega
      refine .ok_bind (Guarded.follows_position (by omega)) ?_
      rw [← hstart, ← hdecode]
      exact .ok_bind (Guarded.follows_position (by omega)) <|
        .ok_bind (Guarded.follows_cut (by omega) (Nat.le_refl _)) <|
          .ok_bind (Guarded.follows_decode ConfinedRow.confined htail) (.pure _)
    next => exact .pure none

theorem follows_entries : Follows (Guarded.entries img) (.ok img.entries) := by
  have hentries : img.entries = ((List.range img.header.entryCount.toNat).map fun i =>
      (DirRef.ofIndex? i).bind fun r => (img.entry? r).map fun e => (r, e)).reduceOption :=
    (List.filterMap_map (g := id)).symm
  rw [hentries]
  refine .ok_bind (.mapM_ok (fun i => ?_) _) (.pure _)
  cases DirRef.ofIndex? i with
  | none => exact .pure none
  | some r => exact (ha.follows_entry? r).map _

omit ha in
theorem follows_isNamed (name : String) (e : DirEntry) :
    Follows (Guarded.isNamed img name e) (.ok <| match img.string e.name with
      | .ok s => s == name
      | .error _ => false) := by
  have hstring := (Guarded.follows_string img e.name).eq
  unfold Guarded.isNamed
  rw [hstring]
  cases img.string e.name <;> exact .pure _

theorem follows_findLocal? (name : String) :
    Follows (Guarded.findLocal? img name) (.ok (img.findLocal? name)) :=
  .ok_bind ha.follows_entries (.findM?_ok (fun e : DirRef × DirEntry => follows_isNamed name e.2) _)

theorem follows_entryName (r : DirRef) :
    Follows (Guarded.entryName img r) (img.entryName r) := by
  unfold Guarded.entryName Image.entryName
  refine .ok_bind (ha.follows_entry? r) ?_
  cases img.entry? r with
  | none => exact .throw fun _ => by simp
  | some e =>
    exact (Guarded.follows_string img _).bind fun name _ => .ite (fun _ => .pure _) fun _ =>
      (Guarded.follows_string img _).bind fun _ _ => .pure _

end Image.Accepted

end Typelib
