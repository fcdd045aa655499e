import Mathlib.Data.List.Basic
import Typelib.Image.Basic
import Typelib.Proofs.Build.Symbols

/-!
# The directory of a file

The header says how many entries a directory has and where it stands. Each reference up to that
number leads to an entry, and a lookup goes through the first of them in order, whatever they hold.

* `Image.entry?_eq_some_iff`, `Image.entries_eq`: the entries, by their positions;
* `Image.findLocal?_eq_some_iff`: what a lookup finds.
-/

namespace Typelib

namespace Image

variable {img : Image} {r : DirRef} {e : DirEntry} {name : String} {i : Nat}

/-- The header of a file stands at its front. -/
theorem header_of_load {bytes : Bytes} (h : load bytes = .ok img) :
    Header.record.decode (bytes.extract 0 Header.width).toList = img.header := by
  unfold load at h
  split at h
  next => cases h
  next =>
    simp only at h
    split at h
    next => cases h
    next =>
      cases h
      rfl

/-- What stands at a position of the directory, with the reference that leads there. -/
def entryAt (img : Image) (i : Nat) : DirRef × DirEntry :=
  let start := img.header.directory.toNat + i * Row.width DirEntry
  (⟨.ofNat (i + 1)⟩,
    DirEntry.record.decode (img.bytes.extract start (start + Row.width DirEntry)).toList)

/-- There are no more entries than references. -/
theorem ofIndex?_entryAt (hi : i < img.header.entryCount.toNat) :
    DirRef.ofIndex? i = some (img.entryAt i).1 :=
  DirRef.ofIndex?_eq_some.2 ⟨Nat.lt_of_le_of_lt hi img.header.entryCount.toNat_lt, rfl⟩

theorem toNat_entryAt (hi : i < img.header.entryCount.toNat) :
    (img.entryAt i).1.raw.toNat = i + 1 :=
  DirRef.toNat_of_ofIndex? (ofIndex?_entryAt hi)

theorem entry?_entryAt (hi : i < img.header.entryCount.toNat) :
    img.entry? (img.entryAt i).1 = some (img.entryAt i).2 := by
  simp only [Image.entry?, DirRef.index?_eq_of_ofIndex? (ofIndex?_entryAt hi), if_pos hi]
  rfl

theorem entry?_eq_some_iff :
    img.entry? r = some e ↔ ∃ i < img.header.entryCount.toNat, img.entryAt i = (r, e) := by
  constructor
  · intro h
    cases hi : r.index? with
    | none => simp [Image.entry?, hi] at h
    | some i =>
      have hr : r = ⟨.ofNat (i + 1)⟩ := by
        rw [← DirRef.toNat_of_index? hi, UInt16.ofNat_toNat]
      simp only [Image.entry?, hi] at h
      split_ifs at h with hlt
      cases h
      exact ⟨i, hlt, Prod.ext hr.symm rfl⟩
  · rintro ⟨i, hi, he⟩
    have hentry := entry?_entryAt hi
    rwa [he] at hentry

theorem entries_eq (img : Image) :
    img.entries = (List.range img.header.entryCount.toNat).map img.entryAt := by
  rw [entries, ← List.filterMap_eq_map]
  refine List.filterMap_congr fun i hi => ?_
  have hi := List.mem_range.1 hi
  rw [ofIndex?_entryAt hi, Option.bind_some, entry?_entryAt hi]
  rfl

/-! ### Lookups -/

/-- The entry is among those that the header counts as local, and it is the first one with a name. -/
structure FirstNamed (img : Image) (name : String) (r : DirRef) (e : DirEntry) : Prop where
  entry : img.entry? r = some e
  counted : r.raw.toNat ≤ img.header.localCount.toNat
  named : img.string e.name = .ok name
  first : ∀ r' e', img.entry? r' = some e' → r'.raw.toNat < r.raw.toNat →
    img.string e'.name ≠ .ok name

theorem findLocal?_eq (img : Image) (name : String) : img.findLocal? name =
    ((List.range (min img.header.localCount.toNat img.header.entryCount.toNat)).find? fun i =>
      (img.string (img.entryAt i).2.name).toOption == some name).map img.entryAt := by
  rw [findLocal?, entries_eq, ← List.map_take, List.take_range, List.find?_map]
  congr 2
  funext i
  simp only [Function.comp_apply]
  cases img.string (img.entryAt i).2.name <;> rfl

theorem findLocal?_eq_some_iff : img.findLocal? name = some (r, e) ↔ img.FirstNamed name r e := by
  have hnamed (e : DirEntry) : (img.string e.name).toOption = some name ↔
      img.string e.name = .ok name := by
    cases img.string e.name <;> simp [Except.toOption]
  simp only [findLocal?_eq, Option.map_eq_some_iff, List.find?_range_eq_some, List.mem_range,
    beq_iff_eq, hnamed, Bool.not_eq_true', beq_eq_false_iff_ne, ne_eq]
  constructor
  · rintro ⟨i, ⟨hname, hi, hfirst⟩, he⟩
    have hi : i < img.header.localCount.toNat ∧ i < img.header.entryCount.toNat := by omega
    have hr : r.raw.toNat = i + 1 := by simpa [he] using toNat_entryAt hi.2
    rw [he] at hname
    have hle : r.raw.toNat ≤ img.header.localCount.toNat := by omega
    refine ⟨entry?_eq_some_iff.2 ⟨i, hi.2, he⟩, hle, hname, fun r' e' he' hlt => ?_⟩
    obtain ⟨j, hj, hat⟩ := entry?_eq_some_iff.1 he'
    have hr' : r'.raw.toNat = j + 1 := by simpa [hat] using toNat_entryAt hj
    have hother := hfirst j (by omega)
    rwa [hat] at hother
  · rintro ⟨hentry, hle, hname, hfirst⟩
    obtain ⟨i, hi, he⟩ := entry?_eq_some_iff.1 hentry
    have hr : r.raw.toNat = i + 1 := by simpa [he] using toNat_entryAt hi
    refine ⟨i, ⟨by rw [he]; exact hname, by omega, fun j hj => ?_⟩, he⟩
    have hcount : j < img.header.entryCount.toNat := hj.trans hi
    have hr' := toNat_entryAt hcount
    exact hfirst _ _ (entry?_entryAt hcount) (by omega)

end Image

end Typelib
