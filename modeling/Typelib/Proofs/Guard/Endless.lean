import Mathlib.Data.List.Chain
import Mathlib.Data.List.Perm.Subperm
import Mathlib.Logic.Relation
import Typelib.Proofs.Guard.View
import Typelib.Proofs.Reading.Uses

/-!
# Types that do not end

The body of a type may lead to further types, and in a file that nobody checked it may lead back to
itself. Where it does not, the types that follow one another from one type on all stand in different
places of the file, so there are no more of them than the file has bytes.

* `Image.Leads`: the body of a type holds another type;
* `Image.Ends`, `Image.SelfReferential`: no type that a type leads to leads back to itself;
* `Image.Ends.length_le`: then no chain of types is longer than the file.
-/

namespace Typelib

namespace Image

variable (img : Image)

/-- The body of a type holds another type. -/
inductive Leads (t : TypeRef) : TypeRef → Prop
  | element {row : ArrayTypeRow} : t.tag? = some .array → img.row ArrayTypeRow t.offset = .ok row →
      Leads t row.element
  | param {tag : TypeTag} {row : ParamTypeRow} {types : List TypeRef} {u : TypeRef} :
      t.tag? = some tag → tag ∈ [TypeTag.list, .slist, .hash] →
      img.row ParamTypeRow t.offset = .ok row →
      img.rows TypeRef (t.offset + 8) row.typeCount = .ok types → u ∈ types → Leads t u

/-- Nothing that a type leads to leads back to itself. -/
def Ends (t : TypeRef) : Prop :=
  ∀ u, Relation.ReflTransGen img.Leads t u → ¬ Relation.TransGen img.Leads u u

/-- The type stands in a row of an entry, or of one of its signatures. -/
def UsedBy (view : EntryView) (t : TypeRef) : Prop :=
  t ∈ view.memberTypes ∨ t ∈ view.constants.map ConstantRow.type ∨
    ∃ offset ∈ view.signatures, ∃ signature, img.signatureView offset = .ok signature ∧
      t ∈ signature.row.returnType :: signature.args.map ArgRow.type

/-- The body of a type that a local entry uses leads back to itself, or to one that does. -/
def SelfReferential : Prop :=
  ∃ r e kind view t, (r, e) ∈ img.entries ∧ e.isLocal = true ∧ e.kind? = some kind ∧
    img.view e.offset kind = .ok view ∧ img.UsedBy view t ∧ ¬ img.Ends t

variable {img}

/-! ### Places -/

/-- The type that stands at a position. -/
def typeAt (bytes : Bytes) (pos : Nat) : TypeRef :=
  TypeRef.record.decode (bytes.extract pos (pos + Row.width TypeRef)).toList

theorem extract_slice {offset : UInt32} {size : Nat} {bytes : Bytes} (start length : Nat)
    (h : img.slice offset size = .ok bytes) (hle : start + length ≤ size) :
    bytes.extract start (start + length) =
      img.bytes.extract (offset.toNat + start) (offset.toNat + start + length) := by
  unfold slice at h
  split_ifs at h
  cases h
  rw [Array.extract_extract, Nat.min_eq_left (by omega), Nat.add_assoc]

theorem element_decode (bs : List UInt8) : (Row.record.decode bs : ArrayTypeRow).element =
    TypeRef.record.decode (bs.drop 8) := by
  change TypeRef.record.decode ((((bs.drop 1).drop 1).drop 2).drop 4) = _
  simp only [List.drop_drop, Nat.reduceAdd]

/-- The body of a type holds other types in places of its own. -/
theorem Leads.stands {t u : TypeRef} (h : img.Leads t u) :
    ∃ pos < img.bytes.size, u = typeAt img.bytes pos := by
  have hwidth : Row.width TypeRef = 8 := rfl
  cases h with
  | @element row _ hrow =>
    have hle := le_of_row hrow
    have hrowWidth : Row.width ArrayTypeRow = 8 + Row.width TypeRef := rfl
    unfold Image.row at hrow
    cases hslice : img.slice t.offset (Row.width ArrayTypeRow) with
    | error e =>
      rw [hslice] at hrow
      cases hrow
    | ok bytes =>
      rw [hslice] at hrow
      cases hrow
      refine ⟨t.offset.toNat + 8, by omega, ?_⟩
      -- the element is the last part of the row
      have hpart := extract_slice 8 _ hslice (Nat.le_of_eq hrowWidth.symm)
      have hsize := (Guarded.size_of_slice hslice).1
      rw [typeAt, ← hpart, Array.toList_extract, List.extract_eq_take_drop,
        List.take_of_length_le (by simp; omega)]
      exact element_decode bytes.toList
  | @param tag row types _ _ _ _ htypes hu =>
    have hle := le_of_rows htypes
    rw [hwidth] at hle
    unfold Image.rows at htypes
    cases hslice : img.slice (t.offset + 8) (Row.width TypeRef * row.typeCount.toNat) with
    | error e =>
      rw [hslice] at htypes
      cases htypes
    | ok bytes =>
      rw [hslice] at htypes
      cases htypes
      obtain ⟨i, hi, rfl⟩ := List.mem_map.1 hu
      have hlt : i < row.typeCount.toNat := List.mem_range.1 hi
      refine ⟨(t.offset + 8).toNat + i * 8, by omega, ?_⟩
      have hpart := extract_slice (i * 8) 8 hslice (by rw [hwidth]; omega)
      exact congrArg (fun bs : Bytes => TypeRef.record.decode bs.toList) hpart

/-! ### Chains -/

/-- No chain of types from a type on is longer than the file. -/
theorem Ends.length_le {t : TypeRef} (h : img.Ends t) {us : List TypeRef}
    (hchain : List.IsChain img.Leads (t :: us)) : us.length ≤ img.bytes.size := by
  have hpairs : List.Pairwise (Relation.TransGen img.Leads) (t :: us) :=
    List.isChain_iff_pairwise.1 (hchain.imp fun _ _ => .single)
  rw [List.pairwise_cons] at hpairs
  -- a type that occurs twice would lead back to itself
  have hnodup : us.Nodup := by
    refine hpairs.2.imp_of_mem fun {u v} hu _ huv he => ?_
    subst he
    exact h u (hpairs.1 u hu).to_reflTransGen huv
  have hstands : us ⊆ (List.range img.bytes.size).map (typeAt img.bytes) := by
    intro u hu
    obtain ⟨v, -, hv⟩ := Relation.TransGen.tail'_iff.1 (hpairs.1 u hu)
    obtain ⟨pos, hpos, rfl⟩ := hv.stands
    exact List.mem_map_of_mem (List.mem_range.2 hpos)
  have hle := (List.subperm_of_subset hnodup hstands).length_le
  rwa [List.length_map, List.length_range] at hle

end Image

end Typelib
