import Mathlib.Data.List.Perm.Basic
import Mathlib.Order.Basic
import Typelib.Build.Draft

/-!
# Equivalence of types

Once it is known which slot each name stands for, a type has a shape, and two types are equivalent
if their structures agree, names standing for slots and error domains for sets of slots.

* `Ty.shape`: the shape of a type, as a function of what names stand for;
* `Ty.equivalent_iff`: types are equivalent if and only if they have one shape.
-/

namespace Typelib

/-! ### Sorted references -/

namespace DirRef

theorem mem_sorted {r : DirRef} {rs : List DirRef} : r ∈ sorted rs ↔ r ∈ rs := by
  simp only [sorted, List.mem_map, Std.TreeSet.mem_toList, Std.TreeSet.mem_ofList,
    List.contains_iff_mem]
  constructor
  · rintro ⟨n, ⟨s, hs, rfl⟩, rfl⟩
    exact hs
  · intro h
    exact ⟨r.raw, ⟨r, h, rfl⟩, rfl⟩

/-- Sorted references increase strictly. -/
theorem pairwise_sorted (rs : List DirRef) :
    (sorted rs).Pairwise fun r s => r.raw < s.raw := by
  rw [sorted, List.pairwise_map]
  refine Std.TreeSet.ordered_toList.imp ?_
  intro m n h
  exact compareOfLessAndEq_eq_lt.1 h

theorem nodup_sorted (rs : List DirRef) : (sorted rs).Nodup :=
  (pairwise_sorted rs).imp fun h he => by simp [he] at h

/-- References sort alike if and only if they are the same set. -/
theorem sorted_eq_sorted_iff {rs rs' : List DirRef} :
    sorted rs = sorted rs' ↔ ∀ r, r ∈ rs ↔ r ∈ rs' := by
  constructor
  · intro h r
    rw [← mem_sorted, h, mem_sorted]
  · intro h
    have hperm : (sorted rs).Perm (sorted rs') := by
      rw [List.perm_ext_iff_of_nodup (nodup_sorted rs) (nodup_sorted rs')]
      intro r
      rw [mem_sorted, mem_sorted, h]
    refine hperm.eq_of_pairwise ?_ (pairwise_sorted rs) (pairwise_sorted rs')
    intro r s _ _ hrs hsr
    exact absurd hrs (by simpa using UInt16.le_of_lt hsr)

end DirRef

namespace Ty

/-! ### Parts of types -/

/-- The names in a type, from left to right. -/
def names : Ty → List String
  | .scalar .. => []
  | .interface name _ => [name]
  | .array element _ _ _ => element.names
  | .list element _ => element.names
  | .slist element _ => element.names
  | .hash key value _ => key.names ++ value.names
  | .error domains _ => domains

/-- How many bodies lie on the way to the innermost part of a type. -/
def depth : Ty → Nat
  | .scalar .. | .interface .. => 0
  | .array element _ _ _ => element.depth + 1
  | .list element _ => element.depth + 1
  | .slist element _ => element.depth + 1
  | .hash key value _ => max key.depth value.depth + 1
  | .error .. => 1

/-- The type itself and all types inside it. -/
def parts : Ty → List Ty
  | .array element zeroTerminated length p =>
    .array element zeroTerminated length p :: element.parts
  | .list element p => .list element p :: element.parts
  | .slist element p => .slist element p :: element.parts
  | .hash key value p => .hash key value p :: (key.parts ++ value.parts)
  | t => [t]

/-! ### Shapes -/

/-- The shape of a type whose names stand for given slots. -/
def shape (slot : String → DirRef) : Ty → Shape
  | .scalar kind p => .scalar kind p
  | .interface name p => .interface (slot name) p
  | .array element zeroTerminated length p => .array (element.shape slot) zeroTerminated length p
  | .list element p => .list (element.shape slot) p
  | .slist element p => .slist (element.shape slot) p
  | .hash key value p => .hash (key.shape slot) (value.shape slot) p
  | .error domains p => .error (DirRef.sorted (domains.map slot)) p

variable {slot slot' : String → DirRef}

/-- Only the slots of its own names matter to the shape of a type. -/
theorem shape_congr {t : Ty} (h : ∀ name ∈ t.names, slot name = slot' name) :
    t.shape slot = t.shape slot' := by
  induction t with
  | scalar kind p => rfl
  | interface name p => rw [shape, shape, h name (by simp [names])]
  | array element z l p ih => rw [shape, shape, ih h]
  | list element p ih => rw [shape, shape, ih h]
  | slist element p ih => rw [shape, shape, ih h]
  | hash key value p ihk ihv =>
    rw [shape, shape, ihk fun n hn => h n (List.mem_append_left _ hn),
      ihv fun n hn => h n (List.mem_append_right _ hn)]
  | error domains p =>
    have hmap : domains.map slot = domains.map slot' := List.map_congr_left h
    rw [shape, shape, hmap]

theorem tag_shape (slot : String → DirRef) (t : Ty) : (t.shape slot).tag = t.tag := by
  cases t <;> rfl

theorem pointer_shape (slot : String → DirRef) (t : Ty) : (t.shape slot).pointer = t.pointer := by
  cases t <;> rfl

theorem tag_eq_of_shape {a b : Ty} (h : a.shape slot = b.shape slot) : a.tag = b.tag := by
  rw [← tag_shape slot a, h, tag_shape]

theorem pointer_eq_of_shape {a b : Ty} (h : a.shape slot = b.shape slot) :
    a.pointer = b.pointer := by
  rw [← pointer_shape slot a, h, pointer_shape]

/-! ### Equivalence -/

/-- Two types have the same structure: names are compared by the slots that they stand for, error
domains as sets of slots, and everything else as it is, at every level. -/
def Equivalent (slot : String → DirRef) : Ty → Ty → Prop
  | .scalar kind p, .scalar kind' p' => kind = kind' ∧ p = p'
  | .interface name p, .interface name' p' => slot name = slot name' ∧ p = p'
  | .array element z l p, .array element' z' l' p' =>
    element.Equivalent slot element' ∧ z = z' ∧ l = l' ∧ p = p'
  | .list element p, .list element' p' => element.Equivalent slot element' ∧ p = p'
  | .slist element p, .slist element' p' => element.Equivalent slot element' ∧ p = p'
  | .hash key value p, .hash key' value' p' =>
    key.Equivalent slot key' ∧ value.Equivalent slot value' ∧ p = p'
  | .error domains p, .error domains' p' =>
    (∀ r, r ∈ domains.map slot ↔ r ∈ domains'.map slot) ∧ p = p'
  | _, _ => False

/-- Types are equivalent if and only if they have one shape. -/
theorem equivalent_iff {a b : Ty} : a.Equivalent slot b ↔ a.shape slot = b.shape slot := by
  induction a generalizing b with
  | scalar kind p => cases b <;> simp [Equivalent, shape]
  | interface name p => cases b <;> simp [Equivalent, shape]
  | array element z l p ih => cases b <;> simp [Equivalent, shape, ih]
  | list element p ih => cases b <;> simp [Equivalent, shape, ih]
  | slist element p ih => cases b <;> simp [Equivalent, shape, ih]
  | hash key value p ihk ihv => cases b <;> simp [Equivalent, shape, ihk, ihv]
  | error domains p =>
    cases b <;> simp only [Equivalent, shape, Shape.error.injEq, reduceCtorEq,
      DirRef.sorted_eq_sorted_iff]

end Ty

end Typelib
