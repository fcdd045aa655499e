import Typelib.Proofs.Acceptance.Asks

/-!
# Weights of bodies

What a body promises weighs less than the body. So the weight of all that waits bounds the number of
bodies that can still be called for.

* `Work.weight`: the weight of a body;
* `Queues.weight_eq`: the weight of all that waits;
* `weight_works_lt`: what a body promises weighs less.
-/

namespace Typelib

/-! ### Weights -/

/-- Number of parts of what a body was promised to. -/
def Work.weight : Work → Nat
  | entry _ => 0
  | type t => t.weight
  | signature s => s.weight
  | constant _ => 1

theorem Ty.weight_pos (t : Ty) : 0 < t.weight := by cases t <;> simp [weight]

theorem Work.weight_pos {work : Work} (h : work.isQueued = true) : 0 < work.weight := by
  cases work with
  | entry => cases h
  | type t => exact t.weight_pos
  | signature s => simp only [weight, Signature.weight]; omega
  | constant => exact Nat.one_pos

theorem totalWeight_eq_sum {α : Type} (weight : α → Nat) (as : List α) :
    totalWeight weight as = (as.map weight).sum := by
  induction as with
  | nil => rfl
  | cons a as ih => simp [totalWeight, ih]

/-- The weight of bodies. -/
def worksWeight (works : List Work) : Nat := (works.map Work.weight).sum

theorem worksWeight_append (works works' : List Work) :
    worksWeight (works ++ works') = worksWeight works + worksWeight works' := by
  simp [worksWeight]

theorem worksWeight_cons (work : Work) (works : List Work) :
    worksWeight (work :: works) = work.weight + worksWeight works := by
  simp [worksWeight]

theorem worksWeight_sublist {works works' : List Work} (h : works.Sublist works') :
    worksWeight works ≤ worksWeight works' := by
  induction h with
  | slnil => exact Nat.le_refl _
  | cons a _ ih => exact Nat.le_trans ih (Nat.le_add_left _ a.weight)
  | cons_cons a _ ih => exact Nat.add_le_add_left ih a.weight

theorem Queues.weight_eq (q : Queues) : q.weight = worksWeight (q.items.map Prod.fst) := by
  have hsize : q.constants.size = (q.constants.toList.map fun _ => 1).sum := by
    simp [Fifo.size, Fifo.toList]
  simp only [weight, totalWeight_eq_sum, hsize, items, worksWeight, List.map_append, List.map_map,
    List.sum_append]
  rfl

theorem worksWeight_perm {works works' : List Work} (h : works.Perm works') :
    worksWeight works = worksWeight works' := (h.map _).sum_nat

/-! ### Promises -/

theorem weight_works_type (t : Ty) : worksWeight (Cell.type t).works ≤ t.weight := by
  simp only [Cell.works]
  split
  · exact Nat.le_of_eq (by simp [worksWeight, Work.weight])
  · exact Nat.zero_le _

theorem weight_works_params (ps : List ParamDecl) :
    worksWeight ((ps.flatMap ParamDecl.cells).flatMap Cell.works) ≤
      totalWeight (fun p => p.type.weight) ps := by
  induction ps with
  | nil => exact Nat.le_refl _
  | cons p ps ih =>
    have hp : p.cells.flatMap Cell.works = (Cell.type p.type).works ++ [] := rfl
    have hle := weight_works_type p.type
    rw [List.flatMap_cons, List.flatMap_append, worksWeight_append, hp, List.append_nil,
      totalWeight]
    omega

theorem weight_works_result (s : Signature) :
    worksWeight (s.resultCells.flatMap Cell.works) ≤
      (s.result.map fun r => r.type.weight).getD 0 := by
  unfold Signature.resultCells
  cases s.result with
  | none => exact Nat.le_refl _
  | some r =>
    have hr : [Cell.type r.type, .flags16 [r.mayReturnNull, r.transfer == .full,
        r.transfer == .container]].flatMap Cell.works = (Cell.type r.type).works ++ [] := rfl
    rw [hr, List.append_nil]
    exact weight_works_type r.type

/-- What a body promises weighs less than the body. -/
theorem weight_works_lt {work : Work} (h : work.isQueued = true) :
    worksWeight (work.cells.flatMap Cell.works) < work.weight := by
  have element : ∀ t : Ty, worksWeight ((Cell.type t).works ++ []) < t.weight + 1 := fun t => by
    rw [List.append_nil]
    exact Nat.lt_succ_of_le (weight_works_type t)
  cases work with
  | entry => cases h
  | type t =>
    cases t with
    | scalar | interface | error => exact Nat.one_pos
    | array t | list t | slist t => exact element t
    | hash key value p =>
      have hworks : (Ty.hash key value p).cells.flatMap Cell.works =
          (Cell.type key).works ++ ((Cell.type value).works ++ []) := rfl
      have hkey := weight_works_type key
      have hvalue := element value
      rw [Work.cells, hworks, worksWeight_append, Work.weight, Ty.weight]
      omega
  | signature s =>
    simp only [Work.cells, Cell.counted]
    split
    · exact Work.weight_pos h
    · have hresult := weight_works_result s
      have hparams := weight_works_params s.params
      have hplain : [Cell.count s.params, .word32 0].flatMap Cell.works = [] := rfl
      rw [Signature.cells, List.flatMap_append, List.flatMap_append, hplain, List.append_nil,
        worksWeight_append, Work.weight, Signature.weight]
      omega
  | constant c =>
    simp only [Work.cells, Cell.given]
    cases c.encode <;> exact Nat.one_pos

end Typelib
