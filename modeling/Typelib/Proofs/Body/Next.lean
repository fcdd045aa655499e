import Typelib.Proofs.Body.Fill
import Typelib.Proofs.Build.Failing
import Typelib.Proofs.Build.Promise

/-!
# The next body

Three queues hold the bodies that wait. A round takes the first of the types, else the first of the
signatures, else the first of the constants, and writes its cells behind a fresh beginning; or it
notices before it begins that the cells cannot be written.

* `Queues.items`: all bodies that wait;
* `Build.Pops`: a body is taken from its queue;
* `Build.body`: a body as its cells tell it;
* `Build.next_pops`, `Build.yields_next`: all that a round can do.
-/

namespace Typelib

/-! ### Bodies that wait -/

/-- A body that waits in a queue. -/
def Work.isQueued : Work → Bool
  | entry _ => false
  | _ => true

namespace Queues

/-- The bodies that wait, with what they were promised to. -/
def items (q : Queues) : List (Work × BodyId) :=
  q.types.toList.map (fun item => (.type item.1, item.2)) ++
    q.signatures.toList.map (fun item => (.signature item.1, item.2)) ++
    q.constants.toList.map (fun item => (.constant item.1, item.2))

theorem length_items (q : Queues) : q.items.length = q.waiting := by
  simp only [items, waiting, List.length_append, List.length_map, Fifo.length_toList]

theorem items_pushType (q : Queues) (t : Ty) (id : BodyId) :
    (q.pushType t id).items.Perm (q.items ++ [(.type t, id)]) := by
  simp only [items, pushType, Fifo.toList_push, List.map_append, List.map_cons, List.map_nil,
    List.append_assoc]
  exact List.Perm.append_left _ (List.perm_append_comm.trans (by simp))

theorem items_pushSignature (q : Queues) (s : Signature) (id : BodyId) :
    (q.pushSignature s id).items.Perm (q.items ++ [(.signature s, id)]) := by
  simp only [items, pushSignature, Fifo.toList_push, List.map_append, List.map_cons, List.map_nil,
    List.append_assoc]
  exact List.Perm.append_left _ (List.Perm.append_left _ List.perm_append_comm)

theorem items_pushConstant (q : Queues) (c : ConstantDecl) (id : BodyId) :
    (q.pushConstant c id).items.Perm (q.items ++ [(.constant c, id)]) := by
  simp [items, pushConstant, Fifo.toList_push]

end Queues

namespace Build

variable {d d' : Draft} {work : Work} {id : BodyId} {q q' : Queues}

/-- A body is the first in its queue, and is taken from it. -/
inductive Pops (q : Queues) : Work → BodyId → Queues → Prop
  | type {t : Ty} {id : BodyId} {q' : Queues} :
    q.popType? = some ((t, id), q') → Pops q (.type t) id q'
  | signature {s : Signature} {id : BodyId} {q' : Queues} :
    q.popSignature? = some ((s, id), q') → Pops q (.signature s) id q'
  | constant {c : ConstantDecl} {id : BodyId} {q' : Queues} :
    q.popConstant? = some ((c, id), q') → Pops q (.constant c) id q'

namespace Pops

theorem isQueued (h : Pops q work id q') : work.isQueued = true := by
  cases h <;> rfl

theorem items (h : Pops q work id q') : q.items.Perm ((work, id) :: q'.items) := by
  cases h with
  | type h =>
    obtain ⟨hlist, hsig, hconst⟩ := Queues.popType?_eq_some h
    simp [Queues.items, hlist, hsig, hconst]
  | signature h =>
    obtain ⟨hlist, htypes, hconst⟩ := Queues.popSignature?_eq_some h
    simp only [Queues.items, hlist, htypes, hconst, List.map_cons, List.append_assoc]
    exact List.perm_middle
  | constant h =>
    obtain ⟨hlist, htypes, hsig⟩ := Queues.popConstant?_eq_some h
    simp only [Queues.items, hlist, htypes, hsig, List.map_cons]
    exact List.perm_middle

theorem waiting (h : Pops q work id q') : q.waiting = q'.waiting + 1 := by
  rw [← q.length_items, h.items.length_eq, List.length_cons, q'.length_items]

end Pops

/-! ### One body -/

/-- A body is begun, and its cells are written. -/
def body (work : Work) (id : BodyId) : Build Unit := do
  let _ ← start id
  cells work.cells

end Build

/-- Writes the body of what waited in a queue. -/
def Work.write : Work → BodyId → Build Unit
  | entry _, _ => pure ()
  | type t, id => Build.complexBody t id
  | signature s, id => Build.signatureBody s id
  | constant c, id => Build.constantBody c id

namespace Build

variable {d d' : Draft} {work : Work} {id : BodyId} {q q' : Queues}

/-- What waited is written as its cells tell, unless it is noticed at once that this is refused. -/
theorem write_cases (h : work.isQueued = true) (id : BodyId) :
    work.write id = body work id ∨
      ∃ e, work.write id = throw e ∧ .reject e ∈ work.cells := by
  cases work with
  | entry => cases h
  | type t => exact .inl rfl
  | signature s =>
    by_cases hmax : maxCount < s.params.length
    · refine .inr ⟨.tooManyMembers "signature" "arguments" s.params.length, if_pos hmax, ?_⟩
      simp [Work.cells, Cell.counted, hmax]
    · have hcells : (Work.signature s).cells = s.cells := by
        simp [Work.cells, Cell.counted, hmax]
      refine .inl ?_
      rw [Work.write, signatureBody, if_neg hmax, body, hcells]
  | constant c =>
    rw [Work.write, constantBody]
    cases henc : c.encode with
    | error e => exact .inr ⟨e, rfl, by simp [Work.cells, Cell.given, henc]⟩
    | ok bytes =>
      have hcells : (Work.constant c).cells = [.raw bytes] := by
        simp [Work.cells, Cell.given, henc]
      refine .inl ?_
      rw [body, hcells, cells, cells, bind_pure_unit]

theorem yields_write (hq : work.isQueued = true) (h : (work.write id).Yields d () d') :
    (body work id).Yields d () d' := by
  obtain hbody | ⟨e, hthrow, -⟩ := write_cases hq id
  · exact hbody ▸ h
  · rw [hthrow] at h
    exact absurd h not_yields_throw

/-! ### One round -/

/-- Nothing waits, or the next body is written. -/
theorem next_pops (d : Draft) :
    (d.queues.items = [] ∧ next.outcome d = (.ok false, d)) ∨
    ∃ work id queues, Pops d.queues work id queues ∧
      next.outcome d = (do work.write id; return true : Build Bool).outcome { d with queues } := by
  rw [next, outcome_get_bind]
  simp only
  cases ht : d.queues.popType? with
  | some found =>
    obtain ⟨⟨type, id⟩, queues⟩ := found
    exact .inr ⟨.type type, id, queues, .type ht, outcome_onQueues_bind _ _ _⟩
  | none =>
    cases hs : d.queues.popSignature? with
    | some found =>
      obtain ⟨⟨signature, id⟩, queues⟩ := found
      exact .inr ⟨.signature signature, id, queues, .signature hs, outcome_onQueues_bind _ _ _⟩
    | none =>
      cases hc : d.queues.popConstant? with
      | some found =>
        obtain ⟨⟨constant, id⟩, queues⟩ := found
        exact .inr ⟨.constant constant, id, queues, .constant hc, outcome_onQueues_bind _ _ _⟩
      | none =>
        refine .inl ⟨?_, rfl⟩
        have htypes : d.queues.types.toList = [] := by
          rw [Fifo.toList_pop?, Option.map_eq_none_iff.1 ht]
        have hsigs : d.queues.signatures.toList = [] := by
          rw [Fifo.toList_pop?, Option.map_eq_none_iff.1 hs]
        have hconsts : d.queues.constants.toList = [] := by
          rw [Fifo.toList_pop?, Option.map_eq_none_iff.1 hc]
        rw [Queues.items, htypes, hsigs, hconsts]
        rfl

/-- Nothing waits, or the next body is written, or it is refused. -/
theorem next_outcomes (d : Draft) :
    d.queues.items = [] ∧ next.Yields d false d ∨
    (∃ work id queues d₁, Pops d.queues work id queues ∧
      (work.write id).Yields { d with queues } () d₁ ∧ next.Yields d true d₁) ∨
    ∃ work id queues e, Pops d.queues work id queues ∧
      (work.write id).Fails { d with queues } e ∧ next.Fails d e := by
  rcases next_pops d with ⟨hnil, hnext⟩ | ⟨work, id, queues, hp, hnext⟩
  · exact .inl ⟨hnil, hnext⟩
  rcases yields_or_fails (work.write id) { d with queues } with ⟨_, hy⟩ | ⟨e, hf⟩
  · refine .inr (.inl ⟨work, id, queues, _, hp, hy, ?_⟩)
    rw [Yields, hnext]
    exact yields_bind.2 ⟨(), _, hy, yields_pure.2 ⟨rfl, rfl⟩⟩
  · refine .inr (.inr ⟨work, id, queues, e, hp, hf, ?_⟩)
    rw [Fails, hnext]
    exact fails_bind.2 (.inl hf)

/-- A round that succeeds finds nothing that waits, or it writes the body that it takes. -/
theorem yields_next {more : Bool} (h : next.Yields d more d') :
    (more = false ∧ d.queues.items = [] ∧ d' = d) ∨
    more = true ∧ ∃ work id queues, Pops d.queues work id queues ∧
      (body work id).Yields { d with queues } () d' := by
  obtain ⟨hnil, hnext⟩ | ⟨work, id, queues, hpops, hnext⟩ := next_pops d
  · rw [Yields, hnext] at h
    cases h
    exact .inl ⟨rfl, hnil, rfl⟩
  · rw [Yields, hnext] at h
    obtain ⟨_, d₁, hwrite, hdone⟩ := yields_bind.1 h
    obtain ⟨rfl, rfl⟩ := yields_pure.1 hdone
    exact .inr ⟨rfl, work, id, queues, hpops,
      yields_write hpops.isQueued hwrite⟩

end Build

end Typelib
