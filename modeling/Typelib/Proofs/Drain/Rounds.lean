import Typelib.Proofs.Directory.Names
import Typelib.Proofs.Drain.Ready

/-!
# All that waits is written

Writing the bodies that wait goes on in rounds: a body is taken from its queue and written, and what
it promises waits in turn. What waits weighs less after each round, so the rounds come to an end,
and then every body that ever waited is written, once. While there are fresh identities, only a
signature can be refused on the way.

* `Build.Rounds`: rounds one after another, with the bodies that they write;
* `Draft.Clears`: what rounds leave;
* `Build.clears_round`, `Build.Rounds.clears`: one round, and any number of them;
* `Build.exists_write`: types and constants are not refused;
* `Build.rounds_drainLoop`: the loop ends when nothing waits, or where a body is refused;
* `Build.rounds_of_drain`, `Build.refused_of_drain`: what the number and the error of a run tell.
-/

namespace Typelib

namespace Draft

/-- Some bodies were written. They are among those that waited or were promised on the way, and the
others still wait. -/
structure Clears (d : Draft) (written : List (Work × BodyId)) (d' : Draft) : Prop where
  toExtends : d.Extends d'
  items : ∃ news : List (Work × BodyId),
    (d.queues.items ++ news).Perm (written ++ d'.queues.items) ∧
    news.map Prod.snd =
      BodyId.range' d.symbols.handedOut (d'.symbols.handedOut - d.symbols.handedOut)
  begun : ∀ id, d'.begun id = d.begun id + (written.map Prod.snd).count id
  kept : ∀ id pos, d.body.startOf? id = some pos → d'.body.startOf? id = some pos
  bodyCount : d'.body.bodyCount = d.body.bodyCount + written.length
  weight : d'.queues.weight + written.length ≤ d.queues.weight

variable {d d' d'' : Draft} {written written' : List (Work × BodyId)}

theorem Clears.refl (d : Draft) : d.Clears [] d where
  toExtends := .refl d
  items := ⟨[], by simp, by simp⟩
  begun _ := rfl
  kept _ _ h := h
  bodyCount := rfl
  weight := Nat.le_refl _

theorem Clears.trans (h : d.Clears written d') (h' : d'.Clears written' d'') :
    d.Clears (written ++ written') d'' where
  toExtends := h.toExtends.trans h'.toExtends
  items := by
    obtain ⟨news, hperm, hids⟩ := h.items
    obtain ⟨news', hperm', hids'⟩ := h'.items
    have hle := h.toExtends.symbols.handedOut
    have hle' := h'.toExtends.symbols.handedOut
    refine ⟨news ++ news', ?_, ?_⟩
    · calc d.queues.items ++ (news ++ news')
        _ = d.queues.items ++ news ++ news' := (List.append_assoc _ _ _).symm
        List.Perm _ (written ++ d'.queues.items ++ news') := hperm.append_right _
        _ = written ++ (d'.queues.items ++ news') := List.append_assoc _ _ _
        List.Perm _ (written ++ (written' ++ d''.queues.items)) := hperm'.append_left _
        _ = written ++ written' ++ d''.queues.items := (List.append_assoc _ _ _).symm
    · rw [List.map_append, hids, hids', BodyId.range'_append hle hle']
  begun id := by
    rw [h'.begun, h.begun, List.map_append, List.count_append, Nat.add_assoc]
  kept id pos hs := h'.kept id pos (h.kept id pos hs)
  bodyCount := by rw [h'.bodyCount, h.bodyCount, List.length_append, Nat.add_assoc]
  weight := by
    have hweight := h.weight
    have hweight' := h'.weight
    rw [List.length_append]
    omega

end Draft

namespace Build

variable {d d' : Draft} {work : Work} {id : BodyId} {queues : Queues} {e : BuildError}
  {written : List (Work × BodyId)}

/-! ### One round -/

/-- A body that is written was not begun before, and what it refers to is promised. -/
theorem promises_write (hq : work.isQueued = true) (hs : d.symbols.Sound)
    (h : (work.write id).Yields d () d') :
    d.body.startOf? id = none ∧ (d.begin id).Promises (work.cells.flatMap Cell.works) d' := by
  obtain ⟨pos, d₁, hpos, hcells⟩ := yields_bind.1 (yields_write hq h)
  obtain ⟨s, hstart, rfl⟩ := yields_start.1 hpos
  obtain ⟨hnone, -, rfl⟩ := Section.start_eq_ok hstart
  exact ⟨hnone, hcells.after ▸ promises_cells work.cells _ hs⟩

/-- A round writes one body, and what waits weighs less. -/
theorem clears_round (hs : d.symbols.Sound) (hp : Pops d.queues work id queues)
    (h : (work.write id).Yields { d with queues } () d') : d.Clears [(work, id)] d' := by
  have hs' : ({ d with queues } : Draft).symbols.Sound := hs
  obtain ⟨hnone, hpromises⟩ := promises_write hp.isQueued hs' h
  obtain ⟨news, hperm, hids, hsub, -⟩ := hpromises.items
  have hnone : d.body.startOf? id = none := hnone
  have hpopped : d.Extends ({ d with queues }.begin id) :=
    (Draft.Extends.queues d queues).trans (.write _ _)
  -- the draft has the bodies that it had, and the one that was begun
  have hstarts : d'.body.starts = (d.begin id).body.starts := hpromises.starts
  have hstart (id' : BodyId) : d'.body.startOf? id' = (d.begin id).body.startOf? id' := by
    rw [Section.startOf?, hstarts, Section.startOf?]
  constructor
  · exact hpopped.trans hpromises.toExtends
  · exact ⟨news, (hp.items.append_right news).trans (hperm.symm.cons _), hids⟩
  · intro id'
    have hbegun : d'.begun id' = (d.begin id).begun id' := by rw [Draft.begun, hstart, Draft.begun]
    have hzero : d.begun id = 0 := Draft.begun_eq_zero.2 hnone
    rw [hbegun, Draft.begun_begin, List.map_singleton, List.count_singleton]
    by_cases he : id = id'
    · subst he
      simp [hzero]
    · simp [he]
  · intro id' pos hpos
    have hne : id ≠ id' := by
      rintro rfl
      rw [hnone] at hpos
      cases hpos
    have hbegin := d.body.startOf?_start id id'
    rw [if_neg hne] at hbegin
    exact (hstart id').trans (hbegin.trans hpos)
  · have hcount : (d.begin id).body.bodyCount = _ := d.body.bodyCount_start id
    rw [hnone] at hcount
    rw [Section.bodyCount, hstarts]
    exact hcount
  · exact hp.weight_lt hperm hsub

/-- Types and constants are not refused while there are fresh identities. -/
theorem exists_write (hd : d.Ready) (hfew : d.symbols.handedOut < UInt32.size)
    (hp : Pops d.queues work id queues) (hw : ∀ s, work ≠ .signature s) :
    ∃ d', (work.write id).Yields { d with queues } () d' := by
  have hmem : (work, id) ∈ d.queues.items := hp.items.mem_iff.2 List.mem_cons_self
  have hstart {e : BuildError} : ¬ (start id).Fails { d with queues } e := by
    intro hf
    obtain ⟨pos, hpos, -⟩ := fails_start hf
    have hnone := Draft.begun_eq_zero.1 (hd.not_begun hfew (List.mem_map_of_mem hmem))
    rw [show d.body.startOf? id = some pos from hpos] at hnone
    cases hnone
  obtain ⟨_, hy⟩ | ⟨e, hf⟩ := yields_or_fails (work.write id) { d with queues }
  · exact ⟨_, hy⟩
  · exfalso
    have hchecked : work.Checked := hd.checked _ hmem
    cases work with
    | entry => exact hchecked
    | signature s => exact hw s rfl
    | type t =>
      obtain hf | ⟨pos, d₁, hpos, hf⟩ := fails_bind.1 hf
      · exact hstart hf
      · obtain ⟨s, hpos, rfl⟩ := yields_start.1 hpos
        revert hf
        refine not_fails_cells hd.symbols (fun c hc name hname => ?_) (Ty.reject_not_mem hchecked)
        exact hd.knows t id hmem name (t.names_cells.1 name (List.mem_flatMap.2 ⟨c, hc, hname⟩))
    | constant c =>
      obtain ⟨bytes, hb⟩ := hchecked
      simp only [Work.write, constantBody, hb] at hf
      obtain hf | ⟨pos, d₁, -, hf⟩ := fails_bind.1 hf
      · exact hstart hf
      · exact not_fails_onBody hf

/-! ### Rounds -/

/-- Bodies that wait are taken from their queues and written, one after another. -/
inductive Rounds : Draft → List (Work × BodyId) → Draft → Prop
  | nil (d : Draft) : Rounds d [] d
  | cons {d d₁ d' : Draft} {work : Work} {id : BodyId} {queues : Queues}
      {written : List (Work × BodyId)} : Pops d.queues work id queues →
      (work.write id).Yields { d with queues } () d₁ → Rounds d₁ written d' →
      Rounds d ((work, id) :: written) d'

theorem ready_round (hd : d.Ready) (hp : Pops d.queues work id queues)
    (h : (work.write id).Yields { d with queues } () d') : d'.Ready :=
  h.after ▸ ready_pops hd hp

theorem Rounds.ready (h : Rounds d written d') (hd : d.Ready) : d'.Ready := by
  induction h with
  | nil => exact hd
  | cons hp hy _ ih => exact ih (ready_round hd hp hy)

theorem Rounds.clears (h : Rounds d written d') (hd : d.Ready) : d.Clears written d' := by
  induction h with
  | nil d => exact .refl d
  | cons hp hy _ ih => exact (clears_round hd.symbols hp hy).trans (ih (ready_round hd hp hy))

/-- What is refused is a signature, while there are fresh identities. -/
theorem signature_of_fails (hd : d.Ready) (hfew : d.symbols.handedOut < UInt32.size)
    (hp : Pops d.queues work id queues) (h : (work.write id).Fails { d with queues } e) :
    ∃ s, work = .signature s := by
  by_contra hne
  obtain ⟨d', hy⟩ := exists_write hd hfew hp fun s hs => hne ⟨s, hs⟩
  rw [Fails, hy] at h
  cases h

/-- With enough fuel the loop ends after rounds that write all that waits, or at a refusal. -/
theorem rounds_drainLoop (fuel : Nat) : ∀ {d : Draft} (done : Nat), d.Ready →
    d.queues.weight ≤ fuel → ∃ written d', Rounds d written d' ∧
      (d'.queues.items = [] ∧ (drainLoop fuel done).Yields d (done + written.length) d' ∨
        ∃ work id queues e, Pops d'.queues work id queues ∧
          (work.write id).Fails { d' with queues } e ∧ (drainLoop fuel done).Fails d e) := by
  induction fuel with
  | zero =>
    intro d done _ hle
    exact ⟨[], d, .nil d, .inl ⟨items_eq_nil_of_weight (Nat.le_zero.1 hle), rfl⟩⟩
  | succ fuel ih =>
    intro d done hd hle
    rcases next_outcomes d with ⟨hnil, hnext⟩ | ⟨work, id, queues, d₁, hp, hy, hnext⟩ |
      ⟨work, id, queues, e, hp, hf, hnext⟩
    · exact ⟨[], d, .nil d, .inl ⟨hnil, yields_bind.2 ⟨false, d, hnext, rfl⟩⟩⟩
    · have hweight := (clears_round hd.symbols hp hy).weight
      rw [List.length_singleton] at hweight
      obtain ⟨written, d', hrounds, hrest⟩ := ih (done + 1) (ready_round hd hp hy) (by omega)
      refine ⟨(work, id) :: written, d', .cons hp hy hrounds, ?_⟩
      rcases hrest with ⟨hnil, hyields⟩ | ⟨work', id', queues', e, hp', hf, hfails⟩
      · rw [Nat.add_right_comm, Nat.add_assoc] at hyields
        exact .inl ⟨hnil, yields_bind.2 ⟨true, d₁, hnext, hyields⟩⟩
      · exact .inr ⟨work', id', queues', e, hp', hf, fails_bind.2 (.inr ⟨true, d₁, hnext, hfails⟩)⟩
    · exact ⟨[], d, .nil d, .inr ⟨work, id, queues, e, hp, hf, fails_bind.2 (.inl hnext)⟩⟩

/-- Where nothing waits the loop ends at once, whatever the fuel is. -/
theorem drainLoop_of_items (hnil : d.queues.items = []) (fuel done : Nat) :
    (drainLoop fuel done).outcome d = (.ok done, d) := by
  cases fuel with
  | zero => rfl
  | succ fuel =>
    obtain ⟨-, hnext⟩ | ⟨work, id, queues, hp, -⟩ := next_pops d
    · rw [drainLoop, outcome_bind, hnext]
      rfl
    · have hitems := hp.items
      rw [hnil] at hitems
      exact absurd hitems.nil_eq (List.cons_ne_nil _ _).symm

/-- More fuel than the weight of what waits makes no difference. -/
theorem drainLoop_of_weight_le (fuel : Nat) : ∀ {d : Draft} (done fuel' : Nat), d.Ready →
    d.queues.weight ≤ fuel → fuel ≤ fuel' →
    (drainLoop fuel' done).outcome d = (drainLoop fuel done).outcome d := by
  induction fuel with
  | zero =>
    intro d done fuel' _ hle _
    exact drainLoop_of_items (items_eq_nil_of_weight (Nat.le_zero.1 hle)) fuel' done
  | succ fuel ih =>
    intro d done fuel' hd hle hfuel
    obtain ⟨fuel', rfl⟩ : ∃ k, fuel' = k + 1 := ⟨fuel' - 1, by omega⟩
    rw [drainLoop, drainLoop, outcome_bind, outcome_bind]
    rcases next_outcomes d with ⟨-, hnext⟩ | ⟨work, id, queues, d₁, hp, hy, hnext⟩ |
      ⟨_, _, _, e, -, -, hnext⟩
    · rw [hnext]
      rfl
    · have hweight := (clears_round hd.symbols hp hy).weight
      rw [List.length_singleton] at hweight
      rw [hnext]
      exact ih (done + 1) fuel' (ready_round hd hp hy) (by omega) (by omega)
    · have houtcome : next.outcome d = (.error e, next.after d) := Prod.ext hnext rfl
      rw [houtcome]

/-- What was yielded is the number of rounds, and nothing waits any more. -/
theorem rounds_of_drain {n : Nat} (hd : d.Ready) (h : drain.Yields d n d') :
    ∃ written, Rounds d written d' ∧ written.length = n ∧ d'.queues.items = [] := by
  have hloop : (drainLoop d.queues.weight 0).Yields d n d' := h
  obtain ⟨written, d₁, hrounds, ⟨hnil, hyields⟩ | ⟨_, _, _, e, -, -, hfails⟩⟩ :=
    rounds_drainLoop d.queues.weight 0 hd (Nat.le_refl _)
  · rw [Yields, hloop, Nat.zero_add] at hyields
    cases hyields
    exact ⟨written, hrounds, rfl, hnil⟩
  · rw [Fails, hloop] at hfails
    cases hfails

/-- What was refused is a signature, as long as there were fresh identities. -/
theorem refused_of_drain (hd : d.Ready) (h : drain.Fails d e) :
    ∃ written d₁ work id queues, Rounds d written d₁ ∧ Pops d₁.queues work id queues ∧
      (work.write id).Fails { d₁ with queues } e ∧
      (d₁.symbols.handedOut < UInt32.size → ∃ s, work = .signature s) := by
  have hloop : (drainLoop d.queues.weight 0).Fails d e := h
  obtain ⟨written, d₁, hrounds, ⟨-, hyields⟩ | ⟨work, id, queues, e', hp, hrefused, hfails⟩⟩ :=
    rounds_drainLoop d.queues.weight 0 hd (Nat.le_refl _)
  · rw [Fails, hyields] at hloop
    cases hloop
  · obtain rfl : e' = e := Except.error.inj (hfails.symm.trans hloop)
    exact ⟨written, d₁, work, id, queues, hrounds, hp, hrefused,
      fun hfew => signature_of_fails (hrounds.ready hd) hfew hp hrefused⟩

end Build

end Typelib
