import Typelib.Proofs.Acceptance.Weight
import Typelib.Proofs.Sharing.Invariant

/-!
# Every body is written once

Each identity that was handed out is in one place: its body waits in a queue, or was begun, or is
that of an entry whose turn is still to come. So no body is begun twice, and when all entries had
their turn and nothing waits, there are as many bodies as identities. Only when the identities are
used up a body is begun again under one that was handed out before.

* `Draft.Steady`: what holds whenever no body is being written;
* `Build.steady_body`: what writing one body keeps;
* `Build.steady_next`, `Build.steady_drain`, `Build.steady_entries`: what runs keep, and why they
  fail.
-/

namespace Typelib

/-- In how many places an identity is: on a queue, among the bodies that were begun, or among the
entries whose turn is to come. -/
def Draft.due (d : Draft) (pending : List BodyId) (id : BodyId) : Nat :=
  (d.queues.items.map Prod.snd).count id + d.begun id + pending.count id

/-- What holds of a draft while no body is being written. -/
structure Draft.Steady (doc : Document) (options : Options) (pending : List BodyId) (d : Draft) :
    Prop where
  governs : (doc.scope options).Governs d
  isSealed : d.Sealed
  called : ∀ item ∈ d.queues.items, item.1.Of doc
  once : d.symbols.handedOut < UInt32.size → ∀ id : BodyId,
    d.due pending id = if id.toNat < d.symbols.handedOut then 1 else 0

/-- A step used up the identities, and began a body again. -/
def Build.Exhausts {α : Type} (x : Build α) (d : Draft) (e : BuildError) : Prop :=
  UInt32.size ≤ (x.after d).symbols.handedOut ∧ ∃ id pos, e = .writtenTwice id pos

/-- A step from a steady draft keeps a property, and fails only for a reason. -/
structure Build.Proceeds {α : Type} (doc : Document) (options : Options) (x : Build α) (d : Draft)
    (Q : α → Draft → Prop) : Prop where
  yields : ∀ a d', x.Yields d a d' → Q a d'
  fails : ∀ e, x.Fails d e → doc.Violates options e ∨ x.Exhausts d e

variable {doc : Document} {options : Options} {d d' : Draft} {pending : List BodyId}
  {id : BodyId} {work : Work} {works : List Work} {queues : Queues}

namespace Draft.Steady

theorem asks (h : d.Steady doc options pending) (ha : d.Asks doc options works d')
    (hw : ∀ work ∈ works, work.Of doc) : d'.Steady doc options pending where
  governs := ha.governs
  isSealed := ha.isSealed h.isSealed
  called item hmem := by
    obtain ⟨news, hperm, -, hsub⟩ := ha.items
    rcases List.mem_append.1 (hperm.mem_iff.1 hmem) with hold | hnew
    · exact h.called item hold
    · exact hw _ (hsub.subset (List.mem_map_of_mem hnew))
  once hfew id := by
    obtain ⟨news, hperm, hids, -⟩ := ha.items
    have hle := ha.toExtends.symbols.handedOut
    have hcount := (hperm.map Prod.snd).count_eq id
    rw [List.map_append, List.count_append, hids, BodyId.count_range' (by omega)] at hcount
    have hbegun : d'.begun id = d.begun id := by
      simp only [begun, Section.startOf?, ha.starts]
    have honce := h.once (Nat.lt_of_le_of_lt hle hfew) id
    rw [due] at honce
    rw [due, hbegun]
    -- the new identities are those between the two numbers
    split at hcount <;> split at honce <;> split <;> omega

/-- A body is taken from its queue. -/
theorem pop (h : d.Steady doc options pending)
    (hp : d.queues.items.Perm ((work, id) :: queues.items)) :
    { d with queues }.Steady doc options (id :: pending) ∧ work.Of doc := by
  refine ⟨⟨h.governs.mono (.queues d queues) h.governs.symbols
    h.governs.externals, ⟨h.isSealed.types, h.isSealed.relocs⟩, fun item hmem => ?_,
    fun hfew id' => ?_⟩, h.called (work, id) (hp.mem_iff.2 List.mem_cons_self)⟩
  · exact h.called item (hp.mem_iff.2 (List.mem_cons_of_mem _ hmem))
  · have honce := h.once hfew id'
    have hcount := (hp.map Prod.snd).count_eq id'
    simp only [List.map_cons, List.count_cons] at hcount
    simp only [due, List.count_cons] at honce ⊢
    have hbegun : { d with queues }.begun id' = d.begun id' := rfl
    rw [hbegun]
    omega

theorem not_begun (h : d.Steady doc options (id :: pending))
    (hfew : d.symbols.handedOut < UInt32.size) : d.body.startOf? id = none := by
  have honce := h.once hfew id
  simp only [due, List.count_cons_self] at honce
  have hzero : d.begun id = 0 := by
    split at honce <;> omega
  rw [begun] at hzero
  cases hs : d.body.startOf? id with
  | none => rfl
  | some pos => simp [hs] at hzero

/-- A body is begun. -/
theorem begin (h : d.Steady doc options (id :: pending)) :
    (d.begin id).Steady doc options pending where
  governs := h.governs.mono (.write d _) h.governs.symbols
    h.governs.externals
  isSealed := ⟨h.isSealed.types, h.isSealed.relocs⟩
  called := h.called
  once hfew id' := by
    have honce := h.once hfew id'
    have hzero : d.begun id = 0 := by simp [Draft.begun, h.not_begun hfew]
    simp only [due, List.count_cons, begun_begin] at honce ⊢
    have hqueues : (d.begin id).queues = d.queues := rfl
    have hcount : (d.begin id).symbols.handedOut = d.symbols.handedOut := rfl
    rw [hqueues, hcount, ← honce]
    by_cases he : id = id'
    · subst he
      simp [hzero]
      omega
    · simp [he]

end Draft.Steady

namespace Build

/-- What is yielded meets the rest, which proceeds from there. -/
theorem Proceeds.bind {α β : Type} {x : Build α} {f : α → Build β} {Q : α → Draft → Prop}
    {R : β → Draft → Prop} (hx : Proceeds doc options x d Q)
    (hf : ∀ a d₁, Q a d₁ → Proceeds doc options (f a) d₁ R) :
    Proceeds doc options (x >>= f) d R := by
  constructor
  · intro b d' h
    obtain ⟨a, d₁, ha, hb⟩ := yields_bind.1 h
    exact (hf a d₁ (hx.yields a d₁ ha)).yields b d' hb
  · intro e h
    unfold Exhausts
    rcases fails_bind.1 h with h | ⟨a, d₁, ha, hb⟩
    · rw [after_bind_of_fails h]
      exact hx.fails e h
    · rw [after_bind_of_yields ha]
      exact (hf a d₁ (hx.yields a d₁ ha)).fails e hb

theorem Proceeds.pure {α : Type} {a : α} {Q : α → Draft → Prop} (h : Q a d) :
    Proceeds doc options (pure a : Build α) d Q := by
  refine ⟨fun b d' hy => ?_, fun e hf => absurd hf not_fails_pure⟩
  obtain ⟨rfl, rfl⟩ := yields_pure.1 hy
  exact h

/-- A step runs as another one does. -/
theorem Proceeds.of_outcome {α : Type} {x y : Build α} {d₁ : Draft} {Q : α → Draft → Prop}
    (h : Proceeds doc options y d₁ Q) (he : x.outcome d = y.outcome d₁) :
    Proceeds doc options x d Q := by
  refine ⟨fun a d' hy => h.yields a d' ?_, fun e hf => ?_⟩
  · rwa [Yields, he] at hy
  · rw [Fails, he] at hf
    rw [Exhausts, after, he]
    exact h.fails e hf

/-! ### One body -/

/-- A body that was not begun is written, and promises at most what its cells ask for. -/
theorem steady_body (h : d.Steady doc options (id :: pending)) (hw : work.Of doc) :
    Proceeds doc options (body work id) d fun _ d' =>
      d'.Steady doc options pending ∧ d.Extends d' ∧ ∃ news : List (Work × BodyId),
        d'.queues.items.Perm (d.queues.items ++ news) ∧
        (news.map Prod.fst).Sublist (work.cells.flatMap Cell.works) := by
  have hnames : ∀ c ∈ work.cells, ∀ name ∈ c.names, name ∈ (doc.scope options).names :=
    fun c hc => (hw.proper c hc : c.Proper doc options).names
  have hbegin : ∀ pos d₁, (start id).Yields d pos d₁ → d₁ = d.begin id := by
    intro pos d₁ hs
    obtain ⟨s, hstart, rfl⟩ := yields_start.1 hs
    obtain ⟨-, -, rfl⟩ := Section.start_eq_ok hstart
    rfl
  constructor
  · intro _ d' hy
    obtain ⟨pos, d₁, hs, hcells⟩ := yields_bind.1 hy
    obtain rfl := hbegin pos d₁ hs
    have hasks := asks_cells h.begin.governs hnames hcells
    obtain ⟨news, hperm, -, hsub⟩ := hasks.items
    refine ⟨h.begin.asks hasks fun w hmem => ?_, ?_, news, hperm, hsub⟩
    · obtain ⟨c, hc, hmem⟩ := List.mem_flatMap.1 hmem
      exact (hw.proper c hc : c.Proper doc options).works w hmem
    · exact (Draft.Extends.write d _).trans hasks.toExtends
  · intro e hf
    rcases fails_bind.1 hf with hf | ⟨pos, d₁, hs, hf⟩
    · obtain ⟨pos, hpos, rfl⟩ := fails_start hf
      refine .inr ⟨?_, id, pos, rfl⟩
      -- as long as there are identities, this one has no body
      rw [body, after_bind_of_fails hf]
      by_contra hfew
      rw [h.not_begun (Nat.lt_of_not_le hfew)] at hpos
      cases hpos
    · obtain rfl := hbegin pos d₁ hs
      rcases fails_cells h.begin.governs hnames hf with hmem | hv
      · exact .inl ((hw.proper _ hmem : (Cell.reject e).Proper doc options).reject e rfl)
      · exact .inl hv

/-- What waited proceeds as its cells do. -/
theorem proceeds_write {Q : Unit → Draft → Prop} (hq : work.isQueued = true) (hw : work.Of doc)
    (h : Proceeds doc options (body work id) d Q) : Proceeds doc options (work.write id) d Q := by
  obtain hbody | ⟨e, hthrow, hmem⟩ := write_cases hq id
  · exact hbody ▸ h
  · rw [hthrow]
    refine ⟨fun _ _ hy => absurd hy not_yields_throw, fun e' hf => .inl ?_⟩
    exact fails_throw.1 hf ▸ (hw.proper _ hmem).reject e rfl

/-! ### All bodies that wait -/

theorem items_eq_nil_of_weight {q : Queues} (h : q.weight = 0) : q.items = [] := by
  cases hitems : q.items with
  | nil => rfl
  | cons item rest =>
    have hqueued : item.1.isQueued = true := by
      have hmem : item ∈ q.items := by simp [hitems]
      simp only [Queues.items, List.mem_append, List.mem_map] at hmem
      obtain (⟨_, -, rfl⟩ | ⟨_, -, rfl⟩) | ⟨_, -, rfl⟩ := hmem <;> rfl
    have hpos := Work.weight_pos hqueued
    rw [Queues.weight_eq, hitems, List.map_cons, worksWeight_cons] at h
    omega

/-- A body leaves its queue, and what it promises weighs less. -/
theorem Pops.weight_lt {q q' : Queues} {news : List (Work × BodyId)} (h : Pops q work id queues)
    (hnews : q'.items.Perm (queues.items ++ news))
    (hsub : (news.map Prod.fst).Sublist (work.cells.flatMap Cell.works)) :
    q'.weight < q.weight := by
  have hlt := weight_works_lt h.isQueued
  have hle := worksWeight_sublist hsub
  have hold := worksWeight_perm (h.items.map Prod.fst)
  have hnew := worksWeight_perm (hnews.map Prod.fst)
  simp only [List.map_append, worksWeight_append] at hnew
  simp only [List.map_cons, worksWeight_cons] at hold
  rw [Queues.weight_eq, Queues.weight_eq, hnew, hold]
  omega

/-- One round writes one body, and what waits weighs less then, unless nothing waits. -/
theorem steady_next (h : d.Steady doc options pending) :
    Proceeds doc options next d fun more d' => d'.Steady doc options pending ∧ d.Extends d' ∧
      if more then d'.queues.weight < d.queues.weight else d'.queues.items = [] := by
  obtain ⟨hnil, hnext⟩ | ⟨work, id, queues, hpops, hnext⟩ := next_pops d
  · exact (Proceeds.pure ⟨h, .refl d, hnil⟩ :
      Proceeds doc options (Pure.pure false : Build Bool) d _).of_outcome hnext
  · have hperm := hpops.items
    obtain ⟨hpop, hw⟩ := h.pop hperm
    refine Proceeds.of_outcome ?_ hnext
    have hwrite := proceeds_write hpops.isQueued hw (steady_body hpop hw)
    refine hwrite.bind fun _ d' ⟨hd', hx', news, hnews, hsub⟩ => ?_
    refine .pure ⟨hd', ?_, ?_⟩
    · exact (Draft.Extends.queues d queues).trans hx'
    · rw [if_pos rfl]
      exact hpops.weight_lt hnews hsub

theorem steady_drainLoop (fuel : Nat) : ∀ {d : Draft} (done : Nat), d.Steady doc options pending →
    d.queues.weight ≤ fuel →
    Proceeds doc options (drainLoop fuel done) d fun _ d' =>
      d'.Steady doc options pending ∧ d.Extends d' ∧ d'.queues.items = [] := by
  induction fuel with
  | zero =>
    intro d done h hle
    exact .pure ⟨h, .refl d, items_eq_nil_of_weight (Nat.le_zero.1 hle)⟩
  | succ fuel ih =>
    intro d done h hle
    refine (steady_next h).bind fun more d₁ ⟨h₁, hx₁, hmore⟩ => ?_
    cases more with
    | false => exact .pure ⟨h₁, hx₁, hmore⟩
    | true =>
      have hlt : d₁.queues.weight < d.queues.weight := hmore
      obtain ⟨hyields, hfails⟩ := ih (done + 1) h₁ (by omega)
      refine ⟨fun n d' hy => ?_, hfails⟩
      obtain ⟨hd', hx', hnil⟩ := hyields n d' hy
      exact ⟨hd', hx₁.trans hx', hnil⟩

/-- All bodies that wait are written: the fuel is enough. -/
theorem steady_drain (h : d.Steady doc options pending) :
    Proceeds doc options drain d fun _ d' =>
      d'.Steady doc options pending ∧ d.Extends d' ∧ d'.queues.items = [] :=
  (steady_drainLoop _ 0 h (Nat.le_refl _)).of_outcome rfl

end Build

end Typelib
