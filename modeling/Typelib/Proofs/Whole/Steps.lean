import Typelib.Proofs.Body.Document
import Typelib.Proofs.Whole.Lost

/-!
# Steps that keep bodies whole

A step that fails behind the beginning of a body leaves that body unfinished, since nothing is taken
back. Every other step keeps the bodies whole that were whole before, and adds whole bodies to them,
or else it loses an identity.

* `Draft.Tallied`: no more identities are accounted for than were handed out;
* `Build.Kept`: the three things that a step can do;
* `Build.kept_next`, `Build.kept_entries`: no step on bodies does anything else.
-/

namespace Typelib

/-! ### Identities -/

namespace Draft

variable {reg : Bool} {d d' : Draft} {es : List Event}

/-- No more identities are accounted for than were handed out. -/
structure Tallied (d : Draft) : Prop where
  symbols : d.symbols.Sound
  accounted : d.accounted ≤ d.symbols.handedOut

theorem tallied_new (ns : String) (sharedLibrary : Option String) (options : Options) :
    (Draft.new ns sharedLibrary options).Tallied :=
  ⟨sound_new ns sharedLibrary options, Nat.le_refl 0⟩

theorem Moves.tallied (h : Moves reg d es d') (hd : d.Tallied) : d'.Tallied := by
  have hle := h.accounted_le hd.symbols
  have haccounted := hd.accounted
  exact ⟨h.sound hd.symbols, by omega⟩

/-- An identity is handed out for nothing. -/
theorem Tallied.lost_allocate (hd : d.Tallied) : d.allocate.Lost :=
  .inr (Nat.lt_succ_of_le hd.accounted)

/-- What waited is dropped. -/
theorem Tallied.lost_pops (hd : d.Tallied) {work : Work} {id : BodyId} {queues : Queues}
    (h : Build.Pops d.queues work id queues) : ({ d with queues } : Draft).Lost := by
  have haccounted := hd.accounted
  rw [← Draft.accounted_pops h] at haccounted
  exact .inr haccounted

/-- A body was begun behind all that stood there before. -/
def Began (d d' : Draft) : Prop :=
  ∃ id pos, d'.body.startOf? id = some pos ∧ d.body.size ≤ pos

/-- A body is begun, and more is written. -/
theorem began_of_starts {id : BodyId} (h : d'.body.starts = (d.begin id).body.starts) :
    d.Began d' := by
  refine ⟨id, d.body.align.size, ?_, ?_⟩
  · have hstart := d.body.startOf?_start id id
    rw [if_pos rfl] at hstart
    rw [Section.startOf?, h]
    exact hstart
  · rw [Section.size_align]
    exact le_alignUp _

end Draft

open Draft (Tallied Moves)

/-! ### Ledgers -/

variable {works works' works₁ : List Work} {d d' d₁ : Draft} {ps ps' ps₁ : List Piece} {id : BodyId}

theorem Ledger.size_le (hl : Ledger works d ps) (hl' : Ledger works' d' ps')
    (hg : Grows works d ps works' d' ps') : d.body.size ≤ d'.body.size := by
  obtain ⟨more, rfl⟩ := hg.pieces
  rw [hl.made.size, hl'.made.size, Piece.size, Piece.size, List.map_append, List.sum_append]
  exact Nat.le_add_right _ _

namespace Build

variable {α β : Type}

/-- No part of a body begins another body. -/
theorem starts_cells (cs : List Cell) :
    Within (fun d d' => d'.body.starts = d.body.starts) (cells cs) := by
  have refl : ∀ d : Draft, d.body.starts = d.body.starts := fun _ => rfl
  have bind : ∀ {β γ : Type} {x : Build β} {f : β → Build γ},
      Within (fun d d' => d'.body.starts = d.body.starts) x →
      (∀ b, Within (fun d d' => d'.body.starts = d.body.starts) (f b)) →
      Within (fun d d' => d'.body.starts = d.body.starts) (x >>= f) :=
    fun hx hf => hx.bind (fun _ _ _ h h' => h'.trans h) hf
  have names : ∀ {β : Type} {x : Build β}, Within Draft.Names x →
      Within (fun d d' => d'.body.starts = d.body.starts) x :=
    fun hx d => congrArg Section.starts (hx d).body
  have put : ∀ {f : Section → Section}, (∀ s, (f s).starts = s.starts) →
      Within (fun d d' => d'.body.starts = d.body.starts) (onBody f) := fun h d => h d.body
  have cell : ∀ c : Cell, Within (fun d d' => d'.body.starts = d.body.starts) (cell c) := by
    intro c
    cases c with
    | byte | word16 | word32 | typeRef | raw | align => exact put fun _ => rfl
    | name s => exact bind (names (within_intern s)) fun _ => put fun _ => rfl
    | optName s =>
      exact bind (names (within_internOpt s)) fun offset => put fun _ => by cases offset <;> rfl
    | slot name => exact bind (names (within_resolve name)) fun _ => put fun _ => rfl
    | type t =>
      refine bind (fun d => ?_) fun use => put fun _ => by cases use <;> rfl
      by_cases hc : t.tag.isComplex
      · obtain ⟨d₁, hd₁, hrun⟩ := typeBody_outcome t d
        have hstarts : d₁.body.starts = d.body.starts := congrArg Section.starts hd₁.body
        simp only [after, typeUse_of_complex hc, outcome_map]
        obtain ⟨e, he⟩ | ⟨s, -, ⟨id, -, he⟩ | ⟨-, he⟩⟩ := hrun <;> simp only [he] <;> exact hstarts
      · rw [Bool.not_eq_true] at hc
        exact names (typeUse_of_not_complex hc).1 d
    | signature | value => exact fun d => rfl
    | errorType flags ns =>
      refine bind (names (within_domains ns)) fun refs => ?_
      split
      · exact within_throw refl _
      · exact bind (put fun _ => rfl) fun _ => put fun _ => rfl
    | reject e => exact within_throw refl e
  induction cs with
  | nil => exact within_pure refl ()
  | cons c cs ih => exact bind (cell c) fun _ => ih

/-- What a step does to bodies that are whole: it keeps them and adds to them, or it fails behind
the beginning of another one, or an identity is lost. -/
inductive Kept (works : List Work) (d : Draft) (ps : List Piece) (x : Build α) : Prop
  | lost : (x.after d).Lost → Kept works d ps x
  | broken {e : BuildError} : x.Fails d e → d.Began (x.after d) → Kept works d ps x
  | ledger {works' : List Work} {ps' : List Piece} : Ledger works' (x.after d) ps' →
      Grows works d ps works' (x.after d) ps' → Kept works d ps x

/-- Nothing but the outcome of a step matters. -/
theorem Kept.congr {x y : Build α} (h : Kept works d ps x) (hy : y.outcome d = x.outcome d) :
    Kept works d ps y := by
  have hafter : y.after d = x.after d := congrArg Prod.snd hy
  cases h with
  | lost h => exact .lost (hafter ▸ h)
  | broken he h => exact .broken ((congrArg Prod.fst hy).trans he) (hafter ▸ h)
  | ledger hl hg => exact .ledger (hafter ▸ hl) (hafter ▸ hg)

theorem Kept.bind {x : Build α} {f : α → Build β} {log : Log} {rest : α → Log}
    (hx : Kept works d ps x) (hl : Ledger works d ps) (ht : d.Tallied) (hlog : Logged true x log)
    (hrest : ∀ a, Logged true (f a) (rest a))
    (hf : ∀ a d₁ works₁ ps₁, Ledger works₁ d₁ ps₁ → Grows works d ps works₁ d₁ ps₁ →
      d₁.Tallied → Kept works₁ d₁ ps₁ (f a)) : Kept works d ps (x >>= f) := by
  have ht₁ := (hlog d ht.symbols).tallied ht
  obtain ⟨a, ha⟩ | ⟨e, he⟩ := yields_or_fails x d
  · have hafter : (x >>= f).after d = (f a).after (x.after d) := after_bind_of_yields ha
    cases hx with
    | lost h => exact .lost (hafter ▸ h.moves (hrest a _ ht₁.symbols) ht₁.symbols)
    | broken he => exact absurd ((congrArg Prod.fst ha).symm.trans he) (by simp)
    | ledger hl₁ hg₁ =>
      cases hf a _ _ _ hl₁ hg₁ ht₁ with
      | lost h => exact .lost (hafter ▸ h)
      | broken he h =>
        obtain ⟨id, pos, hs, hle⟩ := h
        exact .broken (fails_bind.2 (.inr ⟨a, _, ha, he⟩))
          ⟨id, pos, hafter ▸ hs, Nat.le_trans (hl.size_le hl₁ hg₁) hle⟩
      | ledger hl' hg' => exact .ledger (hafter ▸ hl') (hafter ▸ hg₁.trans hg')
  · have hafter : (x >>= f).after d = x.after d := after_bind_of_fails he
    cases hx with
    | lost h => exact .lost (hafter ▸ h)
    | broken he h => exact .broken (fails_bind.2 (.inl he)) (hafter ▸ h)
    | ledger hl hg => exact .ledger (hafter ▸ hl) (hafter ▸ hg)

theorem kept_names {x : Build α} (hl : Ledger works d ps) (hx : Within Draft.Names x) :
    Kept works d ps x :=
  have hn := hx d
  have h := hl.grow (hl.accounts.names hn) (List.prefix_refl _) hn.toExtends hn.body
  .ledger h.1 h.2

theorem kept_pure (hl : Ledger works d ps) (a : α) : Kept works d ps (pure a : Build α) :=
  kept_names hl (within_pure .refl a)

theorem kept_throw (hl : Ledger works d ps) (e : BuildError) :
    Kept works d ps (throw e : Build α) := kept_names hl (within_throw .refl e)

/-- A type is given a body, or shares one. -/
theorem kept_typeUse (hl : Ledger works d ps) (type : Ty) : Kept works d ps (typeUse type) := by
  by_cases hc : type.tag.isComplex
  · obtain ⟨d₁, hd₁, hrun⟩ := typeBody_outcome type d
    have hnames := hl.grow (hl.accounts.names hd₁) (List.prefix_refl _) hd₁.toExtends hd₁.body
    have kept : ∀ {r}, (typeBody type).outcome d = (r, d₁) → (typeUse type).after d = d₁ := by
      intro r he
      rw [after, typeUse_of_complex hc, outcome_map, he]
      cases r <;> rfl
    obtain ⟨e, he⟩ | ⟨s, hshape, ⟨id, -, he⟩ | ⟨hnone, he⟩⟩ := hrun
    · exact .ledger (kept he ▸ hnames.1) (kept he ▸ hnames.2)
    · exact .ledger (kept he ▸ hnames.1) (kept he ▸ hnames.2)
    · obtain ⟨rfl, hk⟩ := yields_shape hl.accounts.symbols hshape
      have hafter : (typeUse type).after d =
          d₁.promiseType type (type.shape d₁.symbols.slotOf).text := by
        rw [after, typeUse_of_complex hc, outcome_map, he]
      by_cases hfew : d₁.symbols.handedOut + 1 < UInt32.size
      · have hpromise := hnames.1.grow (hnames.1.accounts.promiseType hfew hk hc hnone)
          (List.prefix_append _ _) (d₁.extends_promiseType type hnone) rfl
        exact .ledger (hafter ▸ hpromise.1) (hafter ▸ hnames.2.trans hpromise.2)
      · exact .lost (hafter ▸ .inl (Nat.le_of_not_lt hfew))
  · rw [Bool.not_eq_true] at hc
    exact kept_names hl (typeUse_of_not_complex hc).1

/-! ### Bodies -/

/-- A body is begun, and written as far as this succeeds. -/
theorem kept_body {work : Work} (hl : Ledger works d ps) (hw : works[id.toNat]? = some work) :
    Kept works d ps (body work id) := by
  obtain ⟨pos, hpos⟩ | ⟨e, he⟩ := yields_or_fails (start id) d
  · have hafter : (body work id).after d = (cells work.cells).after ((start id).after d) :=
      after_bind_of_yields hpos
    obtain ⟨_, hcells⟩ | ⟨e, he⟩ := yields_or_fails (cells work.cells) ((start id).after d)
    · by_cases hfew : ((cells work.cells).after ((start id).after d)).symbols.handedOut < UInt32.size
      · obtain ⟨works', ps', _, hl', hg, -, -⟩ :=
          ledger_body hl hw (yields_bind.2 ⟨_, _, hpos, hcells⟩) hfew
        exact .ledger (hafter ▸ hl') (hafter ▸ hg)
      · exact .lost (hafter ▸ .inl (Nat.le_of_not_lt hfew))
    · refine .broken (fails_bind.2 (.inr ⟨_, _, hpos, he⟩)) ?_
      rw [hafter]
      exact Draft.began_of_starts (starts_cells work.cells _)
  · refine .broken (fails_bind.2 (.inl he)) ?_
    rw [body, after_bind_of_fails he]
    exact Draft.began_of_starts rfl

/-- The body of an entry is written, if the entry has a slot. -/
theorem kept_entry {node : Node} (hl : Ledger works d ps)
    (hp : ∀ symbol, d.symbols.lookup node.name = some symbol →
      works[symbol.id.toNat]? = some (.entry node)) :
    Kept works d ps (entry node) := by
  cases hs : d.symbols.lookup node.name with
  | none =>
    refine (kept_throw hl (.notRegistered node.name)).congr ?_
    rw [entry, outcome_get_bind, hs]
  | some symbol =>
    refine (kept_body hl (hp symbol hs)).congr ?_
    rw [entry, outcome_get_bind, hs]
    rfl

/-- What waits is dropped when its body is refused before it begins. -/
theorem kept_next (hl : Ledger works d ps) (ht : d.Tallied) : Kept works d ps next := by
  obtain ⟨-, hnext⟩ | ⟨work, id, queues, hpops, hnext⟩ := next_pops d
  · exact (kept_pure hl false).congr hnext
  have hafter : next.after d = (work.write id).after { d with queues } := by
    rw [after, hnext]
    exact after_bind_pure true
  obtain hbody | ⟨e, hthrow, -⟩ := write_cases hpops.isQueued id
  · rw [hbody] at hafter hnext
    obtain ⟨hl', hg⟩ := hl.pops hpops
    cases kept_body hl' (hl.accounts.of_pops hpops) with
    | lost h => exact .lost (hafter ▸ h)
    | @broken e he h =>
      have hfails : next.Fails d e := by
        rw [Fails, hnext]
        exact fails_bind.2 (.inl he)
      exact .broken hfails (hafter ▸ h)
    | ledger hl'' hg' => exact .ledger (hafter ▸ hl'') (hafter ▸ hg.trans hg')
  · rw [hthrow] at hafter
    exact .lost (hafter ▸ ht.lost_pops hpops)

theorem kept_drain (hl : Ledger works d ps) (ht : d.Tallied) : Kept works d ps drain := by
  have loop : ∀ (fuel done : Nat) {works : List Work} {d : Draft} {ps : List Piece},
      Ledger works d ps → d.Tallied → Kept works d ps (drainLoop fuel done) := by
    intro fuel
    induction fuel with
    | zero => exact fun done _ _ _ hl _ => kept_pure hl done
    | succ fuel ih =>
      intro done works d ps hl ht
      have rest : ∀ more : Bool, Logged true
          (if more then drainLoop fuel (done + 1) else pure done : Build Nat)
          (if more then drainLoopLog fuel else Log.none) := by
        intro more
        cases more
        · exact logged_pure done
        · exact logged_drainLoop fuel (done + 1)
      refine (kept_next hl ht).bind hl ht logged_next rest fun more d₁ works₁ ps₁ hl₁ _ ht₁ => ?_
      cases more
      · exact kept_pure hl₁ done
      · exact ih (done + 1) hl₁ ht₁
  exact (loop d.queues.weight 0 hl ht).congr (outcome_get_bind _ d)

theorem kept_entries {nodes : List Node} : ∀ {works : List Work} {d : Draft} {ps : List Piece},
    Ledger works d ps → d.Tallied → (∀ node ∈ nodes, Promised works d node) →
    Kept works d ps (entries nodes) := by
  induction nodes with
  | nil => exact fun hl _ _ => kept_pure hl ()
  | cons node nodes ih =>
    intro works d ps hl ht hp
    rw [List.forall_mem_cons] at hp
    obtain ⟨⟨symbol, hs, hw⟩, hp⟩ := hp
    have hentry : Kept works d ps (entry node) := by
      refine kept_entry hl fun symbol' hs' => ?_
      rw [hs] at hs'
      cases hs'
      exact hw
    refine hentry.bind hl ht (logged_entry node)
      (fun _ => logged_drain.andThen fun _ => logged_entries nodes)
      fun _ d₁ works₁ ps₁ hl₁ hg₁ ht₁ => ?_
    refine (kept_drain hl₁ ht₁).bind hl₁ ht₁ logged_drain (fun _ => logged_entries nodes)
      fun _ d₂ works₂ ps₂ hl₂ hg₂ ht₂ => ?_
    exact ih hl₂ ht₂ fun n hn => (hp n hn).mono (hg₁.trans hg₂)

end Build

end Typelib
