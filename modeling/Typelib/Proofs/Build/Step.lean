import Typelib.Build.Bodies

/-!
# Steps on a draft

How a step of a build runs, said once for each way to make a step, so that no later proof looks into
the monad.

* `Build.Yields x d a d'`: the step succeeds on `d` with `a` and leaves `d'`;
* `Build.Within R x`: every run of the step, successful or not, ends in a related draft.
-/

namespace Typelib

/-- A body that is begun starts at the next boundary, and the others stay where they are. -/
theorem Section.startOf?_start (s : Section) (id id' : BodyId) :
    (s.start id).2.startOf? id' = if id = id' then some s.align.size else s.startOf? id' := by
  simp only [Section.start, Section.startOf?, Std.TreeMap.getElem?_insert, Std.compare_eq_iff_eq]
  rfl

namespace Build

variable {α β : Type}

/-- What a step on a draft yields, and the draft that it leaves. -/
def outcome (x : Build α) (d : Draft) : Except BuildError α × Draft := x.run d

/-- The step succeeds on a draft with a result and leaves another draft. -/
def Yields (x : Build α) (d : Draft) (a : α) (d' : Draft) : Prop := x.outcome d = (.ok a, d')

/-- The draft that a step leaves, whether it succeeds or not. -/
def after (x : Build α) (d : Draft) : Draft := (x.outcome d).2

theorem Yields.after {x : Build α} {d d' : Draft} {a : α} (h : x.Yields d a d') :
    x.after d = d' := congrArg Prod.snd h

/-! ### Successful runs -/

variable {d d' : Draft}

@[simp] theorem yields_pure {a b : α} :
    (pure a : Build α).Yields d b d' ↔ a = b ∧ d = d' := by
  change (Except.ok a, d) = (Except.ok b, d') ↔ _
  simp

@[simp] theorem not_yields_throw {e : BuildError} {a : α} :
    ¬ (throw e : Build α).Yields d a d' := by
  change ¬ (Except.error e, d) = (Except.ok a, d')
  simp

theorem outcome_bind (x : Build α) (f : α → Build β) (d : Draft) :
    (x >>= f).outcome d = match x.outcome d with
      | (.ok a, d₁) => (f a).outcome d₁
      | (.error e, d₁) => (.error e, d₁) := by
  change (match x.outcome d with
    | (r, d₁) => ExceptT.bindCont f r d₁) = _
  obtain ⟨_ | _, _⟩ := x.outcome d <;> rfl

theorem outcome_map (x : Build α) (f : α → β) (d : Draft) :
    (f <$> x).outcome d = match x.outcome d with
      | (.ok a, d₁) => (.ok (f a), d₁)
      | (.error e, d₁) => (.error e, d₁) :=
  outcome_bind x (fun a => pure (f a)) d

theorem outcome_get_bind {α : Type} (f : Draft → Build α) (d : Draft) :
    (get >>= f).outcome d = (f d).outcome d := rfl

theorem outcome_onQueues_bind {α : Type} (g : Queues → Queues) (f : Unit → Build α) (d : Draft) :
    (onQueues g >>= f).outcome d = (f ()).outcome { d with queues := g d.queues } := rfl

@[simp] theorem yields_bind {x : Build α} {f : α → Build β} {b : β} :
    (x >>= f).Yields d b d' ↔ ∃ a d₁, x.Yields d a d₁ ∧ (f a).Yields d₁ b d' := by
  simp only [Yields, outcome_bind]
  obtain ⟨_ | a, d₁⟩ := x.outcome d
  · simp
  · simp only [Prod.mk.injEq, Except.ok.injEq]
    exact ⟨fun h => ⟨a, d₁, ⟨rfl, rfl⟩, h⟩, fun ⟨_, _, ⟨ha, hd⟩, h⟩ => ha ▸ hd ▸ h⟩

@[simp] theorem yields_map {x : Build α} {f : α → β} {b : β} :
    (f <$> x).Yields d b d' ↔ ∃ a, x.Yields d a d' ∧ f a = b := by
  change (x >>= fun a => pure (f a)).Yields d b d' ↔ _
  simp only [yields_bind, yields_pure]
  exact ⟨fun ⟨a, _, h, hb, hd⟩ => ⟨a, hd ▸ h, hb⟩, fun ⟨a, h, hb⟩ => ⟨a, d', h, hb, rfl⟩⟩

@[simp] theorem yields_get {e : Draft} : (get : Build Draft).Yields d e d' ↔ e = d ∧ d' = d := by
  change (Except.ok d, d) = (Except.ok e, d') ↔ _
  simp [eq_comm]

@[simp] theorem yields_modify {f : Draft → Draft} {u : Unit} :
    (modify f : Build Unit).Yields d u d' ↔ d' = f d := by
  change (Except.ok (), f d) = (Except.ok u, d') ↔ _
  simp [eq_comm]

@[simp] theorem yields_onBody {f : Section → Section} {u : Unit} :
    (onBody f).Yields d u d' ↔ d' = { d with body := f d.body } := yields_modify

@[simp] theorem yields_onQueues {f : Queues → Queues} {u : Unit} :
    (onQueues f).Yields d u d' ↔ d' = { d with queues := f d.queues } := yields_modify

theorem yields_onSymbols {f : Options → SymbolTable → Except BuildError α × SymbolTable} {a : α} :
    (onSymbols f).Yields d a d' ↔
      ∃ t, f d.options d.symbols = (.ok a, t) ∧ d' = { d with symbols := t } := by
  change ((f d.options d.symbols).1, { d with symbols := (f d.options d.symbols).2 }) =
    (Except.ok a, d') ↔ _
  obtain ⟨r, t⟩ := f d.options d.symbols
  simp only [Prod.mk.injEq]
  exact ⟨fun ⟨hr, hd⟩ => ⟨t, ⟨hr, rfl⟩, hd.symm⟩, fun ⟨_, ⟨hr, ht⟩, hd⟩ => ⟨hr, ht ▸ hd.symm⟩⟩

theorem yields_start {id : BodyId} {pos : Nat} :
    (start id).Yields d pos d' ↔
      ∃ s, d.body.start id = (.ok pos, s) ∧ d' = { d with body := s } := by
  change ((d.body.start id).1, { d with body := (d.body.start id).2 }) = (Except.ok pos, d') ↔ _
  obtain ⟨r, s⟩ := d.body.start id
  simp only [Prod.mk.injEq]
  exact ⟨fun ⟨hr, hd⟩ => ⟨s, ⟨hr, rfl⟩, hd.symm⟩, fun ⟨_, ⟨hr, hs⟩, hd⟩ => ⟨hr, hs ▸ hd.symm⟩⟩

theorem yields_resolve {name : String} {ref : DirRef} :
    (resolve name).Yields d ref d' ↔
      ∃ t, d.symbols.resolve d.options name = (.ok ref, t) ∧ d' = { d with symbols := t } :=
  yields_onSymbols

theorem yields_intern {s : String} {offset : UInt32} :
    (intern s).Yields d offset d' ↔ offset = (d.symbols.intern s).1 ∧
      d' = { d with symbols := (d.symbols.intern s).2 } := by
  simp only [intern, yields_onSymbols, Prod.mk.injEq, Except.ok.injEq]
  exact ⟨fun ⟨_, ⟨ho, ht⟩, hd⟩ => ⟨ho.symm, ht ▸ hd⟩, fun ⟨ho, hd⟩ => ⟨_, ⟨ho.symm, rfl⟩, hd⟩⟩

@[simp] theorem yields_nil_mapM {f : α → Build β} {bs : List β} :
    (([] : List α).mapM f).Yields d bs d' ↔ bs = [] ∧ d' = d := by
  simp [eq_comm]

@[simp] theorem yields_cons_mapM {a : α} {as : List α} {f : α → Build β} {bs : List β} :
    ((a :: as).mapM f).Yields d bs d' ↔
      ∃ b d₁ rest, (f a).Yields d b d₁ ∧ (as.mapM f).Yields d₁ rest d' ∧ bs = b :: rest := by
  simp only [List.mapM_cons, yields_bind, yields_pure]
  constructor
  · rintro ⟨b, d₁, hb, rest, d₂, hrest, rfl, rfl⟩
    exact ⟨b, d₁, rest, hb, hrest, rfl⟩
  · rintro ⟨b, d₁, rest, hb, hrest, rfl⟩
    exact ⟨b, d₁, hb, rest, d', hrest, rfl, rfl⟩

/-! ### All runs -/

/-- Every run of a step, successful or not, ends in a related draft. -/
def Within (R : Draft → Draft → Prop) (x : Build α) : Prop := ∀ d, R d (x.after d)

section Within

variable {R : Draft → Draft → Prop} (hrefl : ∀ d, R d d)
  (htrans : ∀ d₁ d₂ d₃, R d₁ d₂ → R d₂ d₃ → R d₁ d₃)

include hrefl in
theorem within_pure (a : α) : Within R (pure a : Build α) := fun d => hrefl d

include hrefl in
theorem within_throw (e : BuildError) : Within R (throw e : Build α) := fun d => hrefl d

include htrans in
theorem Within.bind {x : Build α} {f : α → Build β} (hx : Within R x)
    (hf : ∀ a, Within R (f a)) : Within R (x >>= f) := by
  intro d
  have h := hx d
  simp only [Build.after] at h ⊢
  rw [outcome_bind]
  revert h
  obtain ⟨_ | a, d₁⟩ := x.outcome d
  · exact id
  · exact fun h => htrans _ _ _ h (hf a d₁)

include hrefl htrans in
theorem Within.mapM {f : α → Build β} (hf : ∀ a, Within R (f a)) (as : List α) :
    Within R (as.mapM f) := by
  induction as with
  | nil => simpa using within_pure hrefl []
  | cons a as ih =>
    rw [List.mapM_cons]
    exact (hf a).bind htrans fun b => ih.bind htrans fun bs => within_pure hrefl (b :: bs)

theorem within_onSymbols {f : Options → SymbolTable → Except BuildError α × SymbolTable}
    (h : ∀ d, R d { d with symbols := (f d.options d.symbols).2 }) : Within R (onSymbols f) := h

end Within

end Build

end Typelib
