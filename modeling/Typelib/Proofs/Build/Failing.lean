import Typelib.Proofs.Build.Step

/-!
# Steps that fail

A step fails with an error, or else it yields something. A sequence of steps fails where its first
step fails, or where the rest fails on what the first step leaves.

* `Build.Fails x d e`: the step fails on `d` with `e`;
* `Build.fails_bind`: how a sequence fails;
* `Build.after_bind_of_yields`, `Build.after_bind_of_fails`: what a sequence leaves.
-/

namespace Typelib.Build

variable {α β : Type} {d : Draft} {e : BuildError}

/-- The step fails on a draft with an error. -/
def Fails (x : Build α) (d : Draft) (e : BuildError) : Prop := (x.outcome d).1 = .error e

@[simp] theorem not_fails_pure {a : α} : ¬ (pure a : Build α).Fails d e := by
  change ¬ Except.ok a = Except.error e
  simp

@[simp] theorem fails_throw {e' : BuildError} : (throw e' : Build α).Fails d e ↔ e' = e := by
  change Except.error e' = (Except.error e : Except BuildError α) ↔ _
  simp

theorem fails_bind {x : Build α} {f : α → Build β} :
    (x >>= f).Fails d e ↔ x.Fails d e ∨ ∃ a d₁, x.Yields d a d₁ ∧ (f a).Fails d₁ e := by
  simp only [Fails, Yields, outcome_bind]
  obtain ⟨e' | a, d₁⟩ := x.outcome d
  · simp
  · simp only [reduceCtorEq, Prod.mk.injEq, Except.ok.injEq, false_or]
    constructor
    · exact fun h => ⟨a, d₁, ⟨rfl, rfl⟩, h⟩
    · rintro ⟨_, _, ⟨rfl, rfl⟩, h⟩
      exact h

@[simp] theorem fails_map {x : Build α} {f : α → β} : (f <$> x).Fails d e ↔ x.Fails d e := by
  change (x >>= fun a => pure (f a)).Fails d e ↔ _
  rw [fails_bind]
  simp

@[simp] theorem not_fails_get : ¬ (get : Build Draft).Fails d e := by
  change ¬ Except.ok d = Except.error e
  simp

@[simp] theorem not_fails_modify {f : Draft → Draft} : ¬ (modify f : Build Unit).Fails d e := by
  change ¬ Except.ok () = Except.error e
  simp

@[simp] theorem not_fails_onBody {f : Section → Section} : ¬ (onBody f).Fails d e :=
  not_fails_modify

@[simp] theorem not_fails_onQueues {f : Queues → Queues} : ¬ (onQueues f).Fails d e :=
  not_fails_modify

theorem fails_onSymbols {f : Options → SymbolTable → Except BuildError α × SymbolTable} :
    (onSymbols f).Fails d e ↔ (f d.options d.symbols).1 = .error e := Iff.rfl

@[simp] theorem not_fails_allocate : ¬ allocate.Fails d e := by
  simp [allocate, fails_onSymbols]

@[simp] theorem not_fails_intern {s : String} : ¬ (intern s).Fails d e := by
  simp [intern, fails_onSymbols]

@[simp] theorem not_fails_internOpt {s : Option String} : ¬ (internOpt s).Fails d e := by
  cases s <;> simp [internOpt]

/-- Only a body that was begun before is refused. -/
theorem fails_start {id : BodyId} (h : (start id).Fails d e) :
    ∃ pos, d.body.startOf? id = some pos ∧ e = .writtenTwice id pos := by
  have houtcome : (d.body.start id).1 = .error e := h
  simp only [Section.start] at houtcome
  split at houtcome
  next => cases houtcome
  next pos hpos =>
    cases houtcome
    exact ⟨pos, hpos, rfl⟩

/-! ### What is left -/

theorem after_bind_of_yields {x : Build α} {f : α → Build β} {a : α} {d' : Draft}
    (h : x.Yields d a d') :
    (x >>= f).after d = (f a).after d' := by
  rw [after, after, outcome_bind, h]

theorem after_bind_of_fails {x : Build α} {f : α → Build β} (h : x.Fails d e) :
    (x >>= f).after d = x.after d := by
  rw [Fails] at h
  rw [after, after, outcome_bind]
  revert h
  obtain ⟨_ | _, _⟩ := x.outcome d
  · exact fun _ => rfl
  · exact fun h => by cases h

theorem yields_or_fails (x : Build α) (d : Draft) :
    (∃ a, x.Yields d a (x.after d)) ∨ ∃ e, x.Fails d e := by
  cases h : (x.outcome d).1 with
  | ok a => exact .inl ⟨a, Prod.ext h rfl⟩
  | error e => exact .inr ⟨e, h⟩

/-- What follows a step and only yields something changes nothing. -/
theorem after_bind_pure {x : Build α} (b : β) :
    (do let _ ← x; return b : Build β).after d = x.after d := by
  obtain ⟨a, ha⟩ | ⟨e, he⟩ := yields_or_fails x d
  · exact after_bind_of_yields ha
  · exact after_bind_of_fails he

end Typelib.Build
