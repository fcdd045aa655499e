import Typelib.Proofs.Acceptance.Run
import Typelib.Proofs.Whole.Steps

/-!
# What waits after parts of a body were written

Cells may fail, and what they did before stays done. In any case bodies that were begun stay as they
are, and whatever was promised waits, with the next identities in order. The names of a type that
waits have slots.

* `Draft.Promises`: what a step that writes to a body leaves, whether it fails or not;
* `Build.promises_cells`: what cells promise;
* `Build.not_fails_cells`: cells whose names have slots are written.
-/

namespace Typelib

namespace Draft

/-- Nothing is begun. What is promised is among certain works and waits, with the next identities in
order. -/
structure Promises (works : List Work) (d d' : Draft) : Prop where
  toExtends : d.Extends d'
  sound : d.symbols.Sound → d'.symbols.Sound
  starts : d'.body.starts = d.body.starts
  items : ∃ news : List (Work × BodyId), d'.queues.items.Perm (d.queues.items ++ news) ∧
    news.map Prod.snd =
      BodyId.range' d.symbols.handedOut (d'.symbols.handedOut - d.symbols.handedOut) ∧
    (news.map Prod.fst).Sublist works ∧ ∀ t, Work.type t ∈ news.map Prod.fst → d'.Knows t

variable {works works' : List Work} {d d' d'' : Draft}

theorem Promises.trans (h : d.Promises works d') (h' : d'.Promises works' d'') :
    d.Promises (works ++ works') d'' where
  toExtends := h.toExtends.trans h'.toExtends
  sound hs := h'.sound (h.sound hs)
  starts := h'.starts.trans h.starts
  items := by
    obtain ⟨news, hperm, hids, hsub, hknown⟩ := h.items
    obtain ⟨news', hperm', hids', hsub', hknown'⟩ := h'.items
    have hle := h.toExtends.symbols.handedOut
    have hle' := h'.toExtends.symbols.handedOut
    refine ⟨news ++ news', ?_, ?_, ?_, fun t ht => ?_⟩
    · rw [← List.append_assoc]
      exact hperm'.trans (hperm.append_right _)
    · rw [List.map_append, hids, hids', BodyId.range'_append hle hle']
    · rw [List.map_append]
      exact hsub.append hsub'
    · rw [List.map_append, List.mem_append] at ht
      obtain ht | ht := ht
      · exact h'.toExtends.knows (hknown t ht)
      · exact hknown' t ht

/-- Less was promised than might have been. -/
theorem Promises.mono (h : d.Promises works d') (hsub : works.Sublist works') :
    d.Promises works' d' where
  toExtends := h.toExtends
  sound := h.sound
  starts := h.starts
  items := by
    obtain ⟨news, hperm, hids, hnews, hknown⟩ := h.items
    exact ⟨news, hperm, hids, hnews.trans hsub, hknown⟩

theorem Names.promises (h : d.Names d') : d.Promises [] d' where
  toExtends := h.toExtends
  sound := h.sound
  starts := by rw [h.body]
  items := ⟨[], by simp [h.queues], by simp [h.handedOut], .refl _, by simp⟩

/-- Bytes and references are written, and nothing else changes. -/
theorem Promises.write (h : d.Promises works d') {body : Section}
    (hb : body.starts = d'.body.starts) : d.Promises works { d' with body } where
  toExtends := h.toExtends.trans (.write _ _)
  sound := h.sound
  starts := hb.trans h.starts
  items := h.items

/-- A body is promised, and then it waits. -/
theorem Promises.promise {work : Work} (hx : d.Extends d')
    (hs : d'.symbols = d.symbols.allocate.2) (hb : d'.body = d.body)
    (hi : d'.queues.items.Perm (d.queues.items ++ [(work, d.symbols.nextId)]))
    (hk : ∀ t, work = .type t → d.Knows t) : d.Promises [work] d' where
  toExtends := hx
  sound hd := hs ▸ hd.allocate
  starts := by rw [hb]
  items := by
    refine ⟨_, hi, ?_, .refl _, fun t ht => ?_⟩
    · simp [hs, SymbolTable.allocate, SymbolTable.nextId, BodyId.range'_succ]
    · exact hx.knows (hk t (List.mem_singleton.1 ht).symm)

end Draft

namespace Build

variable {α β : Type} {works works' : List Work} {d d' : Draft}

/-- Whether the step fails or not, it promises no more than certain works. -/
def Promises (works : List Work) (x : Build α) : Prop :=
  ∀ d : Draft, d.symbols.Sound → d.Promises works (x.after d)

theorem promises_names {x : Build α} (h : Within Draft.Names x) : Promises [] x :=
  fun d _ => (h d).promises

theorem Promises.bind {x : Build α} {f : α → Build β} (hx : Promises works x)
    (hf : ∀ a, Promises works' (f a)) : Promises (works ++ works') (x >>= f) := by
  intro d hs
  have hd := hx d hs
  obtain ⟨a, ha⟩ | ⟨e, he⟩ := yields_or_fails x d
  · rw [after_bind_of_yields ha]
    exact hd.trans (hf a _ (hd.sound hs))
  · rw [after_bind_of_fails he]
    exact hd.mono (List.sublist_append_left _ _)

/-- What follows promises nothing. -/
theorem Promises.quiet {x : Build α} {f : α → Build β} (hx : Promises works x)
    (hf : ∀ a, Promises [] (f a)) : Promises works (x >>= f) := by
  have h := hx.bind hf
  rwa [List.append_nil] at h

theorem promises_onBody {f : Section → Section} (hf : ∀ s, (f s).starts = s.starts) :
    Promises [] (onBody f) := fun d _ => (Draft.Names.refl d).promises.write (hf _)

/-- A complex type promises its body at most, and another one nothing. -/
theorem promises_typeUse (type : Ty) : Promises (Cell.type type).works (typeUse type) := by
  intro d hs
  by_cases hc : type.tag.isComplex
  · have hworks : (Cell.type type).works = [.type type] := by simp [Cell.works, hc]
    have hafter : (typeUse type).after d = (typeBody type).after d := by
      rw [typeUse_of_complex hc, after, after, outcome_map]
      cases (typeBody type).outcome d with
      | mk r d₁ => cases r <;> rfl
    rw [hworks, hafter]
    obtain ⟨d₁, hd₁, ⟨e, he⟩ | ⟨s, hshape, ⟨id, -, hy⟩ | ⟨hnone, hy⟩⟩⟩ := typeBody_outcome type d
    · rw [after, he]
      exact hd₁.promises.mono (List.nil_sublist _)
    · rw [after, hy]
      exact hd₁.promises.mono (List.nil_sublist _)
    · rw [after, hy]
      obtain ⟨-, hknows⟩ := yields_shape hs hshape
      refine hd₁.promises.trans (.promise (d₁.extends_promiseType type hnone) rfl rfl
        (Queues.items_pushType _ _ _) fun t ht => ?_)
      cases ht
      exact hknows
  · rw [Bool.not_eq_true] at hc
    have hworks : (Cell.type type).works = [] := by simp [Cell.works, hc]
    rw [hworks]
    exact ((typeUse_of_not_complex hc).1 d).promises

theorem promises_cell (c : Cell) : Promises c.works (cell c) := by
  cases c with
  | byte | word16 | word32 | typeRef | raw | align => exact promises_onBody fun _ => rfl
  | name s => exact (promises_names (within_intern s)).quiet fun _ => promises_onBody fun _ => rfl
  | optName s =>
    exact (promises_names (within_internOpt s)).quiet fun offset =>
      promises_onBody fun _ => by cases offset <;> rfl
  | slot name =>
    exact (promises_names (within_resolve name)).quiet fun _ => promises_onBody fun _ => rfl
  | type t =>
    exact (promises_typeUse t).quiet fun use => promises_onBody fun _ => by cases use <;> rfl
  | signature s =>
    intro d _
    exact (Draft.Promises.promise (d.extends_promiseSignature s) rfl rfl
      (Queues.items_pushSignature _ _ _) (fun t ht => nomatch ht)).write rfl
  | value c =>
    intro d _
    exact (Draft.Promises.promise (d.extends_promiseConstant c) rfl rfl
      (Queues.items_pushConstant _ _ _) (fun t ht => nomatch ht)).write rfl
  | errorType flags names =>
    refine (promises_names (within_domains names)).quiet fun refs => ?_
    split
    · exact promises_names (within_throw .refl _)
    · refine Promises.quiet (promises_onBody ?_) fun _ => promises_onBody ?_ <;> exact fun _ => rfl
  | reject e => exact promises_names (within_throw .refl e)

theorem promises_cells : ∀ cs : List Cell, Promises (cs.flatMap Cell.works) (cells cs)
  | [] => promises_names (within_pure .refl ())
  | c :: cs => (promises_cell c).bind fun _ => promises_cells cs

/-! ### Cells whose names have slots -/

variable {e : BuildError}

theorem not_fails_resolve {name : String} (h : d.symbols.Settled d.options name) :
    ¬ (resolve name).Fails d e := by
  rw [resolve, fails_onSymbols, h.resolve]
  exact fun he => nomatch he

theorem not_fails_domains {names : List String} : ∀ {d : Draft},
    (∀ name ∈ names, d.symbols.Settled d.options name) → ¬ (domains names).Fails d e := by
  have refs : ∀ {d : Draft}, (∀ name ∈ names, d.symbols.Settled d.options name) →
      ¬ (names.mapM resolve).Fails d e := by
    induction names with
    | nil => exact fun _ => not_fails_pure
    | cons name names ih =>
      intro d h hf
      rw [List.forall_mem_cons] at h
      rw [List.mapM_cons] at hf
      obtain hf | ⟨ref, d₁, hname, hf⟩ := fails_bind.1 hf
      · exact not_fails_resolve h.1 hf
      · have hx := ((within_resolve name).yields hname).toExtends
        obtain hf | ⟨_, _, -, hf⟩ := fails_bind.1 hf
        · exact ih (fun n hn => hx.settled (h.2 n hn)) hf
        · exact not_fails_pure hf
  intro d h hf
  obtain hf | ⟨_, _, -, hf⟩ := fails_bind.1 hf
  · exact refs h hf
  · exact not_fails_pure hf

theorem not_fails_shape {type : Ty} : ∀ {d : Draft}, d.Knows type → ¬ (shape type).Fails d e := by
  have after {x : Build Shape} {wrap : Shape → Shape} {d : Draft} (hx : ¬ x.Fails d e) :
      ¬ (x >>= fun s => pure (wrap s) : Build Shape).Fails d e := by
    intro hf
    obtain hf | ⟨_, _, -, hf⟩ := fails_bind.1 hf
    · exact hx hf
    · exact not_fails_pure hf
  induction type with
  | scalar kind p => exact fun _ => not_fails_pure
  | interface name p =>
    intro d h hf
    obtain hf | ⟨_, _, -, hf⟩ := fails_bind.1 hf
    · exact not_fails_resolve (h name (List.mem_singleton_self _)) hf
    · exact not_fails_pure hf
  | array element z l p ih => exact fun h => after (ih h)
  | list element p ih => exact fun h => after (ih h)
  | slist element p ih => exact fun h => after (ih h)
  | hash key value p ihk ihv =>
    intro d h hf
    obtain hf | ⟨_, d₁, hk, hf⟩ := fails_bind.1 hf
    · exact ihk (fun name hn => h name (List.mem_append_left _ hn)) hf
    · have hx := ((within_shape key).yields hk).toExtends
      exact after (ihv (hx.knows fun name hn => h name (List.mem_append_right _ hn))) hf
  | error names p =>
    intro d h hf
    obtain hf | ⟨_, _, -, hf⟩ := fails_bind.1 hf
    · exact not_fails_domains h hf
    · exact not_fails_pure hf

theorem not_fails_typeUse {type : Ty} (h : d.Knows type) : ¬ (typeUse type).Fails d e := by
  intro hf
  by_cases hc : type.tag.isComplex
  · rw [typeUse_of_complex hc, fails_map] at hf
    exact not_fails_shape h (fails_typeBody hf)
  · cases type with
    | scalar kind p => exact not_fails_pure hf
    | interface name p =>
      obtain hf | ⟨_, _, -, hf⟩ := fails_bind.1 hf
      · exact not_fails_resolve (h name (List.mem_singleton_self _)) hf
      · exact not_fails_pure hf
    | array | list | slist | hash | error => exact absurd rfl hc

theorem not_fails_cell {c : Cell} (hs : d.symbols.Sound)
    (hn : ∀ name ∈ c.names, d.symbols.Settled d.options name) (hr : c ≠ .reject e) :
    ¬ (cell c).Fails d e := by
  have put {α : Type} {x : Build α} {f : α → Section → Section} (hx : ¬ x.Fails d e) :
      ¬ (x >>= fun a => onBody (f a)).Fails d e := by
    intro hf
    obtain hf | ⟨_, _, -, hf⟩ := fails_bind.1 hf
    · exact hx hf
    · exact not_fails_onBody hf
  cases c with
  | byte | word16 | word32 | typeRef | raw | align => exact not_fails_onBody
  | name s => exact put not_fails_intern
  | optName s => exact put not_fails_internOpt
  | slot name => exact put (not_fails_resolve (hn name (List.mem_singleton_self _)))
  | type t => exact put (not_fails_typeUse hn)
  | signature s | value c => simp [cell, fails_bind]
  | errorType flags names =>
    intro hf
    obtain hf | ⟨refs, d₁, hrefs, hf⟩ := fails_bind.1 hf
    · exact not_fails_domains hn hf
    · rw [if_neg (Nat.not_lt.2 (length_domains_le hs hrefs))] at hf
      simp [fails_bind] at hf
  | reject e' => exact fun hf => hr (congrArg Cell.reject (fails_throw.1 hf))

/-- Cells are written if the names in them have slots and none of them refuses to be written. -/
theorem not_fails_cells {cs : List Cell} : ∀ {d : Draft}, d.symbols.Sound →
    (∀ c ∈ cs, ∀ name ∈ c.names, d.symbols.Settled d.options name) → .reject e ∉ cs →
    ¬ (cells cs).Fails d e := by
  induction cs with
  | nil => exact fun _ _ _ => not_fails_pure
  | cons c cs ih =>
    intro d hs hn hr hf
    rw [List.forall_mem_cons] at hn
    rw [List.mem_cons, not_or] at hr
    obtain hf | ⟨_, d₁, hc, hf⟩ := fails_bind.1 hf
    · exact not_fails_cell hs hn.1 (Ne.symm hr.1) hf
    · obtain hpromises := hc.after ▸ promises_cell c d hs
      exact ih (hpromises.sound hs)
        (fun c' hc' name hname => hpromises.toExtends.settled (hn.2 c' hc' name hname)) hr.2 hf

end Build

end Typelib
