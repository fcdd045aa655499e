import Typelib.Proofs.Build.Naming

/-!
# Bodies are promised

A body is promised by an identity that was never used before, and queued in the same breath. The
type of a shape that was met before is promised nothing: it shares the body that the first one was
promised.

* `Draft.promiseType`, `Draft.promiseSignature`, `Draft.promiseConstant`: the three promises;
* `Build.typeBody_outcome`: all that asking for the body of a type can do.
-/

namespace Typelib

/-! ### Queues -/

theorem Fifo.mem_push {α : Type} {q : Fifo α} {a b : α} (h : b ∈ (q.push a).toList) :
    b ∈ q.toList ∨ b = a := by
  rwa [Fifo.toList_push, List.mem_append, List.mem_singleton] at h

theorem Fifo.length_toList {α : Type} (q : Fifo α) : q.toList.length = q.size := by
  simp [toList, size]

namespace Queues

variable {q q' : Queues}

theorem popType?_eq_some {item : Ty × BodyId} (h : q.popType? = some (item, q')) :
    q.types.toList = item :: q'.types.toList ∧ q'.signatures = q.signatures ∧
      q'.constants = q.constants := by
  obtain ⟨⟨_, types⟩, hp, he⟩ := Option.map_eq_some_iff.1 h
  cases he
  exact ⟨by rw [Fifo.toList_pop?, hp], rfl, rfl⟩

theorem popSignature?_eq_some {item : Signature × BodyId} (h : q.popSignature? = some (item, q')) :
    q.signatures.toList = item :: q'.signatures.toList ∧ q'.types = q.types ∧
      q'.constants = q.constants := by
  obtain ⟨⟨_, signatures⟩, hp, he⟩ := Option.map_eq_some_iff.1 h
  cases he
  exact ⟨by rw [Fifo.toList_pop?, hp], rfl, rfl⟩

theorem popConstant?_eq_some {item : ConstantDecl × BodyId}
    (h : q.popConstant? = some (item, q')) :
    q.constants.toList = item :: q'.constants.toList ∧ q'.types = q.types ∧
      q'.signatures = q.signatures := by
  obtain ⟨⟨_, constants⟩, hp, he⟩ := Option.map_eq_some_iff.1 h
  cases he
  exact ⟨by rw [Fifo.toList_pop?, hp], rfl, rfl⟩

/-! Numbers of bodies that wait. -/

theorem waiting_pushType (q : Queues) (type : Ty) (id : BodyId) :
    (q.pushType type id).waiting = q.waiting + 1 := by
  simp only [waiting, pushType, ← Fifo.length_toList, Fifo.toList_push, List.length_append,
    List.length_singleton]
  omega

theorem waiting_pushSignature (q : Queues) (s : Signature) (id : BodyId) :
    (q.pushSignature s id).waiting = q.waiting + 1 := by
  simp only [waiting, pushSignature, ← Fifo.length_toList, Fifo.toList_push, List.length_append,
    List.length_singleton]
  omega

theorem waiting_pushConstant (q : Queues) (c : ConstantDecl) (id : BodyId) :
    (q.pushConstant c id).waiting = q.waiting + 1 := by
  simp only [waiting, pushConstant, ← Fifo.length_toList, Fifo.toList_push, List.length_append,
    List.length_singleton]
  omega

end Queues

/-! ### Promises -/

namespace Draft

/-- The next identity is used up. -/
def allocate (d : Draft) : Draft := { d with symbols := d.symbols.allocate.2 }

/-- The body of a type is promised, and found by the text of its shape from now on. -/
def promiseType (d : Draft) (type : Ty) (text : String) : Draft :=
  { d.allocate with
    types := d.types.insert text d.symbols.nextId
    queues := d.queues.pushType type d.symbols.nextId }

def promiseSignature (d : Draft) (signature : Signature) : Draft :=
  { d.allocate with queues := d.queues.pushSignature signature d.symbols.nextId }

def promiseConstant (d : Draft) (constant : ConstantDecl) : Draft :=
  { d.allocate with queues := d.queues.pushConstant constant d.symbols.nextId }

theorem extends_promiseType (d : Draft) (type : Ty) {text : String}
    (hnone : d.types[text]? = none) : d.Extends (d.promiseType type text) := by
  refine ⟨rfl, SymbolTable.extends_allocate _, fun text' id ht => ?_, rfl⟩
  have hne : text ≠ text' := by
    rintro rfl
    rw [hnone] at ht
    cases ht
  simpa only [promiseType, Std.TreeMap.getElem?_insert, Std.compare_eq_iff_eq, hne,
    ↓reduceIte] using ht

theorem extends_promiseSignature (d : Draft) (signature : Signature) :
    d.Extends (d.promiseSignature signature) :=
  ⟨rfl, SymbolTable.extends_allocate _, fun _ _ => id, rfl⟩

theorem extends_promiseConstant (d : Draft) (constant : ConstantDecl) :
    d.Extends (d.promiseConstant constant) :=
  ⟨rfl, SymbolTable.extends_allocate _, fun _ _ => id, rfl⟩

end Draft

namespace Build

/-- All that asking for the body of a type can do: its shape may be refused, or else it may be known
or new. -/
theorem typeBody_outcome (type : Ty) (d : Draft) :
    ∃ d₁, d.Names d₁ ∧
      ((∃ e, (typeBody type).outcome d = (.error e, d₁)) ∨
        ∃ s, (shape type).Yields d s d₁ ∧
          ((∃ id, d₁.types[s.text]? = some id ∧ (typeBody type).outcome d = (.ok id, d₁)) ∨
            d₁.types[s.text]? = none ∧
              (typeBody type).outcome d =
                (.ok d₁.symbols.nextId, d₁.promiseType type s.text))) := by
  refine ⟨(shape type).after d, within_shape type d, ?_⟩
  unfold typeBody
  rw [outcome_bind]
  cases hs : (shape type).outcome d with
  | mk r d₁ =>
    have hd₁ : (shape type).after d = d₁ := by rw [after, hs]
    rw [hd₁]
    cases r with
    | error e => exact .inl ⟨e, rfl⟩
    | ok s =>
      refine .inr ⟨s, hs, ?_⟩
      have hget : (get : Build Draft).outcome d₁ = (.ok d₁, d₁) := rfl
      simp only [outcome_bind, hget]
      cases ht : d₁.types[s.text]? with
      | some id => exact .inl ⟨id, rfl, rfl⟩
      | none => exact .inr ⟨rfl, rfl⟩

theorem typeUse_of_complex {type : Ty} (h : type.tag.isComplex = true) :
    typeUse type = (fun id => TypeUse.complex type.tag type.pointer id) <$> typeBody type := by
  cases type with
  | scalar kind p => cases h
  | interface name p => cases h
  | _ => rfl

/-- A type that is described without a body calls for none. -/
theorem typeUse_of_not_complex {type : Ty} (h : type.tag.isComplex = false) :
    Within Draft.Names (typeUse type) ∧
      ∀ {d d' : Draft} {use : TypeUse}, (typeUse type).Yields d use d' → use.body? = none := by
  cases type with
  | scalar kind p =>
    refine ⟨within_pure .refl _, fun hy => ?_⟩
    obtain ⟨rfl, rfl⟩ := yields_pure.1 hy
    rfl
  | interface name p =>
    refine ⟨(within_resolve name).bind (fun _ _ _ => .trans) fun _ => within_pure .refl _,
      fun hy => ?_⟩
    obtain ⟨ref, d₁, -, hpure⟩ := yields_bind.1 hy
    obtain ⟨rfl, rfl⟩ := yields_pure.1 hpure
    rfl
  | array | list | slist | hash | error => cases h

end Build

end Typelib
