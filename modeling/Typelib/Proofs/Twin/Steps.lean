import Typelib.Proofs.Build.Naming
import Typelib.Proofs.Twin.Cells

/-!
# Two builds side by side

Two builds of one description, or of two spellings of it, take the same steps if each name is resolved
alike. Then they agree in all that they write and in how they fail, unless the first one gives up
where the second goes on.

* `Variation`: what two builds may differ in;
* `Draft.Twin`: two drafts that differ in nothing else;
* `Build.Twins`: two steps that do the same to such drafts;
* `Build.twins_shape`, `Build.twins_typeUse`: types in two spellings.
-/

namespace Typelib

/-- What two builds may differ in. -/
structure Variation where
  /-- The options of the first build. -/
  options : Options
  /-- The options of the second build. -/
  options' : Options
  /-- A name of the first description may be spelled in another way in the second. -/
  spells : String → String → Prop
  /-- With these errors the first build may give up where the second goes on. -/
  givesUp : BuildError → Prop
  /-- What is known of the directory when names are resolved. -/
  knows : SymbolTable → Prop

namespace Variation

/-- Two runs come to the same, unless the first gives up. -/
def Agree {α σ : Type} (v : Variation) (S : σ → σ → Prop) (r r' : Except BuildError α × σ) : Prop :=
  (∃ e, v.givesUp e ∧ r.1 = .error e) ∨ r'.1 = r.1 ∧ S r.2 r'.2

/-- Every name is resolved alike in both spellings. -/
structure Harmless (v : Variation) : Prop where
  grows : ∀ t t' : SymbolTable, v.knows t → t.Extends t' → v.knows t'
  resolve : ∀ (t : SymbolTable) (name name' : String), v.knows t → v.spells name name' →
    v.Agree (fun t₁ t₂ => t₂ = t₁) (t.resolve v.options name) (t.resolve v.options' name')

end Variation

/-! ### Queues -/

/-- The same body waits in two spellings, with one identity. -/
def Alike {α : Type} (S : α → α → Prop) (a a' : α × BodyId) : Prop := S a.1 a'.1 ∧ a'.2 = a.2

/-- The same bodies wait in two queues. -/
def Fifo.Twin {α : Type} (S : α → α → Prop) (q q' : Fifo (α × BodyId)) : Prop :=
  List.Forall₂ (Alike S) q.toList q'.toList

namespace Fifo.Twin

variable {α : Type} {S : α → α → Prop} {q q' : Fifo (α × BodyId)}

theorem push (h : Fifo.Twin S q q') {a a' : α} (ha : S a a') (id : BodyId) :
    Fifo.Twin S (q.push (a, id)) (q'.push (a', id)) := by
  unfold Fifo.Twin
  rw [toList_push, toList_push]
  exact List.rel_append h (.cons ⟨ha, rfl⟩ .nil)

theorem size (h : Fifo.Twin S q q') : q'.size = q.size := by
  have hsize : ∀ q : Fifo (α × BodyId), q.size = q.toList.length := fun q => by
    simp [Fifo.size, Fifo.toList]
  rw [hsize, hsize]
  exact h.length_eq.symm

theorem totalWeight (h : Fifo.Twin S q q') {weight : α → Nat}
    (hw : ∀ a a', S a a' → weight a' = weight a) :
    Typelib.totalWeight (fun item => weight item.1) q'.toList =
      Typelib.totalWeight (fun item => weight item.1) q.toList := by
  unfold Fifo.Twin at h
  generalize q.toList = items at h ⊢
  generalize q'.toList = items' at h ⊢
  induction h with
  | nil => rfl
  | cons h _ ih => rw [Typelib.totalWeight, Typelib.totalWeight, hw _ _ h.1, ih]

/-- Both queues have a first item, or neither has one. -/
theorem pop? (h : Fifo.Twin S q q') :
    Option.Rel (fun found found' => Alike S found.1 found'.1 ∧ Fifo.Twin S found.2 found'.2)
      q.pop? q'.pop? := by
  unfold Fifo.Twin at h
  rw [toList_pop? q, toList_pop? q'] at h
  cases hq : q.pop? <;> cases hq' : q'.pop? <;> rw [hq, hq'] at h
  · exact .none
  · cases h
  · cases h
  · exact .some (List.forall₂_cons.1 h)

end Fifo.Twin

/-- The same bodies wait on both sides. -/
structure Queues.Twin (R : String → String → Prop) (q q' : Queues) : Prop where
  types : Fifo.Twin (Ty.Respelled R) q.types q'.types
  signatures : Fifo.Twin (Signature.Respelled R) q.signatures q'.signatures
  constants : Fifo.Twin (ConstantDecl.Respelled R) q.constants q'.constants

namespace Queues.Twin

variable {R : String → String → Prop} {q q' : Queues}

theorem weight (h : q.Twin R q') : q'.weight = q.weight := by
  rw [Queues.weight, Queues.weight, h.types.totalWeight fun _ _ => Ty.Respelled.weight,
    h.signatures.totalWeight fun _ _ => Signature.Respelled.weight, h.constants.size]

theorem waiting (h : q.Twin R q') : q'.waiting = q.waiting := by
  rw [Queues.waiting, Queues.waiting, h.types.size, h.signatures.size, h.constants.size]

end Queues.Twin

/-! ### Drafts -/

/-- Two drafts that differ in no more than they may. -/
structure Draft.Twin (v : Variation) (d d' : Draft) : Prop where
  options : d.options = v.options
  options' : d'.options = v.options'
  knows : v.knows d.symbols
  symbols : d'.symbols = d.symbols
  queues : d.queues.Twin v.spells d'.queues
  types : d'.types = d.types
  body : d'.body = d.body
  sharedLibrary : d'.sharedLibrary = d.sharedLibrary

namespace Build

variable {v : Variation} {α β : Type}

/-- Two steps that do the same to twin drafts, unless the first gives up. -/
def Twins (v : Variation) (x x' : Build α) : Prop :=
  ∀ d d', d.Twin v d' → v.Agree (Draft.Twin v) (x.outcome d) (x'.outcome d')

theorem Twins.pure (a : α) : Twins v (pure a) (pure a) := fun _ _ h => .inr ⟨rfl, h⟩

theorem Twins.throw (e : BuildError) : Twins v (throw e : Build α) (throw e) :=
  fun _ _ h => .inr ⟨rfl, h⟩

theorem Twins.bind {x x' : Build α} {f f' : α → Build β} (hx : Twins v x x')
    (hf : ∀ a, Twins v (f a) (f' a)) : Twins v (x >>= f) (x' >>= f') := by
  intro d d' h
  have hagree := hx d d' h
  unfold Variation.Agree at hagree ⊢
  rw [outcome_bind, outcome_bind]
  revert hagree
  obtain ⟨r, d₁⟩ := x.outcome d
  obtain ⟨r', d₁'⟩ := x'.outcome d'
  rintro (⟨e, he, hr⟩ | ⟨hr, hd⟩)
  · obtain rfl : r = .error e := hr
    exact .inl ⟨e, he, rfl⟩
  · obtain rfl : r' = r := hr
    cases r' with
    | error e => exact .inr ⟨rfl, hd⟩
    | ok a => exact hf a d₁ d₁' hd

/-- A step may depend on what the drafts have in common. -/
theorem Twins.get_bind {f f' : Draft → Build α}
    (hf : ∀ d d', d.Twin v d' → Twins v (f d) (f' d')) : Twins v (get >>= f) (get >>= f') := by
  intro d d' h
  rw [outcome_get_bind, outcome_get_bind]
  exact hf d d' h d d' h

theorem Twins.mapM {γ : Type} {S : γ → γ → Prop} {f f' : γ → Build α} {as as' : List γ}
    (has : List.Forall₂ S as as') (hf : ∀ a a', S a a' → Twins v (f a) (f' a')) :
    Twins v (as.mapM f) (as'.mapM f') := by
  induction has with
  | nil => exact .pure []
  | cons ha _ ih =>
    rw [List.mapM_cons, List.mapM_cons]
    exact (hf _ _ ha).bind fun b => ih.bind fun bs => .pure _

theorem twins_modify {f f' : Draft → Draft} (hf : ∀ d d', d.Twin v d' → (f d).Twin v (f' d')) :
    Twins v (modify f) (modify f') := fun d d' h => .inr ⟨rfl, hf d d' h⟩

theorem twins_onBody (f : Section → Section) : Twins v (onBody f) (onBody f) :=
  twins_modify fun _ _ h => { h with body := congrArg f h.body }

theorem twins_onQueues {f f' : Queues → Queues}
    (hf : ∀ q q', q.Twin v.spells q' → (f q).Twin v.spells (f' q')) :
    Twins v (onQueues f) (onQueues f') :=
  twins_modify fun _ _ h => { h with queues := hf _ _ h.queues }

theorem twins_start (id : BodyId) : Twins v (start id) (start id) := by
  intro d d' h
  have hstart : d'.body.start id = d.body.start id := by rw [h.body]
  have hfirst : (start id).outcome d =
      ((d.body.start id).1, { d with body := (d.body.start id).2 }) := rfl
  have hsecond : (start id).outcome d' =
      ((d.body.start id).1, { d' with body := (d.body.start id).2 }) := by
    rw [← hstart]
    rfl
  rw [hfirst, hsecond]
  exact .inr ⟨rfl, { h with body := rfl }⟩

section Names

variable (hv : v.Harmless)
include hv

theorem twins_onSymbols {f f' : Options → SymbolTable → Except BuildError α × SymbolTable}
    (hx : ∀ t : SymbolTable, t.Extends (f v.options t).2)
    (hf : ∀ t : SymbolTable, v.knows t → v.Agree (fun t₁ t₂ => t₂ = t₁) (f v.options t) (f' v.options' t)) :
    Twins v (onSymbols f) (onSymbols f') := by
  intro d d' h
  have hfirst : (onSymbols f).outcome d =
      ((f v.options d.symbols).1, { d with symbols := (f v.options d.symbols).2 }) := by
    rw [← h.options]
    rfl
  have hsecond : (onSymbols f').outcome d' =
      ((f' v.options' d.symbols).1, { d' with symbols := (f' v.options' d.symbols).2 }) := by
    rw [← h.options', ← h.symbols]
    rfl
  rw [hfirst, hsecond]
  obtain hup | ⟨hr, ht⟩ := hf d.symbols h.knows
  · exact .inl hup
  · exact .inr ⟨hr, { h with knows := hv.grows _ _ h.knows (hx d.symbols), symbols := ht }⟩

theorem twins_intern (s : String) : Twins v (intern s) (intern s) :=
  twins_onSymbols hv (fun t => SymbolTable.extends_intern t s) fun _ _ => .inr ⟨rfl, rfl⟩

theorem twins_internOpt (s : Option String) : Twins v (internOpt s) (internOpt s) := by
  cases s with
  | none => exact .pure none
  | some s => exact (twins_intern hv s).bind fun _ => .pure _

theorem twins_allocate : Twins v allocate allocate :=
  twins_onSymbols hv SymbolTable.extends_allocate fun _ _ => .inr ⟨rfl, rfl⟩

theorem twins_resolve {name name' : String} (h : v.spells name name') :
    Twins v (resolve name) (resolve name') :=
  twins_onSymbols hv (fun t => SymbolTable.extends_resolve t v.options name)
    fun t ht => hv.resolve t name name' ht h

/-! ### Types -/

theorem twins_domains {names names' : List String} (h : List.Forall₂ v.spells names names') :
    Twins v (domains names) (domains names') :=
  (Twins.mapM h fun _ _ hname => twins_resolve hv hname).bind fun _ => .pure _

theorem twins_shape {t t' : Ty} (h : t.Respelled v.spells t') : Twins v (shape t) (shape t') := by
  induction h with
  | scalar kind p => exact .pure _
  | interface p hname => exact (twins_resolve hv hname).bind fun _ => .pure _
  | array z l p _ ih => exact ih.bind fun _ => .pure _
  | list p _ ih => exact ih.bind fun _ => .pure _
  | slist p _ ih => exact ih.bind fun _ => .pure _
  | hash p _ _ ihk ihv => exact ihk.bind fun _ => ihv.bind fun _ => .pure _
  | error p hnames => exact (twins_domains hv hnames).bind fun _ => .pure _

/-- Both types have a body already, or both are promised the same one. -/
theorem twins_typeBody {t t' : Ty} (h : t.Respelled v.spells t') :
    Twins v (typeBody t) (typeBody t') := by
  refine (twins_shape hv h).bind fun s => .get_bind fun d d' hd => ?_
  rw [hd.types]
  cases d.types[s.text]? with
  | some id => exact .pure id
  | none =>
    refine (twins_allocate hv).bind fun id => ?_
    refine (twins_modify fun d d' hd => ?_).bind fun _ => ?_
    · exact { hd with types := congrArg (·.insert s.text id) hd.types }
    refine (twins_onQueues fun q q' hq => ?_).bind fun _ => .pure id
    exact { hq with types := hq.types.push h id }

theorem twins_typeUse {t t' : Ty} (h : t.Respelled v.spells t') :
    Twins v (typeUse t) (typeUse t') := by
  have hbody := twins_typeBody hv h
  have htag := h.tag
  have hpointer := h.pointer
  cases h with
  | scalar kind p => exact .pure _
  | interface p hname => exact (twins_resolve hv hname).bind fun _ => .pure _
  | array | list | slist | hash | error => exact hbody.bind fun _ => .pure _

end Names

end Build

end Typelib
