import Typelib.Proofs.Build.Directory
import Typelib.Proofs.Build.Step
import Typelib.Proofs.Type.Equivalence

/-!
# Types get their shapes

To give a type a shape is to resolve its names, and nothing else: the draft gains at most strings
and slots. What the names stand for then never changes, and neither does the shape.

* `SymbolTable.Settled`: a name has a slot;
* `Draft.Knows`: all names of a type have slots;
* `Build.yields_shape`: the shape of a type is the one that the slots of its names make.
-/

namespace Typelib

namespace SymbolTable

variable {t t' : SymbolTable}

/-- The name has a slot, and is resolved to it without any change. -/
structure Settled (t : SymbolTable) (options : Options) (name : String) : Prop where
  ne_none : t.slotOf name ≠ .none
  resolve : t.resolve options name = (.ok (t.slotOf name), t)

theorem Extends.settled (h : t.Extends t') {options : Options} {name : String}
    (hn : t.Settled options name) : t'.Settled options name := by
  have hslot := h.slotOf hn.ne_none
  refine ⟨hslot ▸ hn.ne_none, ?_⟩
  rw [hslot]
  exact resolve_of_extends hn.resolve h

theorem Sound.settled (h : t.Sound) {options : Options} {name : String} {ref : DirRef}
    (he : t.resolve options name = (.ok ref, t')) :
    ref = t'.slotOf name ∧ t'.Settled options name := by
  obtain ⟨rfl, hne⟩ := h.slotOf_ne_none he
  exact ⟨rfl, hne, resolve_of_extends he (.refl t')⟩

theorem handedOut_resolve (t : SymbolTable) (options : Options) (name : String) :
    (t.resolve options name).2.handedOut = t.handedOut := by
  obtain ⟨_, -, h⟩ | ⟨ns, symbol, -, h | h⟩ := resolve_eq t options name <;> rw [h]
  obtain ⟨_, -, h⟩ | ⟨-, ⟨_, -, h⟩ | ⟨-, h⟩⟩ := external_eq t ns symbol <;> rw [h] <;> rfl

end SymbolTable

namespace Draft

/-- The names of a type have slots. -/
def Knows (d : Draft) (type : Ty) : Prop := ∀ name ∈ type.names, d.symbols.Settled d.options name

/-- The draft has all names and all bodies of types that another one had. -/
structure Extends (d d' : Draft) : Prop where
  options : d'.options = d.options
  symbols : d.symbols.Extends d'.symbols
  types : ∀ (text : String) (id : BodyId), d.types[text]? = some id → d'.types[text]? = some id
  sharedLibrary : d'.sharedLibrary = d.sharedLibrary

namespace Extends

variable {d d' d'' : Draft}

theorem refl (d : Draft) : d.Extends d := ⟨rfl, .refl _, fun _ _ h => h, rfl⟩

theorem trans (h : d.Extends d') (h' : d'.Extends d'') : d.Extends d'' where
  options := h'.options.trans h.options
  symbols := h.symbols.trans h'.symbols
  types text id ht := h'.types text id (h.types text id ht)
  sharedLibrary := h'.sharedLibrary.trans h.sharedLibrary

/-- Bodies wait or do not, and nothing else changes. -/
theorem queues (d : Draft) (queues : Queues) : d.Extends { d with queues } :=
  ⟨rfl, .refl _, fun _ _ h => h, rfl⟩

/-- Bodies are written, and nothing else changes. -/
theorem write (d : Draft) (body : Section) : d.Extends { d with body } :=
  ⟨rfl, .refl _, fun _ _ h => h, rfl⟩

theorem settled (h : d.Extends d') {name : String} (hn : d.symbols.Settled d.options name) :
    d'.symbols.Settled d'.options name := h.options ▸ h.symbols.settled hn

theorem knows (h : d.Extends d') {type : Ty} (hk : d.Knows type) : d'.Knows type :=
  fun name hn => h.settled (hk name hn)

/-- A type whose names have slots keeps its shape. -/
theorem shape (h : d.Extends d') {type : Ty} (hk : d.Knows type) :
    type.shape d'.symbols.slotOf = type.shape d.symbols.slotOf :=
  Ty.shape_congr fun name hn => h.symbols.slotOf (hk name hn).ne_none

end Extends

theorem sound_new (ns : String) (sharedLibrary : Option String) (options : Options) :
    (Draft.new ns sharedLibrary options).symbols.Sound :=
  have sound := SymbolTable.sound_new ns
  sound.grow (sound.pool.internOpt sharedLibrary) (StringPool.extends_internOpt _ _)
    (Nat.le_refl _)

end Draft

/-- The draft gained nothing but strings and slots. -/
structure Draft.Names (d d' : Draft) : Prop where
  eq : d' = { d with symbols := d'.symbols }
  symbols : d.symbols.Extends d'.symbols
  handedOut : d'.symbols.handedOut = d.symbols.handedOut
  sound : d.symbols.Sound → d'.symbols.Sound

namespace Draft.Names

variable {d d' d'' : Draft}

theorem refl (d : Draft) : d.Names d := ⟨rfl, .refl _, rfl, id⟩

theorem trans (h : d.Names d') (h' : d'.Names d'') : d.Names d'' where
  eq := by rw [h'.eq, h.eq]
  symbols := h.symbols.trans h'.symbols
  handedOut := h'.handedOut.trans h.handedOut
  sound hs := h'.sound (h.sound hs)

theorem types (h : d.Names d') : d'.types = d.types := by rw [h.eq]

theorem queues (h : d.Names d') : d'.queues = d.queues := by rw [h.eq]

theorem body (h : d.Names d') : d'.body = d.body := by rw [h.eq]

theorem toExtends (h : d.Names d') : d.Extends d' where
  options := by rw [h.eq]
  symbols := h.symbols
  types text id ht := by rwa [h.types]
  sharedLibrary := by rw [h.eq]

end Draft.Names

namespace Build

variable {d d' : Draft}

theorem Within.yields {α : Type} {R : Draft → Draft → Prop} {x : Build α} {a : α} (h : Within R x)
    (hx : x.Yields d a d') : R d d' := hx.after ▸ h d

/-! ### Names -/

theorem within_resolve (name : String) : Within Draft.Names (resolve name) :=
  within_onSymbols fun _ =>
    ⟨rfl, SymbolTable.extends_resolve _ _ _, SymbolTable.handedOut_resolve _ _ _,
      fun hs => hs.resolve _ _⟩

theorem within_intern (s : String) : Within Draft.Names (intern s) :=
  within_onSymbols fun _ => ⟨rfl, SymbolTable.extends_intern _ _, rfl, fun hs => hs.intern s⟩

theorem within_internOpt (s : Option String) : Within Draft.Names (internOpt s) := by
  cases s with
  | none => exact within_pure .refl none
  | some s => exact (within_intern s).bind (fun _ _ _ => .trans) fun _ => within_pure .refl _

theorem within_domains (names : List String) : Within Draft.Names (domains names) :=
  (Within.mapM .refl (fun _ _ _ => .trans) within_resolve names).bind (fun _ _ _ => .trans)
    fun _ => within_pure .refl _

theorem within_shape (type : Ty) : Within Draft.Names (shape type) := by
  have keep : ∀ s : Shape, Within Draft.Names (pure s : Build Shape) := within_pure .refl
  induction type with
  | scalar kind p => exact keep _
  | interface name p => exact (within_resolve name).bind (fun _ _ _ => .trans) fun _ => keep _
  | array element z l p ih => exact ih.bind (fun _ _ _ => .trans) fun _ => keep _
  | list element p ih => exact ih.bind (fun _ _ _ => .trans) fun _ => keep _
  | slist element p ih => exact ih.bind (fun _ _ _ => .trans) fun _ => keep _
  | hash key value p ihk ihv =>
    exact ihk.bind (fun _ _ _ => .trans) fun _ => ihv.bind (fun _ _ _ => .trans) fun _ => keep _
  | error names p => exact (within_domains names).bind (fun _ _ _ => .trans) fun _ => keep _

/-! ### Shapes -/

theorem Yields.settled {name : String} {ref : DirRef} (h : (resolve name).Yields d ref d')
    (hs : d.symbols.Sound) :
    ref = d'.symbols.slotOf name ∧ d'.symbols.Settled d'.options name := by
  obtain ⟨t, ht, rfl⟩ := yields_resolve.1 h
  exact hs.settled ht

theorem yields_mapM_resolve {names : List String} : ∀ {d : Draft} {refs : List DirRef},
    d.symbols.Sound → (names.mapM resolve).Yields d refs d' →
    refs = names.map d'.symbols.slotOf ∧
      ∀ name ∈ names, d'.symbols.Settled d'.options name := by
  induction names with
  | nil =>
    intro d refs hs h
    obtain ⟨rfl, rfl⟩ := yields_nil_mapM.1 h
    simp
  | cons name names ih =>
    intro d refs hs h
    obtain ⟨ref, d₁, rest, hname, hrest, rfl⟩ := yields_cons_mapM.1 h
    have hd₁ := (within_resolve name).yields hname
    have hd' := (Within.mapM .refl (fun _ _ _ => .trans) within_resolve names).yields hrest
    obtain ⟨rfl, hsettled⟩ := hname.settled hs
    obtain ⟨rfl, hall⟩ := ih (hd₁.sound hs) hrest
    have hkeep := hd'.toExtends.settled hsettled
    refine ⟨by rw [List.map_cons, hd'.symbols.slotOf hsettled.ne_none], ?_⟩
    exact List.forall_mem_cons.2 ⟨hkeep, hall⟩

theorem yields_domains {names : List String} {refs : List DirRef} (hs : d.symbols.Sound)
    (h : (domains names).Yields d refs d') :
    refs = DirRef.sorted (names.map d'.symbols.slotOf) ∧
      ∀ name ∈ names, d'.symbols.Settled d'.options name := by
  obtain ⟨rs, d₁, hrs, hpure⟩ := yields_bind.1 h
  obtain ⟨rfl, rfl⟩ := yields_pure.1 hpure
  obtain ⟨rfl, hall⟩ := yields_mapM_resolve hs hrs
  exact ⟨rfl, hall⟩

/-- The shape of a type is the one that the slots of its names make. -/
theorem yields_shape {type : Ty} : ∀ {d d' : Draft} {s : Shape}, d.symbols.Sound →
    (shape type).Yields d s d' → s = type.shape d'.symbols.slotOf ∧ d'.Knows type := by
  have nested {element : Ty} (wrap : Shape → Shape) {d d' : Draft} {s : Shape}
      (ih : ∀ {d d' : Draft} {s : Shape}, d.symbols.Sound → (shape element).Yields d s d' →
        s = element.shape d'.symbols.slotOf ∧ d'.Knows element) (hs : d.symbols.Sound)
      (h : (shape element >>= fun s => pure (wrap s)).Yields d s d') :
      s = wrap (element.shape d'.symbols.slotOf) ∧ d'.Knows element := by
    obtain ⟨e, d₁, he, hpure⟩ := yields_bind.1 h
    obtain ⟨rfl, rfl⟩ := yields_pure.1 hpure
    obtain ⟨rfl, hk⟩ := ih hs he
    exact ⟨rfl, hk⟩
  induction type with
  | scalar kind p =>
    intro d d' s hs h
    obtain ⟨rfl, rfl⟩ := yields_pure.1 h
    exact ⟨rfl, by simp [Draft.Knows, Ty.names]⟩
  | interface name p =>
    intro d d' s hs h
    obtain ⟨ref, d₁, href, hpure⟩ := yields_bind.1 h
    obtain ⟨rfl, rfl⟩ := yields_pure.1 hpure
    obtain ⟨rfl, hsettled⟩ := href.settled hs
    exact ⟨rfl, by simpa [Draft.Knows, Ty.names] using hsettled⟩
  | array element z l p ih => exact nested (fun s => .array s z l p) ih
  | list element p ih => exact nested (fun s => .list s p) ih
  | slist element p ih => exact nested (fun s => .slist s p) ih
  | hash key value p ihk ihv =>
    intro d d' s hs h
    obtain ⟨k, d₁, hk, h⟩ := yields_bind.1 h
    obtain ⟨v, d₂, hv, hpure⟩ := yields_bind.1 h
    obtain ⟨rfl, rfl⟩ := yields_pure.1 hpure
    have hd₁ := (within_shape key).yields hk
    have hd₂ := (within_shape value).yields hv
    obtain ⟨rfl, hkk⟩ := ihk hs hk
    obtain ⟨rfl, hkv⟩ := ihv (hd₁.sound hs) hv
    -- the names of the value may add slots, but those of the key keep theirs
    refine ⟨by rw [Ty.shape, hd₂.toExtends.shape hkk], fun name hn => ?_⟩
    rcases List.mem_append.1 hn with hn | hn
    · exact hd₂.toExtends.knows hkk name hn
    · exact hkv name hn
  | error names p =>
    intro d d' s hs h
    obtain ⟨refs, d₁, hrefs, hpure⟩ := yields_bind.1 h
    obtain ⟨rfl, rfl⟩ := yields_pure.1 hpure
    obtain ⟨rfl, hall⟩ := yields_domains hs hrefs
    exact ⟨rfl, hall⟩

end Build

end Typelib
