import Typelib.Proofs.Body.Bodies

/-!
# All bodies of a description

The entries of a description are registered in their order, so that the first identities and the
first slots are theirs. When nothing waits any more and there are as many bodies as identities, each
identity has its body.

* `Draft.Registered`: all entries have their slots, and nothing is written yet;
* `Build.finished_document`: what a build of a whole description leaves;
* `Ledger.written_of_bodyCount`: all that was promised is written.
-/

namespace Typelib

/-! ### The names of the file -/

/-- The draft is that of a namespace, with the name of its shared library. -/
structure Draft.Titled (d : Draft) (ns : String) (sharedLibrary : Option String)
    (options : Options) : Prop where
  options : d.options = options
  namespaceName : d.symbols.namespaceName = ns
  sharedLibrary : d.sharedLibrary.map some = sharedLibrary.map d.symbols.pool.get?

namespace Draft

variable {d d' : Draft} {ns : String} {sharedLibrary : Option String} {options : Options}

theorem titled_new (ns : String) (sharedLibrary : Option String) (options : Options) :
    (Draft.new ns sharedLibrary options).Titled ns sharedLibrary options := by
  refine ⟨rfl, rfl, ?_⟩
  cases sharedLibrary with
  | none => rfl
  | some s => exact congrArg some (StringPool.get?_internOpt _ s)

theorem Titled.mono (h : d.Titled ns sharedLibrary options)
    (hlib : d'.sharedLibrary = d.sharedLibrary) (hopt : d'.options = d.options)
    (hns : d'.symbols.namespaceName = d.symbols.namespaceName)
    (hpool : d.symbols.pool.Extends d'.symbols.pool) : d'.Titled ns sharedLibrary options where
  options := hopt.trans h.options
  namespaceName := hns.trans h.namespaceName
  sharedLibrary := by
    have hold := h.sharedLibrary
    cases sharedLibrary with
    | none => rw [hlib]; exact hold
    | some s =>
      cases ho : d.sharedLibrary with
      | none => rw [ho] at hold; cases hold
      | some offset =>
        rw [ho] at hold
        have hs : d.symbols.pool.get? s = some offset := (Option.some.inj hold).symm
        rw [hlib, ho, Option.map_some, Option.map_some, hpool s offset hs]

end Draft

/-! ### Registration -/

/-- No body is promised by what waits or is shared, and nothing is written. -/
structure Draft.Blank (d : Draft) : Prop where
  types : d.types = {}
  queues : d.queues = {}
  body : d.body = {}

theorem Draft.Blank.resymbol {d : Draft} (h : d.Blank) (t : SymbolTable) :
    Blank { d with symbols := t } := ⟨h.types, h.queues, h.body⟩

/-- Where nothing is written, anything may be promised. -/
theorem Ledger.of_blank {works : List Work} {d : Draft} (hs : d.symbols.Sound) (hb : d.Blank)
    (hfew : d.symbols.handedOut < UInt32.size) (hlength : works.length = d.symbols.handedOut) :
    Ledger works d [] := by
  have hstart : ∀ id, d.body.startOf? id = none := fun id => by
    rw [hb.body]
    simp [Section.startOf?]
  have never : ∀ id start, d.body.startOf? id ≠ some start := fun id start h => by
    rw [hstart] at h
    cases h
  refine ⟨⟨hs, hfew, hlength, ?_, ?_, ?_, ?_⟩, ?_, ⟨[], .nil, .nil, fun id => by simp [hstart]⟩,
    fun id start h => absurd h (never id start), fun id start h => absurd h (never id start),
    fun id _ start h => absurd h (never id start)⟩
  · simp [hb.types]
  · simp [hb.queues, Fifo.toList]
  · simp [hb.queues, Fifo.toList]
  · simp [hb.queues, Fifo.toList]
  · rw [hb.body]
    exact Section.made_empty

/-- The entries have the first slots and identities, and nothing is written yet. -/
structure Draft.Registered (d : Draft) (nodes : List Node) : Prop where
  symbols : d.symbols.Sound
  handedOut : d.symbols.handedOut = nodes.length
  types : d.types = {}
  queues : d.queues = {}
  body : d.body = {}
  size : d.symbols.slots.size = nodes.length
  localNames : d.symbols.localNames.toList = nodes.map Node.name
  slot : ∀ (i : Nat) (node : Node), nodes[i]? = some node → ∃ kind offset,
    node.entryKind? = some kind ∧ d.symbols.slots[i]? = some ⟨kind, offset, .body (.ofNat i)⟩

theorem Draft.registered_new (ns : String) (sharedLibrary : Option String) (options : Options) :
    (Draft.new ns sharedLibrary options).Registered [] where
  symbols := sound_new ns sharedLibrary options
  handedOut := rfl
  types := rfl
  queues := rfl
  body := rfl
  size := rfl
  localNames := rfl
  slot i node h := by simp at h

namespace Build

variable {d d' : Draft} {nodes : List Node}

/-- One more entry gets its slot. -/
theorem registered_concat {node : Node} {kind : EntryKind} {symbol : Symbol}
    (hd : d.Registered nodes) (hk : node.entryKind? = some kind)
    (h : (onSymbols fun _ t => t.register node.name kind).Yields d symbol d') :
    d'.Registered (nodes ++ [node]) ∧ d'.sharedLibrary = d.sharedLibrary ∧
      d'.options = d.options ∧ d'.symbols.namespaceName = d.symbols.namespaceName ∧
      d.symbols.pool.Extends d'.symbols.pool := by
  obtain ⟨t, hreg, rfl⟩ := yields_onSymbols.1 h
  have hsound := hd.symbols.register node.name kind
  have hsize := hd.size
  obtain ⟨e, he⟩ | ⟨-, -, ⟨ref, -, he⟩ | ⟨-, he⟩⟩ :=
    SymbolTable.register_eq d.symbols node.name kind
  · rw [he] at hreg
    cases hreg
  · rw [hreg] at hsound
    rw [he] at hreg
    cases hreg
    refine ⟨⟨hsound, ?_, hd.types, hd.queues, hd.body, ?_, ?_, fun i n hn => ?_⟩, rfl, rfl, rfl,
      StringPool.extends_intern _ _⟩
    · rw [List.length_append]
      exact congrArg Nat.succ hd.handedOut
    · simp [hsize]
    · simp [hd.localNames]
    · rw [List.getElem?_append] at hn
      split at hn
      next hi =>
        obtain ⟨kind', offset, hk', hslot⟩ := hd.slot i n hn
        exact ⟨kind', offset, hk', SymbolTable.getElem?_push_of_some hslot⟩
      next hi =>
        obtain ⟨hlast, hi'⟩ := List.getElem?_eq_some_iff.1 hn
        rw [List.length_singleton] at hlast
        -- the last node has the slot that was pushed
        have hi₀ : i = nodes.length := by omega
        subst hi₀
        simp only [Nat.sub_self, List.getElem_singleton] at hi'
        subst hi'
        refine ⟨kind, (d.symbols.allocate.2.intern node.name).1, hk, ?_⟩
        have hpush := @Array.getElem?_push_size _ d.symbols.slots
          ⟨kind, (d.symbols.allocate.2.intern node.name).1, .body d.symbols.nextId⟩
        rw [hsize] at hpush
        exact hpush.trans (by rw [SymbolTable.nextId, hd.handedOut])
  · rw [he] at hreg
    cases hreg

/-- All entries get their slots, in order. -/
theorem registered_register {ns : String} {sharedLibrary : Option String} {options : Options}
    {rest : List Node} : ∀ {d : Draft} {done : List Node}, d.Registered done →
    d.Titled ns sharedLibrary options → (register rest).Yields d () d' →
    d'.Registered (done ++ rest) ∧ d'.Titled ns sharedLibrary options := by
  induction rest with
  | nil =>
    intro d done hd ht h
    obtain ⟨-, rfl⟩ := yields_pure.1 h
    rw [List.append_nil]
    exact ⟨hd, ht⟩
  | cons node rest ih =>
    intro d done hd ht h
    rw [register] at h
    split at h
    · exact absurd h not_yields_throw
    next kind hk =>
      obtain ⟨symbol, d₁, hsymbol, hrest⟩ := yields_bind.1 h
      obtain ⟨hd₁, hlib, hopt, hns, hpool⟩ := registered_concat hd hk hsymbol
      have hall := ih hd₁ (ht.mono hlib hopt hns hpool) hrest
      rwa [List.append_assoc, List.singleton_append] at hall

end Build

namespace Draft.Registered

variable {d : Draft} {nodes : List Node}

/-- The entries have slots, so there are identities for all of them. -/
theorem few (hd : d.Registered nodes) : d.symbols.handedOut < UInt32.size := by
  have hslots := hd.symbols.size
  rw [hd.size] at hslots
  rw [hd.handedOut]
  exact Nat.lt_trans hslots (by decide)

/-- The names, the slots and the identities of the entries go together. -/
theorem lookup (hd : d.Registered nodes) {i : Nat} {node : Node} (hi : nodes[i]? = some node) :
    ∃ kind offset ref, node.entryKind? = some kind ∧ DirRef.ofIndex? i = some ref ∧
      d.symbols.lookup node.name = some ⟨.ofNat i, ref⟩ ∧
      d.symbols.slots[i]? = some ⟨kind, offset, .body (.ofNat i)⟩ ∧
      d.symbols.pool.get? node.name = some offset := by
  have hname : d.symbols.localNames[i]? = some node.name := by
    rw [← Array.getElem?_toList, hd.localNames, List.getElem?_map, hi]
    rfl
  obtain ⟨⟨id, ref⟩, slot, hs, hr, -, hslot, ht, hn⟩ := hd.symbols.localSlot i _ hname
  obtain ⟨kind, offset, hk, hslot'⟩ := hd.slot i node hi
  rw [hslot] at hslot'
  cases hslot'
  cases ht
  exact ⟨kind, offset, ref, hk, hr, hs, hslot, hn⟩

theorem ledger (hd : d.Registered nodes) : Ledger (nodes.map .entry) d [] :=
  .of_blank hd.symbols ⟨hd.types, hd.queues, hd.body⟩ hd.few (by rw [List.length_map, hd.handedOut])

theorem promised (hd : d.Registered nodes) {node : Node} (hn : node ∈ nodes) :
    Promised (nodes.map .entry) d node := by
  obtain ⟨i, hi⟩ := List.getElem?_of_mem hn
  obtain ⟨_, _, ref, -, href, hs, -⟩ := hd.lookup hi
  refine ⟨⟨.ofNat i, ref⟩, hs, ?_⟩
  rw [DirRef.toNat_position href, List.getElem?_map, hi]
  rfl

end Draft.Registered

/-! ### Whole descriptions -/

/-- All entries of a description are written, with all that they call for, and promised the bodies
of their signatures and values in order. -/
structure Finished (nodes : List Node) (works : List Work) (d : Draft) (ps : List Piece)
    (idss : List (List BodyId)) : Prop where
  ledger : Ledger works d ps
  entries : List.Forall₂ (EntryWritten works d ps) nodes idss
  increasing : idss.flatten.Pairwise (· < ·)
  localNames : d.symbols.localNames.toList = nodes.map Node.name
  slot : ∀ (i : Nat) (node : Node), nodes[i]? = some node → ∃ kind offset ref,
    node.entryKind? = some kind ∧ DirRef.ofIndex? i = some ref ∧
    d.symbols.lookup node.name = some ⟨.ofNat i, ref⟩ ∧
    d.symbols.slots[i]? = some ⟨kind, offset, .body (.ofNat i)⟩ ∧
    d.symbols.pool.get? node.name = some offset

theorem Finished.toNat_id {nodes : List Node} {works : List Work} {d : Draft} {ps : List Piece}
    {idss : List (List BodyId)} (hf : Finished nodes works d ps idss) {i : Nat} {node : Node}
    (hi : nodes[i]? = some node) : (UInt32.ofNat i).toNat = i := by
  obtain ⟨_, _, _, -, href, -⟩ := hf.slot i node hi
  exact DirRef.toNat_position href

/-- The body of an entry is the one with the identity of its slot. -/
theorem Finished.written {nodes : List Node} {works : List Work} {d : Draft} {ps : List Piece}
    {idss : List (List BodyId)} (hf : Finished nodes works d ps idss) {i : Nat} {node : Node}
    {ids : List BodyId} (hi : nodes[i]? = some node) (hids : idss[i]? = some ids) :
    works[i]? = some (.entry node) ∧ Written works d ps (.ofNat i) ids := by
  obtain ⟨_, _, ref, -, -, hs, -⟩ := hf.slot i node hi
  obtain ⟨hlt, rfl⟩ := List.getElem?_eq_some_iff.1 hi
  obtain ⟨hlt', rfl⟩ := List.getElem?_eq_some_iff.1 hids
  obtain ⟨symbol, hs', hwork, hw⟩ := hf.entries.get hlt hlt'
  simp only [List.get_eq_getElem] at hs' hwork hw
  rw [hs] at hs'
  cases hs'
  rw [hf.toNat_id hi] at hwork
  exact ⟨hwork, hw⟩

theorem Build.finished_document {ns : String} {sharedLibrary : Option String} {options : Options}
    {nodes : List Node} {d : Draft}
    (h : (document nodes).Yields (.new ns sharedLibrary options) () d)
    (hfew : d.symbols.handedOut < UInt32.size) :
    d.Titled ns sharedLibrary options ∧ ∃ works ps idss, Finished nodes works d ps idss := by
  obtain ⟨_, d₁, hreg, hentries⟩ := yields_bind.1 h
  obtain ⟨hd₁, ht₁⟩ := registered_register (Draft.registered_new ns sharedLibrary options)
    (Draft.titled_new ns sharedLibrary options) hreg
  rw [List.nil_append] at hd₁
  obtain ⟨works, ps, idss, hl, hg, hall, hids⟩ :=
    ledger_entries hd₁.ledger (fun _ => hd₁.promised) hentries hfew
  have hx := hg.toExtends
  refine ⟨ht₁.mono hx.sharedLibrary hx.options hx.symbols.namespaceName hx.symbols.pool, works, ps,
    idss, hl, hall, hids.2, ?_, fun i node hi => ?_⟩
  · rw [hx.symbols.localNames, hd₁.localNames]
  · obtain ⟨kind, offset, ref, hk, hr, hs, hslot, hn⟩ := hd₁.lookup hi
    refine ⟨kind, offset, ref, hk, hr, ?_, hx.symbols.slots _ _ hslot, hx.symbols.pool _ _ hn⟩
    rwa [SymbolTable.lookup, hx.symbols.locals]

/-- If there are as many bodies as the next identity tells, all that was promised is written. -/
theorem Ledger.written_of_bodyCount {works : List Work} {d : Draft} {ps : List Piece}
    (hl : Ledger works d ps) (hc : d.body.bodyCount = d.symbols.allocated) {id : BodyId}
    (hid : id.toNat < works.length) :
    ∃ start ids, d.body.startOf? id = some start ∧ Written works d ps id ids := by
  have hfew := hl.accounts.few
  rw [SymbolTable.allocated, SymbolTable.toNat_nextId hfew, ← hl.accounts.length] at hc
  rw [← hl.accounts.length] at hfew
  have hall := (Section.bodyCount_eq_iff (Nat.le_of_lt hfew) fun _ _ => hl.lt_of_start).1 hc
  obtain ⟨start, hs⟩ := hall id hid
  obtain ⟨ids, hw⟩ := hl.written id start hs
  exact ⟨start, ids, hs, hw⟩

end Typelib
