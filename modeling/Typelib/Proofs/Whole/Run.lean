import Typelib.Proofs.Symbols.Registered
import Typelib.Proofs.Whole.Registration

/-!
# Runs that leave no body unfinished

Operations on a draft may fail, and others follow. As long as none of them fails behind the
beginning of a body, each body that was begun is whole, or an identity is lost.

* `Operation.late`, `Operation.written`: the nodes that get slots behind the first operation of a run,
  and those whose entries are written;
* `Operation.Unbroken`: no operation fails behind the beginning of a body;
* `Draft.Whole`: the entries that were registered have their slots, and all bodies are whole;
* `Operation.whole_step`: what one operation leaves;
* `Operation.whole_after`: what a run leaves.
-/

namespace Typelib

/-! ### Runs -/

namespace Operation

/-- The nodes that get slots in a run behind its first operation. -/
def late : List Operation → Draft → List Node
  | [], _ => []
  | op :: ops, d => registered ops (op.run.after d)

/-- The node whose entry is written by an operation, if its name has a slot. -/
def writes? : Operation → Draft → Option Node
  | entry node, d => (d.symbols.lookup node.name).map fun _ => node
  | _, _ => none

/-- The nodes whose entries are written in a run, one by one. -/
def written : List Operation → Draft → List Node
  | [], _ => []
  | op :: ops, d => (op.writes? d).toList ++ written ops (op.run.after d)

theorem written_append (ops ops' : List Operation) (d : Draft) :
    written (ops ++ ops') d = written ops d ++ written ops' (after ops d) := by
  induction ops generalizing d with
  | nil => rfl
  | cons op ops ih => rw [List.cons_append, written, written, ih, List.append_assoc, after]

theorem after_append (ops ops' : List Operation) (d : Draft) :
    after (ops ++ ops') d = after ops' (after ops d) := by
  induction ops generalizing d with
  | nil => rfl
  | cons op ops ih => exact ih _

/-- The operation writes parts of a body, whichever this may be. -/
def isLoose : Operation → Bool
  | cells _ => true
  | _ => false

/-- No operation fails and leaves a body behind that it began. -/
def Unbroken : List Operation → Draft → Prop
  | [], _ => True
  | op :: ops, d =>
    ((op.run.outcome d).1.isOk = true ∨
        (op.run.after d).body.starts.toList = d.body.starts.toList) ∧
      Unbroken ops (op.run.after d)

instance decidableUnbroken : (ops : List Operation) → (d : Draft) → Decidable (Unbroken ops d)
  | [], _ => inferInstanceAs (Decidable True)
  | op :: ops, d =>
    have := decidableUnbroken ops (op.run.after d)
    inferInstanceAs (Decidable (_ ∧ _))

theorem unbroken_append {ops ops' : List Operation} {d : Draft} (h : Unbroken (ops ++ ops') d) :
    Unbroken ops' (after ops d) := by
  induction ops generalizing d with
  | nil => exact h
  | cons op ops ih => exact ih h.2

end Operation

/-! ### Whole drafts -/

/-- A body that was begun behind all others was not there before. -/
theorem Ledger.not_began {works : List Work} {d d' : Draft} {ps : List Piece}
    (hl : Ledger works d ps) (h : d'.body.starts.toList = d.body.starts.toList) : ¬ d.Began d' := by
  rintro ⟨id, pos, hs, hle⟩
  have hmem : (id, pos) ∈ d'.body.starts.toList :=
    Std.TreeMap.mem_toList_iff_getElem?_eq_some.2 hs
  rw [h] at hmem
  have hlt := hl.start_lt id pos (Std.TreeMap.mem_toList_iff_getElem?_eq_some.1 hmem)
  omega

namespace Draft

/-- The node has the slot at its position, and the body there was promised to it. -/
def Enters (d : Draft) (works : List Work) (i : Nat) (node : Node) : Prop :=
  ∃ kind offset ref id, node.entryKind? = some kind ∧ DirRef.ofIndex? i = some ref ∧
    d.symbols.lookup node.name = some ⟨id, ref⟩ ∧
    d.symbols.slots[i]? = some ⟨kind, offset, .body id⟩ ∧
    d.symbols.pool.get? node.name = some offset ∧ works[id.toNat]? = some (.entry node)

/-- Some nodes were registered, in their order, and each body that was begun is whole. -/
structure Whole (d : Draft) (ns : String) (sharedLibrary : Option String) (options : Options)
    (nodes : List Node) : Prop where
  titled : d.Titled ns sharedLibrary options
  localNames : d.symbols.localNames.toList = nodes.map Node.name
  ledger : ∃ works ps, Ledger works d ps ∧
    ∀ (i : Nat) (node : Node), nodes[i]? = some node → d.Enters works i node

variable {d d' : Draft} {works works' : List Work} {ps ps' : List Piece} {ns : String}
  {sharedLibrary : Option String} {options : Options} {nodes : List Node}

theorem whole_new (ns : String) (sharedLibrary : Option String) (options : Options) :
    (Draft.new ns sharedLibrary options).Whole ns sharedLibrary options [] where
  titled := titled_new ns sharedLibrary options
  localNames := rfl
  ledger := ⟨[], [], .of_blank (sound_new ns sharedLibrary options) ⟨rfl, rfl, rfl⟩
    (show 0 < UInt32.size by decide) rfl, fun i node hi => by cases hi⟩

theorem Enters.mono {i : Nat} {node : Node} (h : d.Enters works i node)
    (hg : Grows works d ps works' d' ps') : d'.Enters works' i node := by
  obtain ⟨kind, offset, ref, id, hk, hr, hs, hslot, hn, hw⟩ := h
  have hx := hg.toExtends.symbols
  refine ⟨kind, offset, ref, id, hk, hr, ?_, hx.slots _ _ hslot, hx.pool _ _ hn,
    getElem?_of_prefix hg.works hw⟩
  rwa [SymbolTable.lookup, hx.locals]

theorem Enters.promised {i : Nat} {node : Node} (h : d.Enters works i node) :
    Promised works d node := by
  obtain ⟨_, _, ref, id, -, -, hs, -, -, hw⟩ := h
  exact ⟨⟨id, ref⟩, hs, hw⟩

/-- More bodies are written, and nothing is registered. -/
theorem Whole.grow (h : d.Whole ns sharedLibrary options nodes) (hl : Ledger works' d' ps')
    (henters : ∀ (i : Nat) (node : Node), nodes[i]? = some node → d.Enters works i node)
    (hg : Grows works d ps works' d' ps') : d'.Whole ns sharedLibrary options nodes := by
  have hx := hg.toExtends
  refine ⟨h.titled.mono hx.sharedLibrary hx.options hx.symbols.namespaceName hx.symbols.pool,
    hx.symbols.localNames ▸ h.localNames, works', ps', hl, fun i node hi => ?_⟩
  exact (henters i node hi).mono hg

/-- The body of the only node with a name is promised to it, if it has a slot. -/
theorem Whole.promised_of_lookup (h : d.Whole ns sharedLibrary options nodes)
    (hs : d.symbols.Sound)
    (henters : ∀ (i : Nat) (node : Node), nodes[i]? = some node → d.Enters works i node)
    {node : Node} (honly : ∀ n ∈ nodes, n.name = node.name → n = node) {symbol : Symbol}
    (hlookup : d.symbols.lookup node.name = some symbol) :
    works[symbol.id.toNat]? = some (.entry node) := by
  have hname := hs.mem_localNames.2 ⟨symbol, hlookup⟩
  rw [h.localNames] at hname
  obtain ⟨n, hn, he⟩ := List.mem_map.1 hname
  obtain rfl := honly n hn he
  obtain ⟨i, hi⟩ := List.getElem?_of_mem hn
  obtain ⟨symbol', hlookup', hw⟩ := (henters i n hi).promised
  rw [hlookup] at hlookup'
  cases hlookup'
  exact hw

/-- One more node is registered, while nothing is written or without hiding a name. -/
theorem Whole.register {node : Node} {kind : EntryKind} {symbol : Symbol} {t : SymbolTable}
    (h : d.Whole ns sharedLibrary options nodes) (hk : node.entryKind? = some kind)
    (hr : d.symbols.register node.name kind = (.ok symbol, t)) (hfew : t.handedOut < UInt32.size)
    (hplace : d.Blank ∨ ¬ d.symbols.Hides node.name) :
    Whole { d with symbols := t } ns sharedLibrary options (nodes ++ [node]) := by
  obtain ⟨works, ps, hl, henters⟩ := h.ledger
  have hsound := hl.accounts.symbols.register node.name kind
  rw [hr] at hsound
  have hlength : nodes.length = d.symbols.localNames.size := by
    rw [← Array.length_toList, h.localNames, List.length_map]
  obtain ⟨ps', hl'⟩ : ∃ ps', Ledger (works ++ [.entry node]) { d with symbols := t } ps' := by
    rcases hplace with hblank | hhides
    · refine ⟨[], .of_blank hsound (hblank.resymbol t) hfew ?_⟩
      obtain ⟨-, -, -, -, rfl⟩ := SymbolTable.register_eq_ok hr
      rw [List.length_append, hl.accounts.length]
      rfl
    · exact ⟨ps, hl.register hr hfew hhides⟩
  have hcount := hl.accounts.symbols.count
  have hgains := SymbolTable.gains_register d.symbols node.name kind
  rw [hr] at hgains
  obtain ⟨-, hsize, hid, href, rfl⟩ := SymbolTable.register_eq_ok hr
  refine ⟨h.titled.mono rfl rfl rfl hgains.pool, by simp [h.localNames], works ++ [.entry node], ps', hl',
    fun i n hi => ?_⟩
  obtain ⟨id, ref⟩ := symbol
  obtain rfl : id = d.symbols.nextId := hid
  rw [List.getElem?_append] at hi
  split at hi
  next hlt =>
    obtain ⟨kind', offset, ref', id, hk', hr', hs, hslot, hn, hw⟩ := henters i n hi
    exact ⟨kind', offset, ref', id, hk', hr', hgains.lookup _ _ hs, hgains.slots _ _ hslot,
      hgains.pool _ _ hn, getElem?_of_prefix (List.prefix_append _ _) hw⟩
  next hge =>
    -- the new node has the slot that was pushed
    obtain ⟨hlast, rfl⟩ := List.getElem?_eq_some_iff.1 hi
    rw [List.length_singleton] at hlast
    obtain rfl : i = d.symbols.slots.size := by omega
    rw [List.getElem_singleton]
    exact ⟨kind, _, ref, _, hk, href, by simp [SymbolTable.lookup], Array.getElem?_push_size,
      StringPool.get?_intern d.symbols.pool node.name, hl.accounts.promised (.entry node)⟩

end Draft

open Draft (Tallied)

namespace Operation

variable {d : Draft} {ns : String} {sharedLibrary : Option String} {options : Options}
  {done all : List Node}

/-- An operation that registers nothing keeps the bodies whole, unless it breaks one. -/
theorem kept {works : List Work} {ps : List Piece} {op : Operation} (hl : Ledger works d ps)
    (ht : d.Tallied) (hregisters : op.registers = false) (hloose : op.isLoose = false)
    (hentry : ∀ node ∈ op.writes? d, ∀ symbol, d.symbols.lookup node.name = some symbol →
      works[symbol.id.toNat]? = some (.entry node)) : Build.Kept works d ps op.run := by
  have drop : ∀ {α : Type} {x : Build α} {log : Log}, Build.Kept works d ps x →
      Build.Logged true x log → Build.Kept works d ps (do let _ ← x; return () : Build Unit) :=
    fun hx hlog => hx.bind hl ht hlog (fun _ => Build.logged_pure ())
      fun _ _ _ _ hl₁ _ _ => Build.kept_pure hl₁ ()
  have names : ∀ {α : Type} {x : Build α}, Build.Within Draft.Names x →
      Build.Kept works d ps (do let _ ← x; return () : Build Unit) :=
    fun hx => drop (Build.kept_names hl hx) (Build.logged_names hx)
  cases op with
  | register | document => cases hregisters
  | cells => cases hloose
  | entry node =>
    refine Build.kept_entry hl fun symbol hs => hentry node ?_ symbol hs
    rw [writes?, hs]
    exact rfl
  | next => exact drop (Build.kept_next hl ht) Build.logged_next
  | drain => exact drop (Build.kept_drain hl ht) Build.logged_drain
  | typeUse type => exact drop (Build.kept_typeUse hl type) (Build.logged_typeUse type)
  | shape type => exact names (Build.within_shape type)
  | resolve name => exact names (Build.within_resolve name)
  | intern s => exact names (Build.within_intern s)
  | allocate => exact .lost ht.lost_allocate

theorem tallied_after (ops : List Operation) (ht : d.Tallied) : (after ops d).Tallied := by
  have hmoves : Draft.Moves true d (log ops d) (after ops d) := moves (fun _ _ _ => rfl) ht.symbols
  exact hmoves.tallied ht

/-- What is lost stays lost. -/
theorem lost_after (ops : List Operation) (h : d.Lost) (ht : d.Tallied) : (after ops d).Lost := by
  have hmoves : Draft.Moves true d (log ops d) (after ops d) := moves (fun _ _ _ => rfl) ht.symbols
  exact h.moves hmoves ht.symbols

/-! ### Registration -/

/-- None of the nodes has the qualified name of a node for its name. -/
def Unhidden (ns : String) (all nodes : List Node) : Prop :=
  ∀ node ∈ nodes, ∀ other ∈ all, node.name ≠ ns ++ "." ++ other.name

instance decidableUnhidden (ns : String) (all nodes : List Node) :
    Decidable (Unhidden ns all nodes) :=
  inferInstanceAs (Decidable (∀ node ∈ nodes, ∀ other ∈ all, node.name ≠ ns ++ "." ++ other.name))

theorem Unhidden.not_hides {nodes : List Node} {node : Node} (h : Unhidden ns all nodes)
    (hn : node ∈ nodes) (hw : d.Whole ns sharedLibrary options done) (hdone : done ⊆ all) :
    ¬ d.symbols.Hides node.name := by
  rintro ⟨name, hname, hsame⟩
  rw [hw.localNames] at hname
  obtain ⟨other, hother, rfl⟩ := List.mem_map.1 hname
  rw [hw.titled.namespaceName] at hsame
  exact h node hn other (hdone hother) hsame

/-- A node that is refused leaves everything as it was, unless its identity is lost. -/
theorem refused_after {name : String} {kind : EntryKind} {e : BuildError} {t : SymbolTable}
    (ht : d.Tallied) (hr : d.symbols.register name kind = (.error e, t)) :
    t = d.symbols ∨ Draft.Lost { d with symbols := t } := by
  rcases SymbolTable.register_eq d.symbols name kind with
    ⟨_, he⟩ | ⟨-, -, ⟨_, -, he⟩ | ⟨-, he⟩⟩ <;> rw [he] at hr <;> cases hr
  · exact .inl rfl
  · -- the directory is full, but the identity is used up
    exact .inr ht.lost_allocate

/-- The nodes that can be are registered, or an identity is lost. -/
theorem register_after (rest : List Node) : ∀ {d : Draft} {done : List Node},
    d.Whole ns sharedLibrary options done → d.Tallied → done ++ Build.registered rest d ⊆ all →
    (d.Blank ∨ Unhidden ns all (Build.registered rest d)) → ((Build.register rest).after d).Lost ∨
      ((Build.register rest).after d).Whole ns sharedLibrary options
          (done ++ Build.registered rest d) ∧
        (d.Blank → ((Build.register rest).after d).Blank) := by
  induction rest with
  | nil =>
    intro d done hw _ _ _
    refine .inr ⟨?_, id⟩
    rwa [Build.registered, List.append_nil]
  | cons node rest ih =>
    intro d done hw ht hall hplace
    rcases Build.register_cons node rest d with ⟨-, hnone, he⟩ | ⟨kind, hk,
      ⟨e, t, hr, hnone, he⟩ | ⟨symbol, t, hr, hsome, he⟩⟩
    · rw [he, hnone, List.append_nil]
      exact .inr ⟨hw, id⟩
    · rw [he, hnone, List.append_nil]
      rcases refused_after ht hr with rfl | hlost
      · exact .inr ⟨hw, id⟩
      · exact .inl hlost
    · rw [hsome] at hall hplace ⊢
      rw [he]
      have hmove : Draft.Move true d [] { d with symbols := t } := by
        have h := Draft.Move.register (d := d) node.name kind (rfl : true = true)
        rwa [hr] at h
      have ht₁ := hmove.moves.tallied ht
      by_cases hfew : t.handedOut < UInt32.size
      · have hdone : done ⊆ all := (List.append_subset.1 hall).1
        have hw₁ := hw.register hk hr hfew <| hplace.imp_right fun h =>
          h.not_hides List.mem_cons_self hw hdone
        have hplace₁ := hplace.imp (·.resymbol t) fun h n hn => h n (List.mem_cons_of_mem _ hn)
        have hrest := ih hw₁ ht₁ (by simpa using hall) hplace₁
        rw [List.append_assoc] at hrest
        rcases hrest with hlost | ⟨hwhole, hblank⟩
        · exact .inl hlost
        · exact .inr ⟨hwhole, fun h => hblank (h.resymbol t)⟩
      · have hlost : Draft.Lost { d with symbols := t } := .inl (Nat.le_of_not_lt hfew)
        exact .inl (hlost.moves (Build.logged_register rest _ ht₁.symbols) ht₁.symbols)

/-- Nothing is written when nodes are registered. -/
theorem body_register (rest : List Node) :
    Build.Within (fun d d' => d'.body = d.body) (Build.register rest) := by
  have refl : ∀ d : Draft, d.body = d.body := fun _ => rfl
  induction rest with
  | nil => exact Build.within_pure refl ()
  | cons node rest ih =>
    rw [Build.register]
    split
    · exact Build.within_throw refl _
    next kind _ =>
      have hsymbols : Build.Within (fun d d' => d'.body = d.body)
        (Build.onSymbols fun _ t => t.register node.name kind) := fun _ => rfl
      exact hsymbols.bind (fun _ _ _ h h' => h'.trans h) fun _ => ih

/-- A step that keeps the bodies whole and breaks none. -/
theorem whole_of_kept {α : Type} {x : Build α} {works : List Work} {ps : List Piece}
    (hw : d.Whole ns sharedLibrary options done) (hl : Ledger works d ps)
    (henters : ∀ (i : Nat) (node : Node), done[i]? = some node → d.Enters works i node)
    (hkept : Build.Kept works d ps x) (hok : (x.outcome d).1.isOk = true ∨
      (x.after d).body.starts.toList = d.body.starts.toList) :
    (x.after d).Lost ∨ (x.after d).Whole ns sharedLibrary options done := by
  cases hkept with
  | lost h => exact .inl h
  | broken he hbegan =>
    -- a body was begun, and the step failed
    have hstarts := hok.resolve_left fun hok => by
      rw [Build.Fails] at he
      rw [he] at hok
      cases hok
    exact absurd hbegan (hl.not_began hstarts)
  | ledger hl' hg' => exact .inr (hw.grow hl' henters hg')

/-- A whole description is built, if all its nodes are registered. -/
theorem document_after {rest : List Node} (hw : d.Whole ns sharedLibrary options done)
    (ht : d.Tallied) (hall : done ++ Build.registered rest d ⊆ all)
    (hplace : d.Blank ∨ Unhidden ns all (Build.registered rest d))
    (hok : ((document rest).run.outcome d).1.isOk = true ∨
      ((document rest).run.after d).body.starts.toList = d.body.starts.toList) :
    ((document rest).run.after d).Lost ∨ ((document rest).run.after d).Whole ns sharedLibrary
      options (done ++ Build.registered rest d) := by
  have hrun : (document rest).run = (Build.register rest >>= fun _ => Build.entries rest) := rfl
  rw [hrun] at hok ⊢
  have ht₁ : ((Build.register rest).after d).Tallied := tallied_after [.register rest] ht
  have hregister := register_after rest hw ht hall hplace
  rcases Build.yields_or_fails (Build.register rest) d with ⟨_, hy⟩ | ⟨e, he⟩
  · rw [Build.after_bind_of_yields hy, Build.outcome_bind, hy, ← body_register rest d] at hok
    rw [Build.after_bind_of_yields hy]
    rcases hregister with hlost | ⟨hw₁, -⟩
    · have hmoves : Draft.Moves true _ _ _ := Build.logged_entries rest _ ht₁.symbols
      exact .inl (hlost.moves hmoves ht₁.symbols)
    · rw [Build.registered_of_yields rest hy] at hw₁ ⊢
      obtain ⟨works, ps, hl, henters⟩ := hw₁.ledger
      have hpromised : ∀ node ∈ rest, Promised works ((Build.register rest).after d) node := by
        intro node hn
        obtain ⟨i, hi⟩ := List.getElem?_of_mem (List.mem_append_right done hn)
        exact (henters i node hi).promised
      exact whole_of_kept hw₁ hl henters (Build.kept_entries hl ht₁ hpromised) hok
  · rw [Build.after_bind_of_fails he]
    exact hregister.imp_right And.left

/-! ### Runs -/

/-- One operation registers more nodes, while nothing is written or without hiding a name, and keeps
the bodies whole, or an identity is lost. -/
theorem whole_step {op : Operation} (hw : d.Whole ns sharedLibrary options done)
    (ht : d.Tallied) (hall : done ++ op.slotted d ⊆ all)
    (hplace : d.Blank ∨ Unhidden ns all (op.slotted d)) (hloose : op.isLoose = false)
    (honly : ∀ w ∈ op.writes? d, ∀ n ∈ all, n.name = w.name → n = w)
    (hok : (op.run.outcome d).1.isOk = true ∨
      (op.run.after d).body.starts.toList = d.body.starts.toList) :
    (op.run.after d).Lost ∨
      (op.run.after d).Whole ns sharedLibrary options (done ++ op.slotted d) := by
  cases hregisters : op.registers with
  | true =>
    cases op with
    | register rest => exact (register_after rest hw ht hall hplace).imp_right And.left
    | document rest => exact document_after hw ht hall hplace hok
    | _ => cases hregisters
  | false =>
    rw [slotted_eq_nil hregisters, List.append_nil] at hall ⊢
    obtain ⟨works, ps, hl, henters⟩ := hw.ledger
    have hkept := kept hl ht hregisters hloose fun node hn symbol hs =>
      hw.promised_of_lookup ht.symbols henters (fun n hmem => honly node hn n (hall hmem)) hs
    exact whole_of_kept hw hl henters hkept hok

/-- A run that hides no name keeps the bodies whole, or an identity is lost. -/
theorem whole_run (ops : List Operation) : ∀ {d : Draft} {done : List Node},
    d.Whole ns sharedLibrary options done → d.Tallied → done ++ registered ops d ⊆ all →
    Unhidden ns all (registered ops d) → (∀ op ∈ ops, op.isLoose = false) →
    (∀ w ∈ written ops d, ∀ n ∈ all, n.name = w.name → n = w) → Unbroken ops d →
    (after ops d).Lost ∨
      (after ops d).Whole ns sharedLibrary options (done ++ registered ops d) := by
  induction ops with
  | nil =>
    intro d done hw _ _ _ _ _ _
    rw [registered, List.append_nil]
    exact .inr hw
  | cons op ops ih =>
    intro d done hw ht hall hunhidden hloose honly hunbroken
    rw [List.forall_mem_cons] at hloose
    rw [registered, ← List.append_assoc] at hall ⊢
    rw [written, List.forall_mem_append] at honly
    have ht₁ : (op.run.after d).Tallied := tallied_after [op] ht
    have hplace : Unhidden ns all (op.slotted d) := fun n hn =>
      hunhidden n (List.mem_append_left _ hn)
    rcases whole_step hw ht (List.append_subset.1 hall).1 (.inr hplace) hloose.1
      (fun w hmem => honly.1 w (Option.mem_toList.2 hmem)) hunbroken.1 with hlost | hw₁
    · exact .inl (lost_after ops hlost ht₁)
    · have hrest : Unhidden ns all (registered ops (op.run.after d)) := fun n hn =>
        hunhidden n (List.mem_append_right _ hn)
      exact ih hw₁ ht₁ hall hrest hloose.2 honly.2 hunbroken.2

/-- Nodes are registered before anything else happens. -/
theorem registers_after (regs : List (List Node)) : ∀ {d : Draft} {done : List Node},
    d.Whole ns sharedLibrary options done → d.Tallied → d.Blank →
    (after (regs.map .register) d).Lost ∨
      (after (regs.map .register) d).Whole ns sharedLibrary options
          (done ++ registered (regs.map .register) d) ∧
        (after (regs.map .register) d).Blank := by
  induction regs with
  | nil =>
    intro d done hw _ hb
    refine .inr ⟨?_, hb⟩
    rwa [List.map_nil, registered, List.append_nil]
  | cons nodes regs ih =>
    intro d done hw ht hb
    rw [List.map_cons, registered, ← List.append_assoc]
    have ht₁ : ((Build.register nodes).after d).Tallied := tallied_after [.register nodes] ht
    rcases register_after nodes hw ht (List.Subset.refl _) (.inl hb) with hlost | ⟨hw₁, hblank⟩
    · exact .inl (lost_after (regs.map .register) hlost ht₁)
    · exact ih hw₁ ht₁ (hblank hb)

/-- Nodes are registered, and then anything is asked of the draft; no node that gets a slot behind
the first of these operations has the qualified name of another. If each entry is written as the node
that has its slot, and no operation breaks a body, then all bodies that were begun are whole, or an
identity is lost. -/
theorem whole_after {regs : List (List Node)} {ops : List Operation} :
    let start := Draft.new ns sharedLibrary options
    let nodes := registered (regs.map .register ++ ops) start
    Unhidden ns nodes (late ops (after (regs.map .register) start)) →
    (∀ op ∈ ops, op.isLoose = false) →
    (∀ w ∈ written (regs.map .register ++ ops) start, ∀ n ∈ nodes, n.name = w.name → n = w) →
    Unbroken (regs.map .register ++ ops) start →
    (after (regs.map .register ++ ops) start).Lost ∨
      (after (regs.map .register ++ ops) start).Whole ns sharedLibrary options nodes := by
  intro start nodes hunhidden hloose honly hunbroken
  have ht : start.Tallied := Draft.tallied_new ns sharedLibrary options
  have hops := unbroken_append hunbroken
  have ht₁ := tallied_after (regs.map .register) ht
  have hnodes : nodes = registered (regs.map .register) start ++
    registered ops (after (regs.map .register) start) := registered_append _ _ _
  rw [written_append, List.forall_mem_append] at honly
  have honly := honly.2
  rw [after_append, hnodes]
  rcases registers_after regs (Draft.whole_new ns sharedLibrary options) ht ⟨rfl, rfl, rfl⟩ with
    hlost | ⟨hw, hb⟩
  · exact .inl (lost_after ops hlost ht₁)
  rw [List.nil_append] at hw
  generalize after (regs.map .register) start = d at *
  generalize registered (regs.map .register) start = done at *
  cases ops with
  | nil =>
    rw [registered, List.append_nil]
    exact .inr hw
  | cons op ops =>
    rw [List.forall_mem_cons] at hloose
    rw [registered, ← List.append_assoc] at hnodes ⊢
    rw [written, List.forall_mem_append] at honly
    have ht₂ : (op.run.after d).Tallied := tallied_after [op] ht₁
    have hall : done ++ op.slotted d ⊆ nodes := hnodes ▸ List.subset_append_left _ _
    rcases whole_step hw ht₁ hall (.inl hb) hloose.1
      (fun w hmem => honly.1 w (Option.mem_toList.2 hmem)) hops.1 with hlost | hw₁
    · exact .inl (lost_after ops hlost ht₂)
    · exact whole_run ops hw₁ ht₂ (hnodes ▸ List.Subset.refl _) hunhidden hloose.2 honly.2 hops.2

end Operation

end Typelib
