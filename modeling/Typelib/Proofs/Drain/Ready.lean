import Typelib.Proofs.Drain.Checked
import Typelib.Proofs.Drain.Promises
import Typelib.Proofs.Whole.Run

/-!
# What waits is ready to be written

Whatever a draft was put to, also when steps of it failed, the names of a type that waits have
slots, and the value of a constant that waits was found before it was queued. As long as there are
fresh identities, each body that waits was promised once and was not begun. Then only the parameters
of a signature may still be too many.

* `Draft.Ready`: what holds of a draft that its own steps filled;
* `SymbolTable.Sound.settled_of_register`: names that have slots have slots ever after;
* `Operation.ready_after`: every run of operations leaves a draft that is ready.
-/

namespace Typelib

/-! ### Names that have slots -/

namespace SymbolTable

variable {t t' : SymbolTable} {name n : String} {kind : EntryKind} {symbol s : Symbol}
  {options : Options}

theorem Sound.lookup_lt (h : t.Sound) (hs : t.lookup name = some s) :
    s.id.toNat < t.handedOut := by
  obtain ⟨i, hi⟩ := h.named name s hs
  obtain ⟨s', -, hs', -, hlt, -⟩ := h.localSlot i name hi
  rw [← lookup, hs] at hs'
  cases hs'
  exact hlt

/-- A name that stands for a local entry has a slot. -/
theorem Sound.settled_of_entry (h : t.Sound) (hm : t.meaning n = .entry s) :
    t.Settled options n := by
  have hslot : t.slotOf n = s.ref := by rw [slotOf, hm]
  constructor
  · rw [hslot]
    obtain hs | ⟨-, _, -, -, hs⟩ := meaning_eq_entry.1 hm <;> exact h.ref_ne_none hs
  · rw [SymbolTable.resolve, hm, hslot]

/-- A name that has a slot has one when a local entry is registered, if not always the same. -/
theorem Sound.settled_of_register (h : t.Sound) (name : String) (kind : EntryKind)
    (hn : t.Settled options n) : (t.register name kind).2.Settled options n := by
  have hsound := h.register name kind
  have hgains := t.gains_register name kind
  rcases register_eq t name kind with ⟨_, he⟩ | ⟨hnone, hsize, ⟨ref, -, he⟩ | ⟨-, he⟩⟩ <;>
    rw [he] at hsound hgains ⊢
  · exact hn
  · obtain ⟨s, hm⟩ := h.exists_entry hsize hn.ne_none
    suffices hentry : ∃ s', meaning _ n = .entry s' by
      obtain ⟨s', hm'⟩ := hentry
      exact hsound.settled_of_entry hm'
    rcases meaning_eq_entry.1 hm with hs | ⟨hmissing, other, hdot, rfl, hs⟩
    · exact ⟨s, meaning_eq_entry.2 (.inl (hgains.lookup n s hs))⟩
    · -- the new entry may have the qualified name of the old one
      by_cases hne : name = t.namespaceName ++ "." ++ other
      · exact ⟨⟨t.nextId, ref⟩, meaning_eq_entry.2 (.inl (by simp [lookup, hne]))⟩
      · refine ⟨s, meaning_eq_entry.2 (.inr ⟨?_, other, hdot, rfl, hgains.lookup other s hs⟩)⟩
        simpa only [lookup, Std.TreeMap.getElem?_insert, Std.compare_eq_iff_eq, hne, ↓reduceIte]
          using hmissing
  · exact ((extends_allocate t).trans (extends_intern _ name)).settled hn

end SymbolTable

/-! ### Drafts that are ready -/

namespace Draft

/-- Each body that waits can be written as far as names and values go. While there are fresh
identities, it was promised once and was not begun, and is no entry's. -/
structure Ready (d : Draft) : Prop where
  symbols : d.symbols.Sound
  once : d.symbols.handedOut < UInt32.size → ∀ id : BodyId,
    (d.queues.items.map Prod.snd).count id + d.begun id ≤
      if id.toNat < d.symbols.handedOut then 1 else 0
  entries : d.symbols.handedOut < UInt32.size → ∀ name symbol,
    d.symbols.lookup name = some symbol → symbol.id ∉ d.queues.items.map Prod.snd
  checked : ∀ item ∈ d.queues.items, item.1.Checked
  knows : ∀ t id, (Work.type t, id) ∈ d.queues.items → d.Knows t

theorem begun_eq_zero {d : Draft} {id : BodyId} : d.begun id = 0 ↔ d.body.startOf? id = none := by
  simp [begun]

theorem ready_new (ns : String) (sharedLibrary : Option String) (options : Options) :
    (Draft.new ns sharedLibrary options).Ready where
  symbols := sound_new ns sharedLibrary options
  once _ _ := Nat.zero_le _
  entries _ _ _ _ hmem := nomatch hmem
  checked _ hmem := nomatch hmem
  knows _ _ hmem := nomatch hmem

namespace Ready

variable {d d' : Draft} {works : List Work} {work : Work} {id : BodyId} {queues : Queues}

theorem lt_of_waiting (h : d.Ready) (hfew : d.symbols.handedOut < UInt32.size)
    (hw : id ∈ d.queues.items.map Prod.snd) : id.toNat < d.symbols.handedOut := by
  have honce := h.once hfew id
  have hpos := List.count_pos_iff.2 hw
  split at honce <;> omega

theorem not_begun (h : d.Ready) (hfew : d.symbols.handedOut < UInt32.size)
    (hw : id ∈ d.queues.items.map Prod.snd) : d.begun id = 0 := by
  have honce := h.once hfew id
  have hpos := List.count_pos_iff.2 hw
  split at honce <;> omega

/-- Checked bodies are promised. -/
theorem promises (h : d.Ready) (hp : d.Promises works d') (hw : ∀ work ∈ works, work.Checked) :
    d'.Ready := by
  obtain ⟨news, hperm, hids, hsub, hknown⟩ := hp.items
  have hle := hp.toExtends.symbols.handedOut
  constructor
  · exact hp.sound h.symbols
  · intro hfew id
    have hcount := (hperm.map Prod.snd).count_eq id
    rw [List.map_append, List.count_append, hids, BodyId.count_range' (by omega)] at hcount
    have hbegun : d'.begun id = d.begun id := by
      simp only [begun, Section.startOf?, hp.starts]
    have honce := h.once (Nat.lt_of_le_of_lt hle hfew) id
    rw [hbegun]
    -- the new identities are those between the two numbers
    split at hcount <;> split at honce <;> split <;> omega
  · intro hfew name symbol hs hmem
    rw [SymbolTable.lookup, hp.toExtends.symbols.locals] at hs
    rw [(hperm.map Prod.snd).mem_iff, List.map_append, List.mem_append, hids,
      BodyId.mem_range' (by omega)] at hmem
    rcases hmem with hold | hnew
    · exact h.entries (Nat.lt_of_le_of_lt hle hfew) name symbol hs hold
    · exact absurd hnew.1 (Nat.not_le_of_lt (h.symbols.lookup_lt hs))
  · intro item hmem
    obtain hold | hnew := List.mem_append.1 (hperm.mem_iff.1 hmem)
    · exact h.checked item hold
    · exact hw _ (hsub.subset (List.mem_map_of_mem hnew))
  · intro t id hmem
    obtain hold | hnew := List.mem_append.1 (hperm.mem_iff.1 hmem)
    · exact hp.toExtends.knows (h.knows t id hold)
    · exact hknown t (List.mem_map_of_mem hnew)

theorem names (h : d.Ready) (hn : d.Names d') : d'.Ready := h.promises hn.promises (by simp)

/-- An identity is used up. -/
theorem allocate (h : d.Ready) : d.allocate.Ready where
  symbols := h.symbols.allocate
  once hfew id := by
    have honce := h.once (Nat.lt_of_succ_lt hfew) id
    change (d.queues.items.map Prod.snd).count id + d.begun id ≤
      if id.toNat < d.symbols.handedOut + 1 then 1 else 0
    split at honce <;> split <;> omega
  entries hfew := h.entries (Nat.lt_of_succ_lt hfew)
  checked := h.checked
  knows t id hmem n hn := (SymbolTable.extends_allocate _).settled (h.knows t id hmem n hn)

/-- A body is taken from its queue. -/
theorem pop (h : d.Ready) (hp : d.queues.items.Perm ((work, id) :: queues.items)) :
    { d with queues }.Ready where
  symbols := h.symbols
  once hfew id' := by
    have honce := h.once hfew id'
    have hcount := (hp.map Prod.snd).count_eq id'
    rw [List.map_cons] at hcount
    have hle := List.count_le_count_cons (a := id') (b := id) (l := queues.items.map Prod.snd)
    exact Nat.le_trans (Nat.add_le_add_right (hcount ▸ hle) _) honce
  entries hfew name symbol hs hmem :=
    h.entries hfew name symbol hs ((hp.map Prod.snd).mem_iff.2 (List.mem_cons_of_mem _ hmem))
  checked item hmem := h.checked item (hp.mem_iff.2 (List.mem_cons_of_mem _ hmem))
  knows t id' hmem := (h.knows t id' (hp.mem_iff.2 (List.mem_cons_of_mem _ hmem)) : d.Knows t)

/-- The body that is taken from a queue does not wait any more. -/
theorem not_waiting (h : d.Ready) (hfew : d.symbols.handedOut < UInt32.size)
    (hp : d.queues.items.Perm ((work, id) :: queues.items)) :
    id ∉ queues.items.map Prod.snd := by
  have honce := h.once hfew id
  have hcount := (hp.map Prod.snd).count_eq id
  rw [List.map_cons, List.count_cons_self] at hcount
  intro hmem
  have hpos := List.count_pos_iff.2 hmem
  split at honce <;> omega

/-- A body is begun that does not wait. -/
theorem begin (h : d.Ready) (hid : d.symbols.handedOut < UInt32.size →
    id.toNat < d.symbols.handedOut ∧ id ∉ d.queues.items.map Prod.snd) : (d.begin id).Ready where
  symbols := h.symbols
  once hfew id' := by
    obtain ⟨hlt, hw⟩ := hid hfew
    have honce := h.once hfew id'
    rw [begun_begin]
    change (d.queues.items.map Prod.snd).count id' + _ ≤
      if id'.toNat < d.symbols.handedOut then 1 else 0
    by_cases he : id = id'
    · subst he
      rw [if_pos rfl, if_pos hlt, List.count_eq_zero.2 hw]
    · rwa [if_neg he]
  entries := h.entries
  checked := h.checked
  knows t id' hmem := (h.knows t id' hmem : d.Knows t)

/-- A local entry is registered. -/
theorem register (h : d.Ready) (name : String) (kind : EntryKind) :
    Ready { d with symbols := (d.symbols.register name kind).2 } := by
  have hs := h.symbols.register name kind
  have hknows (t : Ty) (id : BodyId) (hmem : (Work.type t, id) ∈ d.queues.items) :
      ∀ n ∈ t.names, (d.symbols.register name kind).2.Settled d.options n :=
    fun n hn => h.symbols.settled_of_register name kind (h.knows t id hmem n hn)
  have hle := (d.symbols.gains_register name kind).handedOut
  have hlookup (n : String) (symbol : Symbol)
      (hn : (d.symbols.register name kind).2.lookup n = some symbol) :
      d.symbols.lookup n = some symbol ∨ symbol.id = d.symbols.nextId := by
    rcases SymbolTable.register_eq d.symbols name kind with
      ⟨_, he⟩ | ⟨-, -, ⟨ref, -, he⟩ | ⟨-, he⟩⟩ <;> rw [he] at hn
    · exact .inl hn
    · simp only [SymbolTable.lookup, Std.TreeMap.getElem?_insert, Std.compare_eq_iff_eq] at hn
      split at hn
      · cases hn
        exact .inr rfl
      · exact .inl hn
    · exact .inl hn
  refine ⟨hs, fun hfew id => ?_, fun hfew n symbol hn hmem => ?_, h.checked, hknows⟩
  · refine Nat.le_trans (h.once (Nat.lt_of_le_of_lt hle hfew) id) ?_
    change _ ≤ if id.toNat < (d.symbols.register name kind).2.handedOut then 1 else 0
    split <;> split <;> omega
  · have hfew₀ : d.symbols.handedOut < UInt32.size := Nat.lt_of_le_of_lt hle hfew
    rcases hlookup n symbol hn with hold | hnew
    · exact h.entries hfew₀ n symbol hold hmem
    · -- the new identity is none of those that were handed out
      have hlt := h.lt_of_waiting hfew₀ hmem
      rw [hnew] at hlt
      exact absurd (SymbolTable.nextId_new hfew₀).1 (Nat.not_le_of_lt hlt)

end Ready

end Draft

/-! ### Steps -/

namespace Build

variable {α β : Type} {d : Draft} {work : Work} {id : BodyId}

/-- Whether the step fails or not, it keeps drafts ready. -/
def KeepsReady (x : Build α) : Prop := ∀ d : Draft, d.Ready → (x.after d).Ready

theorem ready_bind {x : Build α} {f : α → Build β} (hx : (x.after d).Ready)
    (hf : ∀ a, KeepsReady (f a)) : ((x >>= f).after d).Ready := by
  obtain ⟨a, ha⟩ | ⟨e, he⟩ := yields_or_fails x d
  · rw [after_bind_of_yields ha]
    exact hf a _ hx
  · rwa [after_bind_of_fails he]

theorem KeepsReady.bind {x : Build α} {f : α → Build β} (hx : KeepsReady x)
    (hf : ∀ a, KeepsReady (f a)) : KeepsReady (x >>= f) := fun d hd => ready_bind (hx d hd) hf

theorem keepsReady_names {x : Build α} (h : Within Draft.Names x) : KeepsReady x :=
  fun d hd => hd.names (h d)

theorem keepsReady_pure (a : α) : KeepsReady (pure a : Build α) := fun _ hd => hd

theorem keepsReady_throw (e : BuildError) : KeepsReady (throw e : Build α) := fun _ hd => hd

/-- What a step yields is dropped. -/
theorem KeepsReady.drop {x : Build α} (hx : KeepsReady x) :
    KeepsReady (do let _ ← x; return () : Build Unit) := hx.bind fun _ => keepsReady_pure ()

theorem keepsReady_typeUse (type : Ty) : KeepsReady (typeUse type) :=
  fun d hd => hd.promises (promises_typeUse type d hd.symbols) (Cell.checked_type type)

theorem keepsReady_cells {cs : List Cell} (h : ∀ c ∈ cs, c.Checked) : KeepsReady (cells cs) := by
  intro d hd
  refine hd.promises (promises_cells cs d hd.symbols) fun work hw => ?_
  obtain ⟨c, hc, hw⟩ := List.mem_flatMap.1 hw
  exact h c hc work hw

/-- A body that does not wait is begun, even if it was begun before, and more is written. -/
theorem ready_begun {x : Build Unit} (hd : d.Ready) (hid : d.symbols.handedOut < UInt32.size →
    id.toNat < d.symbols.handedOut ∧ id ∉ d.queues.items.map Prod.snd) (hx : KeepsReady x) :
    ((do let _ ← start id; x : Build Unit).after d).Ready := by
  have hbegun : (d.begin id).Ready := hd.begin hid
  obtain ⟨pos, hpos⟩ | ⟨e, he⟩ := yields_or_fails (start id) d
  · rw [after_bind_of_yields hpos]
    exact hx _ hbegun
  · rw [after_bind_of_fails he]
    exact hbegun

theorem keepsReady_entry (node : Node) : KeepsReady (entry node) := by
  intro d hd
  rw [entry, after, outcome_get_bind]
  cases hs : d.symbols.lookup node.name with
  | none => exact hd
  | some symbol =>
    exact ready_begun hd (fun hfew => ⟨hd.symbols.lookup_lt hs, hd.entries hfew _ _ hs⟩)
      (keepsReady_cells node.checked_cells)

/-- The body of what was taken from its queue is written, or refused. -/
theorem ready_write (hd : d.Ready) (hid : d.symbols.handedOut < UInt32.size →
    id.toNat < d.symbols.handedOut ∧ id ∉ d.queues.items.map Prod.snd) :
    ((work.write id).after d).Ready := by
  cases work with
  | entry => exact hd
  | type t => exact ready_begun hd hid (keepsReady_cells t.checked_cells)
  | signature s =>
    rw [Work.write, signatureBody]
    split
    · exact hd
    · exact ready_begun hd hid (keepsReady_cells s.checked_cells)
  | constant c =>
    rw [Work.write, constantBody]
    split
    · exact hd
    · refine ready_begun hd hid fun d hd => ?_
      exact hd.promises (promises_cell _ d hd.symbols) (Cell.checked_of_works rfl)

/-- The body that is next to be written was promised, and does not wait twice. -/
theorem ready_pops {queues : Queues} (hd : d.Ready) (hp : Pops d.queues work id queues) :
    ((work.write id).after { d with queues }).Ready := by
  have hperm := hp.items
  have hmem := (hperm.map Prod.snd).mem_iff.2 List.mem_cons_self
  refine ready_write (hd.pop hperm) fun hfew => ?_
  exact ⟨hd.lt_of_waiting hfew hmem, hd.not_waiting hfew hperm⟩

theorem keepsReady_next : KeepsReady next := by
  intro d hd
  rcases next_pops d with ⟨-, hnext⟩ | ⟨work, id, queues, hpops, hnext⟩
  · rw [after, hnext]
    exact hd
  · rw [after, hnext]
    exact ready_bind (ready_pops hd hpops) fun _ => keepsReady_pure true

theorem keepsReady_drainLoop (fuel : Nat) : ∀ done, KeepsReady (drainLoop fuel done) := by
  induction fuel with
  | zero => exact keepsReady_pure
  | succ fuel ih =>
    intro done
    refine keepsReady_next.bind fun more => ?_
    cases more with
    | true => exact ih (done + 1)
    | false => exact keepsReady_pure done

theorem keepsReady_drain : KeepsReady drain := fun d => keepsReady_drainLoop d.queues.weight 0 d

theorem keepsReady_entries (nodes : List Node) : KeepsReady (entries nodes) := by
  induction nodes with
  | nil => exact keepsReady_pure ()
  | cons node nodes ih =>
    exact (keepsReady_entry node).bind fun _ => keepsReady_drain.bind fun _ => ih

theorem keepsReady_register (nodes : List Node) : KeepsReady (register nodes) := by
  induction nodes with
  | nil => exact keepsReady_pure ()
  | cons node nodes ih =>
    rw [register]
    split
    · exact keepsReady_throw _
    · exact KeepsReady.bind (fun d hd => hd.register node.name _) fun _ => ih

end Build

namespace Operation

/-- Every operation but one that writes parts of some body keeps drafts ready. -/
theorem keepsReady {op : Operation} (h : op.isLoose = false) : Build.KeepsReady op.run := by
  cases op with
  | register nodes => exact Build.keepsReady_register nodes
  | entry node => exact Build.keepsReady_entry node
  | next => exact Build.keepsReady_next.drop
  | drain => exact Build.keepsReady_drain.drop
  | document nodes =>
    exact (Build.keepsReady_register nodes).bind fun _ => Build.keepsReady_entries nodes
  | typeUse type => exact (Build.keepsReady_typeUse type).drop
  | shape type => exact (Build.keepsReady_names (Build.within_shape type)).drop
  | resolve name => exact (Build.keepsReady_names (Build.within_resolve name)).drop
  | intern s => exact (Build.keepsReady_names (Build.within_intern s)).drop
  | allocate => exact Build.KeepsReady.drop fun d hd => hd.allocate
  | cells => cases h

theorem ready_run {ops : List Operation} (h : ∀ op ∈ ops, op.isLoose = false) :
    ∀ {d : Draft}, d.Ready → (after ops d).Ready := by
  induction ops with
  | nil => exact id
  | cons op ops ih =>
    rw [List.forall_mem_cons] at h
    exact fun hd => ih h.2 (keepsReady h.1 _ hd)

/-- Whatever a draft was put to, it is ready. -/
theorem ready_after {ops : List Operation} (h : ∀ op ∈ ops, op.isLoose = false) (ns : String)
    (sharedLibrary : Option String) (options : Options) :
    (after ops (.new ns sharedLibrary options)).Ready :=
  ready_run h (Draft.ready_new ns sharedLibrary options)

end Operation

end Typelib
