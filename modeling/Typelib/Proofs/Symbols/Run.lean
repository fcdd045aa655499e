import Typelib.Proofs.Build.Directory

/-!
# Runs of a symbol table

A symbol table hands out identities, registers local entries and resolves names, in any order, and
what fails ends nothing but itself. In every such run the slots, the names and the counters of the
table go together.

* `SymbolTable.Operation`: what can be asked of a symbol table;
* `SymbolTable.Consistent`: how slots, names and counters go together;
* `SymbolTable.Tracks.step`: what one operation keeps;
* `SymbolTable.consistent_after`: every run.
-/

namespace Typelib

/-- A pool with strings in it. -/
def StringPool.ofStrings (strings : List String) : StringPool :=
  strings.foldl (fun p s => (p.intern s).2) {}

theorem StringPool.sound_ofStrings (strings : List String) :
    (StringPool.ofStrings strings).Sound := by
  have keep (strings : List String) : ∀ p : StringPool, p.Sound →
      (strings.foldl (fun p s => (p.intern s).2) p).Sound := by
    induction strings with
    | nil => exact fun _ h => h
    | cons s strings ih => exact fun p h => ih _ (h.intern s)
  exact keep strings {} sound_empty

namespace SymbolTable

/-! ### Runs -/

/-- What can be asked of a symbol table. Its pool is shared, so strings of anything else may be
added to it. -/
inductive Operation
  | allocate
  | register (name : String) (kind : EntryKind)
  | resolve (options : Options) (name : String)
  | intern (s : String)

namespace Operation

/-- The table that an operation leaves, whether it succeeds or not. -/
def step (t : SymbolTable) : Operation → SymbolTable
  | allocate => t.allocate.2
  | register name kind => (t.register name kind).2
  | resolve options name => (t.resolve options name).2
  | intern s => (t.intern s).2

/-- The entry that an operation registers, if it registers one. -/
def registered? (t : SymbolTable) : Operation → Option (String × Symbol)
  | register name kind => (t.register name kind).1.toOption.map fun symbol => (name, symbol)
  | allocate | resolve .. | intern _ => none

/-- The table that operations leave. -/
def after (ops : List Operation) (t : SymbolTable) : SymbolTable := ops.foldl step t

/-- The entries that operations register, in order. -/
def registered : List Operation → SymbolTable → List (String × Symbol)
  | [], _ => []
  | op :: ops, t => (op.registered? t).toList ++ registered ops (op.step t)

end Operation

theorem after_append (ops ops' : List Operation) (t : SymbolTable) :
    Operation.after (ops ++ ops') t = Operation.after ops' (Operation.after ops t) :=
  List.foldl_append

theorem Operation.gains_step (op : Operation) (t : SymbolTable) : t.Gains (op.step t) := by
  cases op with
  | register name kind => exact gains_register t name kind
  | allocate => exact (extends_allocate t).gains
  | resolve options name => exact (extends_resolve t options name).gains
  | intern s => exact (extends_intern t s).gains

/-- No operation takes anything back. -/
theorem Operation.gains_after (ops : List Operation) : ∀ t : SymbolTable,
    t.Gains (after ops t) := by
  induction ops with
  | nil => exact fun t => (Extends.refl t).gains
  | cons op ops ih => exact fun t => (op.gains_step t).trans (ih _)

/-! ### What goes together -/

/-- Each body belongs to one slot. -/
def Distinct (t : SymbolTable) : Prop :=
  ∀ (i j : Nat) (slot slot' : Slot) (id : BodyId), t.slots[i]? = some slot →
    t.slots[j]? = some slot' → slot.target = .body id → slot'.target = .body id → i = j

/-- The slots, the names and the counters of a table in which entries were registered in this
order. -/
structure Consistent (t : SymbolTable) (registered : List (String × Symbol)) : Prop where
  size : t.slots.size ≤ 65535
  localCount : t.localCount = registered.length
  /-- The local slots come first. -/
  isLocal : ∀ (i : Nat) (slot : Slot), t.slots[i]? = some slot →
    (slot.isLocal = true ↔ i < t.localCount)
  nodup : (registered.map Prod.fst).Nodup
  lookup : ∀ (name : String) (symbol : Symbol),
    t.lookup name = some symbol ↔ (name, symbol) ∈ registered
  /-- Each registered entry has the slot at its position. -/
  localSlot : ∀ (k : Nat) (name : String) (symbol : Symbol), registered[k]? = some (name, symbol) →
    DirRef.ofIndex? k = some symbol.ref ∧ ∃ slot, t.slots[k]? = some slot ∧
      slot.target = .body symbol.id ∧ t.pool.get? name = some slot.name
  /-- Each key leads to a slot behind those. -/
  known : ∀ (key : String) (ref : DirRef), t.externals[key]? = some ref →
    ∃ i, t.localCount ≤ i ∧ i < t.slots.size ∧ DirRef.ofIndex? i = some ref
  /-- Each slot behind those has one key. -/
  key : ∀ i, t.localCount ≤ i → i < t.slots.size →
    ∃! key : String, ∃ ref, DirRef.ofIndex? i = some ref ∧ t.externals[key]? = some ref
  /-- The key is made of the two strings of the slot, which are what its offsets lead to. -/
  parts : t.pool.bytes.size < UInt32.size → ∀ i, t.localCount ≤ i → i < t.slots.size →
    ∃ ns symbol ref, t.External i ns symbol ∧ DirRef.ofIndex? i = some ref ∧
      t.externals[ns ++ "." ++ symbol]? = some ref ∧
      ∀ ns' symbol', t.External i ns' symbol' → ns' = ns ∧ symbol' = symbol
  /-- Each offset of the pool is where its string stands. -/
  strings : t.pool.bytes.size < UInt32.size → ∀ (s : String) (offset : UInt32),
    t.pool.get? s = some offset → ∃ before behind,
      t.pool.bytes.toList = before ++ nulTerminated s ++ behind ∧ before.length = offset.toNat
  /-- The identities of slots are counted, as long as a word can count them. -/
  allocated : t.handedOut < UInt32.size → ∀ (i : Nat) (slot : Slot) (id : BodyId),
    t.slots[i]? = some slot → slot.target = .body id → id.toNat < t.allocated
  distinct : t.handedOut < UInt32.size → t.Distinct

/-! ### Slots of sound tables -/

variable {t t' : SymbolTable} {log : List (String × Symbol)}

theorem Sound.isLocal_iff (h : t.Sound) {i : Nat} {slot : Slot} (hi : t.slots[i]? = some slot) :
    slot.isLocal = true ↔ i < t.localNames.size := by
  by_cases hlt : i < t.localNames.size
  · obtain ⟨_, slot', -, -, -, hslot, ht, -⟩ := h.localSlot i _ (Array.getElem?_eq_getElem hlt)
    rw [hi] at hslot
    cases hslot
    simp [Slot.isLocal, ht, hlt]
  · obtain ⟨_, _, _, _, -, -, ⟨_, ht, -⟩, -⟩ := h.foreignSlot i slot (Nat.le_of_not_lt hlt) hi
    simp [Slot.isLocal, ht, hlt]

theorem Sound.lt_of_body (h : t.Sound) {i : Nat} {slot : Slot} {id : BodyId}
    (hi : t.slots[i]? = some slot) (ht : slot.target = .body id) : id.toNat < t.handedOut := by
  have hlt : i < t.localNames.size := (h.isLocal_iff hi).1 (by simp [Slot.isLocal, ht])
  obtain ⟨symbol, slot', -, -, hid, hslot, ht', -⟩ :=
    h.localSlot i _ (Array.getElem?_eq_getElem hlt)
  rw [hi] at hslot
  cases hslot
  rw [ht] at ht'
  cases ht'
  exact hid

/-- One more slot keeps bodies apart, if its body is none of those before. -/
theorem Distinct.push (h : t.Distinct) {slot : Slot} {t' : SymbolTable}
    (ht' : t'.slots = t.slots.push slot)
    (hnew : ∀ (i : Nat) (other : Slot) (id : BodyId), t.slots[i]? = some other →
      other.target = .body id → slot.target ≠ .body id) : t'.Distinct := by
  intro i j a b id ha hb hida hidb
  rw [ht', Array.getElem?_push] at ha hb
  split at ha <;> split at hb
  next hi hj => exact hi.trans hj.symm
  next => cases ha; exact absurd hida (hnew j b id hb hidb)
  next => cases hb; exact absurd hidb (hnew i a id ha hida)
  next => exact h i j a b id ha hb hida hidb

theorem Distinct.resolve (h : t.Distinct) (options : Options) (name : String) :
    (t.resolve options name).2.Distinct := by
  obtain ⟨_, -, he⟩ | ⟨ns, symbol, -, he | he⟩ := resolve_eq t options name <;> rw [he]
  · exact h
  · obtain ⟨_, -, he⟩ | ⟨-, ⟨_, -, he⟩ | ⟨-, he⟩⟩ := external_eq t ns symbol <;> rw [he]
    · exact h
    · exact h.push rfl fun _ _ _ _ _ => by simp
    · exact h
  · exact h

/-! ### One operation -/

/-- A sound table holds the entries that were registered, each with a body of its own as long as
there are fresh identities. -/
structure Tracks (t : SymbolTable) (log : List (String × Symbol)) : Prop where
  sound : t.Sound
  names : t.localNames.toList = log.map Prod.fst
  symbols : ∀ entry ∈ log, t.locals[entry.1]? = some entry.2
  distinct : t.handedOut < UInt32.size → t.Distinct

theorem Tracks.register (h : t.Tracks log) (name : String) (kind : EntryKind) :
    (Operation.step t (.register name kind)).Tracks
      (log ++ ((Operation.register name kind).registered? t).toList) := by
  have hsound := h.sound.register name kind
  have hgains := gains_register t name kind
  simp only [Operation.step, Operation.registered?]
  obtain ⟨e, he⟩ | ⟨-, -, ⟨ref, -, he⟩ | ⟨-, he⟩⟩ := register_eq t name kind <;>
    rw [he] at hsound hgains ⊢ <;>
    simp only [Except.toOption, Option.map_none, Option.map_some, Option.toList_none,
      Option.toList_some, List.append_nil]
  · exact h
  · refine ⟨hsound, by simp [h.names], fun entry hentry => ?_, fun hids => ?_⟩
    · rcases List.mem_append.1 hentry with hentry | hentry
      · exact hgains.lookup entry.1 entry.2 (h.symbols entry hentry)
      · rw [List.mem_singleton.1 hentry]
        exact Std.TreeMap.getElem?_insert_self
    · have hfree : t.handedOut < UInt32.size := Nat.lt_of_succ_lt hids
      refine (h.distinct hfree).push rfl fun i other id hi hid hnew => ?_
      cases hnew
      -- the next identity is greater than all that were handed out
      have hlt := h.sound.lt_of_body hi hid
      rw [toNat_nextId hfree] at hlt
      exact Nat.lt_irrefl _ hlt
  · exact ⟨hsound, h.names, h.symbols, fun hids => h.distinct (Nat.lt_of_succ_lt hids)⟩

/-- What an operation leaves holds all that was registered before it, and the entry that it
registers. -/
theorem Tracks.step (h : t.Tracks log) (op : Operation) :
    (op.step t).Tracks (log ++ (op.registered? t).toList) := by
  -- only a registration adds to the log
  have silent (t' : SymbolTable) (hx : t.Extends t') (hs : t'.Sound)
      (hd : t.Distinct → t'.Distinct) : t'.Tracks (log ++ Option.none.toList) := by
    rw [Option.toList_none, List.append_nil]
    exact ⟨hs, hx.localNames ▸ h.names, hx.locals ▸ h.symbols,
      fun hids => hd (h.distinct (Nat.lt_of_le_of_lt hx.handedOut hids))⟩
  cases op with
  | register name kind => exact h.register name kind
  | allocate => exact silent _ (extends_allocate t) h.sound.allocate id
  | resolve options name =>
    exact silent _ (extends_resolve t options name) (h.sound.resolve options name)
      fun hd => hd.resolve options name
  | intern s => exact silent _ (extends_intern t s) (h.sound.intern s) id

/-! ### All operations -/

theorem Tracks.after (ops : List Operation) : ∀ {t : SymbolTable} {log : List (String × Symbol)},
    t.Tracks log → (Operation.after ops t).Tracks (log ++ Operation.registered ops t) := by
  induction ops with
  | nil =>
    intro t log h
    rwa [Operation.registered, List.append_nil]
  | cons op ops ih =>
    intro t log h
    rw [Operation.registered, ← List.append_assoc]
    exact ih (h.step op)

theorem tracks_new (ns : String) (strings : List String) :
    (new ns (.ofStrings strings)).Tracks [] where
  sound := .new (StringPool.sound_ofStrings strings) ns
  names := rfl
  symbols entry hentry := by cases hentry
  distinct _ i j slot slot' id hi := by simp [new] at hi

/-- The registered entries of a table, by their positions. -/
theorem Tracks.getElem? (h : t.Tracks log) {k : Nat} {name : String} {symbol : Symbol}
    (hk : log[k]? = some (name, symbol)) :
    t.localNames[k]? = some name ∧ t.locals[name]? = some symbol := by
  refine ⟨?_, h.symbols _ (List.mem_of_getElem? hk)⟩
  rw [← Array.getElem?_toList, h.names, List.getElem?_map, hk]
  rfl

theorem Tracks.consistent (h : t.Tracks log) : t.Consistent log where
  size := Nat.le_of_lt_succ h.sound.size
  localCount := by rw [localCount, ← Array.length_toList, h.names, List.length_map]
  isLocal i slot hi := h.sound.isLocal_iff hi
  nodup := h.names ▸ h.sound.nodup_localNames
  lookup name symbol := by
    refine ⟨fun hs => ?_, fun hmem => h.symbols _ hmem⟩
    obtain ⟨i, hi⟩ := h.sound.named name symbol hs
    rw [← Array.getElem?_toList, h.names, List.getElem?_map] at hi
    obtain ⟨⟨_, symbol'⟩, hentry, rfl⟩ := Option.map_eq_some_iff.1 hi
    have hs' := h.symbols _ (List.mem_of_getElem? hentry)
    rw [lookup, hs'] at hs
    cases hs
    exact List.mem_of_getElem? hentry
  localSlot k name symbol hk := by
    obtain ⟨hname, hs⟩ := h.getElem? hk
    obtain ⟨symbol', slot, hs', href, -, hslot, ht, hget⟩ := h.sound.localSlot k name hname
    rw [hs] at hs'
    cases hs'
    exact ⟨href, slot, hslot, ht, hget⟩
  known := h.sound.known
  key i hle hlt := by
    obtain ⟨ns, symbol, _, ref, -, -, -, -, hr, hk⟩ :=
      h.sound.foreignSlot i _ hle (Array.getElem?_eq_getElem hlt)
    refine ⟨ns ++ "." ++ symbol, ⟨ref, hr, hk⟩, ?_⟩
    rintro key ⟨ref', hr', hk'⟩
    rw [hr] at hr'
    cases hr'
    exact h.sound.injective _ _ ref hk' hk
  parts hv i hle hlt := by
    have hmax : maxWord32 = UInt32.size - 1 := rfl
    obtain ⟨ns, symbol, offset, ref, hslot, ho, ⟨nsOffset, ht, hns⟩, -, hr, hk⟩ :=
      h.sound.foreignSlot i _ hle (Array.getElem?_eq_getElem hlt)
    have hx : t.slots[i]? = some ⟨.invalid, offset, .foreign nsOffset⟩ := by
      rw [Array.getElem?_eq_getElem hlt, hslot, ht]
    refine ⟨ns, symbol, ref, ⟨offset, nsOffset, hx, ho, hns⟩, hr, hk, ?_⟩
    rintro ns' symbol' ⟨offset', nsOffset', hx', ho', hns'⟩
    rw [hx] at hx'
    cases hx'
    exact ⟨h.sound.pool.get?_inj (by omega) hns' hns, h.sound.pool.get?_inj (by omega) ho' ho⟩
  strings hv s offset ho := by
    have hmax : maxWord32 = UInt32.size - 1 := rfl
    exact h.sound.pool.toNat_offset (by omega) ho
  allocated hids i slot id hi ht := by
    rw [SymbolTable.allocated, toNat_nextId hids]
    exact h.sound.lt_of_body hi ht
  distinct := h.distinct

/-- **Slots, names and counters go together.** Whatever is asked of a symbol table, and whether it
succeeds or fails, the local slots come first, in the order of registration and each with its name;
each slot behind them has one key, which is made of its namespace and its symbol; and there is a
reference for every slot. As long as fewer identities were handed out than there are words, each
local slot has a body of its own, whose identity is less than their number. -/
theorem consistent_after (ns : String) (strings : List String) (ops : List Operation) :
    (Operation.after ops (new ns (.ofStrings strings))).Consistent
      (Operation.registered ops (new ns (.ofStrings strings))) :=
  ((tracks_new ns strings).after ops).consistent

end SymbolTable

end Typelib
