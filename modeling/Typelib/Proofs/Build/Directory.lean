import Typelib.Proofs.Build.Symbols
import Typelib.Build.Draft

/-!
# The directory of a draft

The slots of a symbol table, its local entries and its entries of other namespaces tell one story:
the slots of the local entries come first, in the order of registration, and each later slot belongs
to one qualified name.

* `SymbolTable.Sound`: that story, which every operation keeps, also when it fails.
-/

namespace Typelib

namespace SymbolTable

/-- The slots, the local entries and the entries of other namespaces agree. -/
structure Sound (t : SymbolTable) : Prop where
  pool : t.pool.Sound
  namespaceName : t.pool.get? t.namespaceName = some t.namespaceOffset
  size : t.slots.size < UInt16.size
  count : t.localNames.size ≤ t.slots.size
  /-- The slots of the local entries come first, in order. -/
  localSlot : ∀ (i : Nat) (name : String), t.localNames[i]? = some name →
    ∃ s slot, t.locals[name]? = some s ∧ DirRef.ofIndex? i = some s.ref ∧ s.id.toNat < t.handedOut ∧
      t.slots[i]? = some slot ∧ slot.target = .body s.id ∧ t.pool.get? name = some slot.name
  named : ∀ (name : String) (s : Symbol), t.locals[name]? = some s →
    ∃ i : Nat, t.localNames[i]? = some name
  /-- Each later slot belongs to the qualified name of its symbol and its namespace. -/
  foreignSlot : ∀ (i : Nat) (slot : Slot), t.localNames.size ≤ i → t.slots[i]? = some slot →
    ∃ ns symbol offset ref, slot = ⟨.invalid, offset, slot.target⟩ ∧
      t.pool.get? symbol = some offset ∧
      (∃ nsOffset, slot.target = .foreign nsOffset ∧ t.pool.get? ns = some nsOffset) ∧
      '.' ∉ symbol.toList ∧ DirRef.ofIndex? i = some ref ∧
      t.externals[ns ++ "." ++ symbol]? = some ref
  known : ∀ (key : String) (ref : DirRef), t.externals[key]? = some ref →
    ∃ i, t.localNames.size ≤ i ∧ i < t.slots.size ∧ DirRef.ofIndex? i = some ref
  injective : ∀ (key key' : String) (ref : DirRef), t.externals[key]? = some ref →
    t.externals[key']? = some ref → key = key'

variable {t t' : SymbolTable}

/-- More strings in the pool and more identities do no harm. -/
theorem Sound.grow (h : t.Sound) {pool : StringPool} (hp : pool.Sound) (hx : t.pool.Extends pool)
    {handedOut : Nat} (ha : t.handedOut ≤ handedOut) :
    Sound { t with pool, handedOut } where
  pool := hp
  namespaceName := hx _ _ h.namespaceName
  size := h.size
  count := h.count
  localSlot i name hi := by
    obtain ⟨s, slot, hs, hr, hid, hslot, ht, hn⟩ := h.localSlot i name hi
    exact ⟨s, slot, hs, hr, Nat.lt_of_lt_of_le hid ha, hslot, ht, hx _ _ hn⟩
  named := h.named
  foreignSlot i slot hi hslot := by
    obtain ⟨ns, symbol, offset, ref, he, ho, ⟨o, ht, hns⟩, hd, hr, hk⟩ :=
      h.foreignSlot i slot hi hslot
    exact ⟨ns, symbol, offset, ref, he, hx _ _ ho, ⟨o, ht, hx _ _ hns⟩, hd, hr, hk⟩
  known := h.known
  injective := h.injective

theorem Sound.intern (h : t.Sound) (s : String) : (t.intern s).2.Sound :=
  h.grow (h.pool.intern s) (StringPool.extends_intern t.pool s) (Nat.le_refl _)

theorem Sound.allocate (h : t.Sound) : t.allocate.2.Sound :=
  h.grow h.pool (.refl _) (Nat.le_succ _)

/-- A table with nothing in it. -/
theorem Sound.new {pool : StringPool} (hp : pool.Sound) (ns : String) :
    (SymbolTable.new ns pool).Sound where
  pool := hp.intern ns
  namespaceName := StringPool.get?_intern pool ns
  size := by simp [SymbolTable.new, UInt16.size]
  count := by simp [SymbolTable.new]
  localSlot i name h := by simp [SymbolTable.new] at h
  named name s h := by simp [SymbolTable.new] at h
  foreignSlot i slot _ h := by simp [SymbolTable.new] at h
  known key ref h := by simp [SymbolTable.new] at h
  injective key key' ref h := by simp [SymbolTable.new] at h

theorem sound_new (ns : String) : (SymbolTable.new ns).Sound := .new StringPool.sound_empty ns

/-- One more slot of another namespace. -/
theorem Sound.pushForeign (h : t.Sound) {ns symbol : String} {offset nsOffset : UInt32}
    {ref : DirRef} (hd : '.' ∉ symbol.toList) (ho : t.pool.get? symbol = some offset)
    (hns : t.pool.get? ns = some nsOffset) (hr : DirRef.ofIndex? t.slots.size = some ref)
    (hk : t.externals[ns ++ "." ++ symbol]? = none) :
    Sound { t with
      slots := t.slots.push ⟨.invalid, offset, .foreign nsOffset⟩
      externals := t.externals.insert (ns ++ "." ++ symbol) ref } where
  pool := h.pool
  namespaceName := h.namespaceName
  size := by
    have := (DirRef.ofIndex?_eq_some.1 hr).1
    simpa using this
  count := by
    have := h.count
    simp only [Array.size_push]
    omega
  localSlot i name hi := by
    obtain ⟨s, slot, hs, hr, hid, hslot, ht, hn⟩ := h.localSlot i name hi
    exact ⟨s, slot, hs, hr, hid, getElem?_push_of_some hslot, ht, hn⟩
  named := h.named
  foreignSlot i slot hi hslot := by
    rw [Array.getElem?_push] at hslot
    split at hslot
    next he =>
      subst he
      cases hslot
      exact ⟨ns, symbol, offset, ref, rfl, ho, ⟨nsOffset, rfl, hns⟩, hd, hr, by simp⟩
    next =>
      obtain ⟨ns', symbol', offset', ref', he, ho', hns', hd', hr', hk'⟩ :=
        h.foreignSlot i slot hi hslot
      refine ⟨ns', symbol', offset', ref', he, ho', hns', hd', hr', ?_⟩
      -- an older slot has another key, since the new key was free
      have hne : ns ++ "." ++ symbol ≠ ns' ++ "." ++ symbol' := by
        intro heq
        rw [heq, hk'] at hk
        cases hk
      simp only [Std.TreeMap.getElem?_insert, Std.compare_eq_iff_eq, hne, ↓reduceIte, hk']
  known key r hkey := by
    simp only [Std.TreeMap.getElem?_insert, Std.compare_eq_iff_eq] at hkey
    simp only [Array.size_push]
    split at hkey
    next => cases hkey; exact ⟨_, h.count, Nat.lt_succ_self _, hr⟩
    next =>
      obtain ⟨i, hle, hlt, hi⟩ := h.known key r hkey
      exact ⟨i, hle, Nat.lt_succ_of_lt hlt, hi⟩
  injective key key' r hkey hkey' := by
    -- the new reference leads behind all slots that had a key
    have hfresh : ∀ key : String, t.externals[key]? ≠ some ref := by
      intro key hkey
      obtain ⟨i, -, hlt, hi⟩ := h.known key ref hkey
      exact Nat.ne_of_lt hlt (DirRef.ofIndex?_inj hi hr)
    simp only [Std.TreeMap.getElem?_insert, Std.compare_eq_iff_eq] at hkey hkey'
    split_ifs at hkey hkey' with he he'
    · exact he.symm.trans he'
    · cases hkey; exact absurd hkey' (hfresh key')
    · cases hkey'; exact absurd hkey (hfresh key)
    · exact h.injective key key' r hkey hkey'

theorem Sound.external (h : t.Sound) (ns : String) {symbol : String} (hd : '.' ∉ symbol.toList) :
    (t.external ns symbol).2.Sound := by
  have h₂ := (h.intern symbol).intern ns
  obtain ⟨ref, -, he⟩ | ⟨hnone, ⟨ref, hr, he⟩ | ⟨-, he⟩⟩ := external_eq t ns symbol <;> rw [he]
  · exact h
  · exact h₂.pushForeign hd
      (StringPool.extends_intern _ ns _ _ (StringPool.get?_intern t.pool symbol))
      (StringPool.get?_intern _ ns) hr hnone
  · exact h₂

theorem Sound.resolve (h : t.Sound) (options : Options) (name : String) :
    (t.resolve options name).2.Sound := by
  obtain ⟨_, -, he⟩ | ⟨ns, symbol, hm, he | he⟩ := resolve_eq t options name <;> rw [he]
  · exact h
  · exact h.external ns (meaning_external hm)
  · exact h

/-! ### Registration -/

/-- What registering a local entry can do. -/
theorem register_eq (t : SymbolTable) (name : String) (kind : EntryKind) :
    (∃ e, t.register name kind = (.error e, t)) ∨
    t.locals[name]? = none ∧ t.slots.size ≤ t.localNames.size ∧
      let t₂ := (t.allocate.2.intern name).2
      ((∃ ref, DirRef.ofIndex? t.slots.size = some ref ∧
        t.register name kind = (.ok ⟨t.nextId, ref⟩,
          { t₂ with
            slots := t.slots.push ⟨kind, (t.allocate.2.intern name).1, .body t.nextId⟩
            locals := t.locals.insert name ⟨t.nextId, ref⟩
            localNames := t.localNames.push name })) ∨
      t.Full ∧ t.register name kind = (.error (.tooManyEntries (t.slots.size + 1)), t₂)) := by
  unfold register
  split
  next => exact .inl ⟨_, rfl⟩
  next hc =>
    split
    next => exact .inl ⟨_, rfl⟩
    next hx =>
      have hnone : t.locals[name]? = none := by
        apply Std.TreeMap.getElem?_eq_none
        rw [Std.TreeMap.mem_iff_contains]
        exact hc
      refine .inr ⟨hnone, by simp only [externalCount, localCount] at hx; omega, ?_⟩
      obtain ⟨ref, href, hp⟩ | ⟨hfull, hp⟩ := pushSlot_eq (t.allocate.2.intern name).2
        ⟨kind, (t.allocate.2.intern name).1, .body t.nextId⟩
      · refine .inl ⟨ref, href, ?_⟩
        simp only [allocate] at hp ⊢
        rw [hp]
        rfl
      · refine .inr ⟨hfull, ?_⟩
        simp only [allocate] at hp ⊢
        rw [hp]
        rfl

/-- A new local entry has a name that none had before. -/
theorem gains_register (t : SymbolTable) (name : String) (kind : EntryKind) :
    t.Gains (t.register name kind).2 := by
  have hpool := StringPool.extends_intern t.pool name
  rcases register_eq t name kind with ⟨_, h⟩ | ⟨hnone, -, ⟨ref, -, h⟩ | ⟨-, h⟩⟩ <;> rw [h]
  · exact (Extends.refl t).gains
  · refine ⟨rfl, hpool, fun i slot hs => getElem?_push_of_some hs, fun n s hs => ?_, Nat.le_succ _⟩
    have hne : name ≠ n := by
      rintro rfl
      rw [lookup, hnone] at hs
      cases hs
    simpa only [lookup, Std.TreeMap.getElem?_insert, Std.compare_eq_iff_eq, hne, ↓reduceIte] using hs
  · exact ⟨rfl, hpool, fun _ _ hs => hs, fun _ _ hs => hs, Nat.le_succ _⟩

/-- One more local slot, while there is no other. -/
theorem Sound.pushLocal (h : t.Sound) {name : String} {kind : EntryKind} {offset : UInt32}
    {ref : DirRef} {id : BodyId} (hnone : t.locals[name]? = none)
    (hs : t.slots.size ≤ t.localNames.size) (hid : id.toNat < t.handedOut)
    (ho : t.pool.get? name = some offset) (hr : DirRef.ofIndex? t.slots.size = some ref) :
    Sound { t with
      slots := t.slots.push ⟨kind, offset, .body id⟩
      locals := t.locals.insert name ⟨id, ref⟩
      localNames := t.localNames.push name } where
  pool := h.pool
  namespaceName := h.namespaceName
  size := by
    have := (DirRef.ofIndex?_eq_some.1 hr).1
    simpa using this
  count := by simpa using h.count
  localSlot i n hi := by
    have hcount := h.count
    rw [Array.getElem?_push] at hi
    split at hi
    next he =>
      cases hi
      have hi : i = t.slots.size := by omega
      subst hi
      refine ⟨⟨id, ref⟩, ⟨kind, offset, .body id⟩, by simp, hr, hid, by simp, rfl, ho⟩
    next =>
      obtain ⟨s, slot, hs', hr', hid', hslot, ht, hn⟩ := h.localSlot i n hi
      have hne : name ≠ n := by
        rintro rfl
        rw [hnone] at hs'
        cases hs'
      refine ⟨s, slot, ?_, hr', hid', getElem?_push_of_some hslot, ht, hn⟩
      simp only [Std.TreeMap.getElem?_insert, Std.compare_eq_iff_eq, hne, ↓reduceIte, hs']
  named n s hn := by
    simp only [Std.TreeMap.getElem?_insert, Std.compare_eq_iff_eq] at hn
    split at hn
    next he => exact ⟨t.localNames.size, by simp [he]⟩
    next =>
      obtain ⟨i, hi⟩ := h.named n s hn
      exact ⟨i, getElem?_push_of_some hi⟩
  foreignSlot i slot hi hslot := by
    -- all slots are still those of local entries
    have hlt := (Array.getElem?_eq_some_iff.1 hslot).1
    simp only [Array.size_push] at hi hlt
    omega
  known key r hkey := by
    obtain ⟨i, hle, hlt, -⟩ := h.known key r hkey
    omega
  injective := h.injective

theorem Sound.register (h : t.Sound) (name : String) (kind : EntryKind) :
    (t.register name kind).2.Sound := by
  have h₂ := h.allocate.intern name
  obtain ⟨e, he⟩ | ⟨hnone, hs, ⟨ref, hr, he⟩ | ⟨-, he⟩⟩ := register_eq t name kind <;> rw [he]
  · exact h
  · exact h₂.pushLocal hnone hs (Nat.lt_succ_of_le t.toNat_nextId_le)
      (StringPool.get?_intern t.pool name) hr
  · exact h₂

/-! ### Slots of names -/

theorem Sound.ref_ne_none (h : t.Sound) {name : String} {s : Symbol}
    (hs : t.locals[name]? = some s) : s.ref ≠ .none := by
  obtain ⟨i, hi⟩ := h.named name s hs
  obtain ⟨s', -, hs', hr, -⟩ := h.localSlot i name hi
  rw [hs] at hs'
  cases hs'
  exact DirRef.ne_none_of_ofIndex? hr

/-- The names of the local entries are those that are found. -/
theorem Sound.mem_localNames (h : t.Sound) {name : String} :
    name ∈ t.localNames.toList ↔ ∃ s, t.lookup name = some s := by
  rw [Array.mem_toList_iff]
  constructor
  · intro hmem
    obtain ⟨i, hi⟩ := Array.getElem?_of_mem hmem
    obtain ⟨s, _, hs, -⟩ := h.localSlot i name hi
    exact ⟨s, hs⟩
  · rintro ⟨s, hs⟩
    obtain ⟨i, hi⟩ := h.named name s hs
    exact Array.mem_of_getElem? hi

theorem Sound.lookup_eq_none (h : t.Sound) {name : String} :
    t.lookup name = none ↔ name ∉ t.localNames.toList := by
  rw [h.mem_localNames, ← not_iff_not, not_not, ← ne_eq, Option.ne_none_iff_exists']

/-- Local entries with one name have one slot. -/
theorem Sound.nodup_localNames (h : t.Sound) : t.localNames.toList.Nodup := by
  rw [List.Nodup, List.pairwise_iff_getElem]
  intro i j hi hj hij hsame
  rw [Array.length_toList] at hi hj
  rw [Array.getElem_toList, Array.getElem_toList] at hsame
  obtain ⟨s, -, hs, hr, -⟩ := h.localSlot i _ (Array.getElem?_eq_getElem hi)
  obtain ⟨s', -, hs', hr', -⟩ := h.localSlot j _ (Array.getElem?_eq_getElem hj)
  rw [hsame, hs'] at hs
  cases hs
  exact Nat.ne_of_lt hij (DirRef.ofIndex?_inj hr hr')

theorem lookup_of_meaning {name : String} {s : Symbol} (h : t.meaning name = .entry s) :
    ∃ n : String, t.locals[n]? = some s := by
  obtain hs | ⟨-, symbol, -, -, hs⟩ := meaning_eq_entry.1 h
  · exact ⟨name, hs⟩
  · exact ⟨symbol, hs⟩

theorem Sound.slotOf_ne_none (h : t.Sound) {options : Options} {name : String} {ref : DirRef}
    (he : t.resolve options name = (.ok ref, t')) : t'.slotOf name = ref ∧ ref ≠ .none := by
  refine ⟨slotOf_of_resolve he, ?_⟩
  have h' := h.resolve options name
  rw [he] at h'
  obtain ⟨s, hm, hr⟩ | ⟨ns, symbol, -, hr | hr⟩ := resolve_eq t options name <;> rw [hr] at he
  · cases he
    obtain ⟨n, hn⟩ := lookup_of_meaning hm
    exact h.ref_ne_none hn
  · obtain ⟨i, -, -, hi⟩ := h'.known _ _ (external_ok he)
    exact DirRef.ne_none_of_ofIndex? hi
  · cases he

/-! ### Slots of other namespaces -/

/-- A slot leads to an entry of another namespace. -/
def External (t : SymbolTable) (i : Nat) (ns symbol : String) : Prop :=
  ∃ offset nsOffset, t.slots[i]? = some ⟨.invalid, offset, .foreign nsOffset⟩ ∧
    t.pool.get? symbol = some offset ∧ t.pool.get? ns = some nsOffset

/-- An entry of another namespace has a slot of its own, with its symbol and its namespace. -/
theorem Sound.slot_of_external (h : t.Sound) {ns symbol : String} {ref : DirRef}
    (hd : '.' ∉ symbol.toList) (hk : t.externals[ns ++ "." ++ symbol]? = some ref) :
    ∃ i, DirRef.ofIndex? i = some ref ∧ t.External i ns symbol := by
  obtain ⟨i, hle, hlt, hi⟩ := h.known _ _ hk
  obtain ⟨ns', symbol', offset, ref', hslot, ho, ⟨nsOffset, ht, hns⟩, hd', hi', hk'⟩ :=
    h.foreignSlot i t.slots[i] hle (Array.getElem?_eq_getElem hlt)
  rw [hi] at hi'
  cases hi'
  have hkey := h.injective _ _ _ hk hk'
  obtain ⟨rfl, rfl⟩ := qualified_inj hd hd' hkey
  refine ⟨i, hi, offset, nsOffset, ?_, ho, hns⟩
  rw [Array.getElem?_eq_getElem hlt, hslot, ht]

/-- The slot of an entry of another namespace stands behind those of the local entries, and is found
by its qualified name. -/
theorem Sound.external_of_slot (h : t.Sound) (hv : t.pool.bytes.size ≤ maxWord32) {i : Nat}
    {ns symbol : String} (hx : t.External i ns symbol) :
    t.localNames.size ≤ i ∧ '.' ∉ symbol.toList ∧
      ∃ ref, DirRef.ofIndex? i = some ref ∧ t.externals[ns ++ "." ++ symbol]? = some ref := by
  obtain ⟨offset, nsOffset, hslot, ho, hns⟩ := hx
  have hle : t.localNames.size ≤ i := by
    by_contra hlt
    obtain ⟨s, slot, -, -, -, hslot', ht, -⟩ := h.localSlot i t.localNames[i]
      (Array.getElem?_eq_getElem (Nat.lt_of_not_le hlt))
    rw [hslot] at hslot'
    cases hslot'
    cases ht
  obtain ⟨ns', symbol', offset', ref, he, ho', ⟨nsOffset', ht, hns'⟩, hd, hr, hk⟩ :=
    h.foreignSlot i _ hle hslot
  cases he
  cases ht
  obtain rfl := h.pool.get?_inj hv ho ho'
  obtain rfl := h.pool.get?_inj hv hns hns'
  exact ⟨hle, hd, ref, hr, hk⟩

end SymbolTable

end Typelib
