import Mathlib.Data.List.TakeWhile
import Mathlib.Tactic.SplitIfs
import Typelib.Proofs.Build.Identity
import Typelib.Proofs.Build.Pool

/-!
# What names stand for

A symbol table only grows once its local entries are registered, so a name keeps the slot that it
was given first. `SymbolTable.slotOf` is that slot.

* `SymbolTable.Extends`: what every operation but a registration keeps;
* `SymbolTable.resolve_of_extends`: a name that was resolved keeps its slot ever after.
-/

namespace Typelib

/-! ### References -/

namespace DirRef

theorem ofIndex?_eq_some {i : Nat} {r : DirRef} :
    ofIndex? i = some r ↔ i + 1 < UInt16.size ∧ r = ⟨.ofNat (i + 1)⟩ := by
  unfold ofIndex?
  split_ifs with h
  · simp [h, eq_comm]
  · simp [h]

theorem toNat_of_index? {r : DirRef} {i : Nat} (h : r.index? = some i) : r.raw.toNat = i + 1 := by
  unfold index? isNone at h
  split at h
  next => cases h
  next hne =>
    have hpos : r.raw.toNat ≠ 0 := fun h0 => hne (by simpa using UInt16.toNat_inj.1 h0)
    have hi := Option.some.inj h
    omega

theorem toNat_of_ofIndex? {i : Nat} {r : DirRef} (h : ofIndex? i = some r) :
    r.raw.toNat = i + 1 := by
  obtain ⟨hlt, rfl⟩ := ofIndex?_eq_some.1 h
  exact UInt16.toNat_ofNat_of_lt' hlt

theorem ne_none_of_ofIndex? {i : Nat} {r : DirRef} (h : ofIndex? i = some r) : r ≠ .none := by
  rintro rfl
  have := index?_eq_of_ofIndex? h
  cases this

theorem ofIndex?_inj {i j : Nat} {r : DirRef} (hi : ofIndex? i = some r)
    (hj : ofIndex? j = some r) : i = j := by
  have := (index?_eq_of_ofIndex? hi).symm.trans (index?_eq_of_ofIndex? hj)
  exact Option.some.inj this

/-- The position of a slot fits into a word, and more than that. -/
theorem toNat_position {i : Nat} {r : DirRef} (h : ofIndex? i = some r) :
    (UInt32.ofNat i).toNat = i := by
  obtain ⟨hlt, -⟩ := ofIndex?_eq_some.1 h
  have hsize : UInt16.size < UInt32.size := by decide
  exact UInt32.toNat_ofNat_of_lt (by omega)

end DirRef

namespace SymbolTable

/-! ### Names and their parts -/

theorem splitName_eq_none {name : String} (h : splitName name = none) : '.' ∉ name.toList := by
  intro hmem
  simp only [splitName] at h
  split at h
  next hd =>
    have := List.dropWhile_eq_nil_iff.1 hd '.' (List.mem_reverse.2 hmem)
    simp at this
  next => cases h

theorem splitName_eq_some {name ns symbol : String} (h : splitName name = some (ns, symbol)) :
    name = ns ++ "." ++ symbol ∧ '.' ∉ symbol.toList := by
  simp only [splitName] at h
  split at h
  next => cases h
  -- the text was reversed, so what is left begins with its last dot
  next dot before hd =>
    cases h
    have hdot : dot = '.' := by
      have := List.head_dropWhile_not (· != '.') (l := name.toList.reverse) (by simp [hd])
      simpa [hd] using this
    constructor
    · have hsplit := List.takeWhile_append_dropWhile (p := (· != '.')) (l := name.toList.reverse)
      rw [hd, hdot] at hsplit
      have hname := List.reverse_reverse name.toList
      rw [← hsplit] at hname
      apply String.toList_inj.1
      simpa [String.toList_append] using hname.symm
    · rw [String.toList_ofList, List.mem_reverse]
      intro hmem
      simpa using List.mem_takeWhile_imp hmem

theorem splitName_append {ns symbol : String} (h : '.' ∉ symbol.toList) :
    splitName (ns ++ "." ++ symbol) = some (ns, symbol) := by
  have hne : ∀ c ∈ symbol.toList.reverse, (c != '.') = true := by
    intro c hc
    rw [bne_iff_ne]
    rintro rfl
    exact h (List.mem_reverse.1 hc)
  have hcs : (ns ++ "." ++ symbol).toList.reverse =
      symbol.toList.reverse ++ ('.' :: ns.toList.reverse) := by
    simp
  simp only [splitName, hcs]
  rw [List.dropWhile_append_of_pos hne, List.takeWhile_append_of_pos hne]
  simp

/-- A qualified name tells its parts, since a symbol has no dot. -/
theorem qualified_inj {ns ns' symbol symbol' : String} (h : '.' ∉ symbol.toList)
    (h' : '.' ∉ symbol'.toList) (he : ns ++ "." ++ symbol = ns' ++ "." ++ symbol') :
    ns = ns' ∧ symbol = symbol' := by
  have hsplit : splitName (ns ++ "." ++ symbol) = some (ns, symbol) := splitName_append h
  rw [he, splitName_append h'] at hsplit
  cases hsplit
  exact ⟨rfl, rfl⟩

variable {t t' t'' : SymbolTable}

theorem meaning_external {name ns symbol : String} (h : t.meaning name = .external ns symbol) :
    '.' ∉ symbol.toList := by
  unfold meaning at h
  split at h
  · cases h
  · split at h
    next hn => cases h; exact splitName_eq_none hn
    next hs =>
      have := (splitName_eq_some hs).2
      split_ifs at h
      · split at h <;> cases h
        exact this
      · cases h; exact this

/-- A name means a local entry if it is the name of this entry, or else its qualified name. -/
theorem meaning_eq_entry {name : String} {s : Symbol} :
    t.meaning name = .entry s ↔ t.lookup name = some s ∨
      t.lookup name = none ∧ ∃ symbol, '.' ∉ symbol.toList ∧
        name = t.namespaceName ++ "." ++ symbol ∧ t.lookup symbol = some s := by
  unfold meaning
  cases hs : t.lookup name with
  | some s' => simp
  | none =>
    cases hsplit : splitName name with
    | none =>
      have hdot := splitName_eq_none hsplit
      simp only [reduceCtorEq, true_and, false_or, false_iff, not_exists, not_and]
      rintro symbol - rfl
      simp at hdot
    | some parts =>
      obtain ⟨ns, symbol⟩ := parts
      obtain ⟨rfl, hdot⟩ := splitName_eq_some hsplit
      simp only [reduceCtorEq, true_and, false_or]
      constructor
      · intro h
        split_ifs at h with hns
        cases hl : t.lookup symbol with
        | none => simp [hl] at h
        | some s' =>
          rw [hl] at h
          cases h
          exact ⟨symbol, hdot, by rw [hns], hl⟩
      · rintro ⟨symbol', hdot', he, hl⟩
        obtain ⟨rfl, rfl⟩ := qualified_inj hdot hdot' he
        simp only [↓reduceIte, hl]

/-- The keys are those that lead to a slot. -/
theorem mem_externals {key : String} :
    key ∈ t.externals.keys ↔ ∃ ref, t.externals[key]? = some ref := by
  rw [Std.TreeMap.mem_keys, Std.TreeMap.mem_iff_isSome_getElem?, Option.isSome_iff_exists]

/-! ### Growth -/

/-- The table has the same local entries and all that it had of anything else. -/
structure Extends (t t' : SymbolTable) : Prop where
  pool : t.pool.Extends t'.pool
  namespaceName : t'.namespaceName = t.namespaceName
  namespaceOffset : t'.namespaceOffset = t.namespaceOffset
  slots : ∀ (i : Nat) (slot : Slot), t.slots[i]? = some slot → t'.slots[i]? = some slot
  locals : t'.locals = t.locals
  localNames : t'.localNames = t.localNames
  externals : ∀ (key : String) (ref : DirRef),
    t.externals[key]? = some ref → t'.externals[key]? = some ref
  handedOut : t.handedOut ≤ t'.handedOut

theorem Extends.refl (t : SymbolTable) : t.Extends t :=
  ⟨.refl _, rfl, rfl, fun _ _ h => h, rfl, rfl, fun _ _ h => h, Nat.le_refl _⟩

theorem Extends.trans (h : t.Extends t') (h' : t'.Extends t'') : t.Extends t'' where
  pool := h.pool.trans h'.pool
  namespaceName := h'.namespaceName.trans h.namespaceName
  namespaceOffset := h'.namespaceOffset.trans h.namespaceOffset
  slots i slot hs := h'.slots i slot (h.slots i slot hs)
  locals := h'.locals.trans h.locals
  localNames := h'.localNames.trans h.localNames
  externals key ref hk := h'.externals key ref (h.externals key ref hk)
  handedOut := Nat.le_trans h.handedOut h'.handedOut

/-- All that is in a table is in another one, which may have more local entries. -/
structure Gains (t t' : SymbolTable) : Prop where
  namespaceName : t'.namespaceName = t.namespaceName
  pool : t.pool.Extends t'.pool
  slots : ∀ (i : Nat) (slot : Slot), t.slots[i]? = some slot → t'.slots[i]? = some slot
  lookup : ∀ (name : String) (s : Symbol), t.lookup name = some s → t'.lookup name = some s
  handedOut : t.handedOut ≤ t'.handedOut

theorem Extends.gains (h : t.Extends t') : t.Gains t' where
  namespaceName := h.namespaceName
  pool := h.pool
  slots := h.slots
  lookup name s hs := by rwa [SymbolTable.lookup, h.locals]
  handedOut := h.handedOut

theorem Gains.trans (h : t.Gains t') (h' : t'.Gains t'') : t.Gains t'' where
  namespaceName := h'.namespaceName.trans h.namespaceName
  pool := h.pool.trans h'.pool
  slots i slot hs := h'.slots i slot (h.slots i slot hs)
  lookup name s hs := h'.lookup name s (h.lookup name s hs)
  handedOut := Nat.le_trans h.handedOut h'.handedOut

theorem Extends.meaning (h : t.Extends t') (name : String) : t'.meaning name = t.meaning name := by
  simp only [SymbolTable.meaning, lookup, h.locals, h.namespaceName]

theorem extends_intern (t : SymbolTable) (s : String) : t.Extends (t.intern s).2 :=
  { Extends.refl t with pool := StringPool.extends_intern t.pool s }

theorem extends_allocate (t : SymbolTable) : t.Extends t.allocate.2 :=
  { Extends.refl t with handedOut := Nat.le_succ _ }

/-- No reference could lead to one more slot. -/
def Full (t : SymbolTable) : Prop := DirRef.ofIndex? t.slots.size = none

theorem pushSlot_eq (t : SymbolTable) (slot : Slot) :
    (∃ ref, DirRef.ofIndex? t.slots.size = some ref ∧
      t.pushSlot slot = (.ok ref, { t with slots := t.slots.push slot })) ∨
    t.Full ∧ t.pushSlot slot = (.error (.tooManyEntries (t.slots.size + 1)), t) := by
  unfold pushSlot
  split
  next ref h => exact .inl ⟨ref, h, rfl⟩
  next h => exact .inr ⟨h, rfl⟩

theorem getElem?_push_of_some {α : Type} {xs : Array α} {i : Nat} {x y : α}
    (h : xs[i]? = some x) : (xs.push y)[i]? = some x := by
  obtain ⟨hi, -⟩ := Array.getElem?_eq_some_iff.1 h
  rw [Array.getElem?_push, if_neg (by omega), h]

/-- What asking for an entry of another namespace can do. -/
theorem external_eq (t : SymbolTable) (ns symbol : String) :
    (∃ ref, t.externals[ns ++ "." ++ symbol]? = some ref ∧
      t.external ns symbol = (.ok ref, t)) ∨
    t.externals[ns ++ "." ++ symbol]? = none ∧
      let t₂ := ((t.intern symbol).2.intern ns).2
      let slot : Slot := ⟨.invalid, (t.intern symbol).1,
        .foreign ((t.intern symbol).2.intern ns).1⟩
      ((∃ ref, DirRef.ofIndex? t.slots.size = some ref ∧
        t.external ns symbol = (.ok ref,
          { t₂ with
            slots := t.slots.push slot
            externals := t.externals.insert (ns ++ "." ++ symbol) ref })) ∨
      t.Full ∧ t.external ns symbol = (.error (.tooManyEntries (t.slots.size + 1)), t₂)) := by
  simp only [external]
  cases h : t.externals[ns ++ "." ++ symbol]? with
  | some ref => exact .inl ⟨ref, rfl, rfl⟩
  | none =>
    refine .inr ⟨rfl, ?_⟩
    obtain ⟨ref, href, hp⟩ | ⟨hfull, hp⟩ := pushSlot_eq ((t.intern symbol).2.intern ns).2
      ⟨.invalid, (t.intern symbol).1, .foreign ((t.intern symbol).2.intern ns).1⟩
    · refine .inl ⟨ref, href, ?_⟩
      rw [hp]
      rfl
    · refine .inr ⟨hfull, ?_⟩
      rw [hp]
      rfl

theorem extends_external (t : SymbolTable) (ns symbol : String) :
    t.Extends (t.external ns symbol).2 := by
  have h₂ := (extends_intern t symbol).trans (extends_intern (t.intern symbol).2 ns)
  obtain ⟨ref, -, h⟩ | ⟨hnone, ⟨ref, -, h⟩ | ⟨-, h⟩⟩ := external_eq t ns symbol <;> rw [h]
  · exact .refl t
  · refine { h₂ with slots := fun i slot hs => getElem?_push_of_some hs, externals := ?_ }
    intro key r hk
    have hne : ns ++ "." ++ symbol ≠ key := by
      rintro rfl
      rw [hnone] at hk
      cases hk
    simp only [Std.TreeMap.getElem?_insert, Std.compare_eq_iff_eq, hne, ↓reduceIte]
    exact hk
  · exact h₂

/-- What resolving a name can do. -/
theorem resolve_eq (t : SymbolTable) (options : Options) (name : String) :
    (∃ symbol, t.meaning name = .entry symbol ∧
      t.resolve options name = (.ok symbol.ref, t)) ∨
    (∃ ns symbol, t.meaning name = .external ns symbol ∧
      (t.resolve options name = t.external ns symbol ∨
        t.resolve options name = (.error (.unresolvedName name), t))) := by
  unfold resolve
  split
  next symbol h => exact .inl ⟨symbol, h, rfl⟩
  next ns symbol h =>
    refine .inr ⟨ns, symbol, h, ?_⟩
    split_ifs
    · exact .inr rfl
    · exact .inl rfl

theorem extends_resolve (t : SymbolTable) (options : Options) (name : String) :
    t.Extends (t.resolve options name).2 := by
  obtain ⟨_, -, h⟩ | ⟨ns, symbol, -, h | h⟩ := resolve_eq t options name <;> rw [h]
  · exact .refl t
  · exact extends_external t ns symbol
  · exact .refl t

/-! ### The slot of a name -/

/-- The slot that a name stands for, or none if it was not given one yet. -/
def slotOf (t : SymbolTable) (name : String) : DirRef :=
  match t.meaning name with
  | .entry symbol => symbol.ref
  | .external ns symbol => (t.externals[ns ++ "." ++ symbol]?).getD .none

/-- A name keeps its slot. -/
theorem Extends.slotOf (h : t.Extends t') {name : String} (hn : t.slotOf name ≠ .none) :
    t'.slotOf name = t.slotOf name := by
  simp only [SymbolTable.slotOf, h.meaning] at hn ⊢
  split at hn
  next => rfl
  next ns symbol _ =>
    cases hk : t.externals[ns ++ "." ++ symbol]? with
    | none => rw [hk] at hn; exact absurd rfl hn
    | some ref => rw [h.externals _ ref hk]

theorem external_ok {ns symbol : String} {ref : DirRef} (h : t.external ns symbol = (.ok ref, t')) :
    t'.externals[ns ++ "." ++ symbol]? = some ref := by
  obtain ⟨r, hk, he⟩ | ⟨-, ⟨r, -, he⟩ | ⟨-, he⟩⟩ := external_eq t ns symbol <;>
    rw [he] at h <;> cases h
  · exact hk
  · simp

theorem slotOf_of_resolve {options : Options} {name : String} {ref : DirRef}
    (h : t.resolve options name = (.ok ref, t')) : t'.slotOf name = ref := by
  have hx := extends_resolve t options name
  rw [h] at hx
  simp only [slotOf, hx.meaning]
  obtain ⟨symbol, hm, he⟩ | ⟨ns, symbol, hm, he | he⟩ := resolve_eq t options name <;>
    rw [he] at h <;> simp only [hm]
  · cases h; rfl
  · rw [external_ok h]; rfl
  · cases h

/-- A name that was resolved is resolved to the same slot ever after, and without any change. -/
theorem resolve_of_extends {options : Options} {name : String} {ref : DirRef}
    (h : t.resolve options name = (.ok ref, t')) (hx : t'.Extends t'') :
    t''.resolve options name = (.ok ref, t'') := by
  have ht := extends_resolve t options name
  rw [h] at ht
  have hm := (ht.trans hx).meaning name
  have hns := (ht.trans hx).namespaceName
  unfold resolve at h ⊢
  rw [hm]
  split at h
  next symbol _ => cases h; rfl
  next ns symbol _ =>
    rw [hns]
    split_ifs at h ⊢
    · cases h
    -- the entry is found by its qualified name, and nothing is pushed again
    have hk := hx.externals _ _ (external_ok h)
    unfold external
    simp only [hk]

end SymbolTable

end Typelib
