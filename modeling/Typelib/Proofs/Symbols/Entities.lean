import Typelib.Proofs.Listing.Spec
import Typelib.Proofs.Symbols.Run

/-!
# Names that stand for one entry

Once the local entries are registered a name keeps the slot that it was resolved to, and two names
have one slot exactly if they stand for one entry, however they spell it.

* `Scope.ofNames`: what names stand for in a namespace with certain local entries;
* `SymbolTable.Sound.slotOf_eq_iff`: slots are one if and only if entries are;
* `SymbolTable.resolve_identifies`: names that are resolved in any order.
-/

namespace Typelib

/-- The names of a namespace with certain local entries. -/
def Scope.ofNames (namespaceName : String) (locals : List String) : Scope where
  namespaceName
  locals
  options := {}
  names := []

namespace SymbolTable

variable {t t' : SymbolTable} {log : List (String × Symbol)} {name a b ns symbol : String}

/-- What a name stands for in the namespace of a table. -/
def entity (t : SymbolTable) (name : String) : Entity :=
  (Scope.ofNames t.namespaceName t.localNames.toList).entity name

theorem Extends.entity (h : t.Extends t') (name : String) : t'.entity name = t.entity name := by
  simp only [SymbolTable.entity, h.namespaceName, h.localNames]

/-! ### What names stand for -/

/-- A name that means a local entry stands for it. -/
theorem Sound.entity_of_entry (h : t.Sound) {s : Symbol} (hm : t.meaning name = .entry s) :
    ∃ n, t.entity name = .entry n ∧ t.lookup n = some s := by
  obtain hs | ⟨hnone, symbol, hdot, rfl, hs⟩ := meaning_eq_entry.1 hm
  · exact ⟨name, if_pos (h.mem_localNames.2 ⟨s, hs⟩), hs⟩
  · have hin : symbol ∈ t.localNames.toList := h.mem_localNames.2 ⟨s, hs⟩
    refine ⟨symbol, ?_, hs⟩
    simp only [entity, Scope.ofNames, Scope.entity, if_neg (h.lookup_eq_none.1 hnone),
      splitName_append hdot, hin, and_self, ↓reduceIte]

/-- Any other name stands for the entry that it means. -/
theorem Sound.entity_of_external (h : t.Sound) (hm : t.meaning name = .external ns symbol) :
    t.entity name = .foreign ns symbol := by
  unfold meaning at hm
  split at hm
  next => cases hm
  next hnone =>
    have hout := h.lookup_eq_none.1 hnone
    split at hm
    next hsplit =>
      cases hm
      exact (Scope.entity_of_bare hout hsplit).2
    next ns' symbol' hsplit =>
      split_ifs at hm with hns
      · split at hm
        next => cases hm
        next hmissing =>
          cases hm
          exact (Scope.entity_of_qualified hout hsplit fun hin =>
            h.lookup_eq_none.1 hmissing hin.2).2
      · cases hm
        exact (Scope.entity_of_qualified hout hsplit fun hin => hns hin.1).2

/-! ### Slots -/

/-- The slot of a name that was resolved: that of a local entry, or behind all those. -/
theorem Sound.slot_cases (h : t.Sound) (hn : t.slotOf name ≠ .none) :
    (∃ n s i, t.entity name = .entry n ∧ t.locals[n]? = some s ∧ t.slotOf name = s.ref ∧
      i < t.localNames.size ∧ DirRef.ofIndex? i = some s.ref) ∨
    ∃ ns symbol i, t.entity name = .foreign ns symbol ∧ '.' ∉ symbol.toList ∧
      t.externals[ns ++ "." ++ symbol]? = some (t.slotOf name) ∧ t.localNames.size ≤ i ∧
      DirRef.ofIndex? i = some (t.slotOf name) := by
  cases hm : t.meaning name with
  | entry s =>
    obtain ⟨n, he, hs⟩ := h.entity_of_entry hm
    obtain ⟨i, hi⟩ := h.named n s hs
    obtain ⟨s', _, hs', hr, -⟩ := h.localSlot i n hi
    rw [show t.locals[n]? = some s from hs] at hs'
    cases hs'
    exact .inl ⟨n, s, i, he, hs, by simp only [slotOf, hm],
      (Array.getElem?_eq_some_iff.1 hi).1, hr⟩
  | external ns symbol =>
    have hslot : t.slotOf name = (t.externals[ns ++ "." ++ symbol]?).getD .none := by
      simp only [slotOf, hm]
    cases hk : t.externals[ns ++ "." ++ symbol]? with
    | none => exact absurd (by rw [hslot, hk]; rfl) hn
    | some ref =>
      obtain ⟨i, hle, -, hi⟩ := h.known _ ref hk
      rw [hk, Option.getD_some] at hslot
      exact .inr ⟨ns, symbol, i, h.entity_of_external hm, meaning_external hm, hslot ▸ hk, hle,
        hslot ▸ hi⟩

/-- Slots are one if and only if the names stand for one entry. -/
theorem Sound.slotOf_eq_iff (h : t.Sound) (ha : t.slotOf a ≠ .none) (hb : t.slotOf b ≠ .none) :
    t.slotOf a = t.slotOf b ↔ t.entity a = t.entity b := by
  obtain ⟨n, s, i, hea, hsa, hra, hi, hia⟩ | ⟨ns, symbol, i, hea, hda, hka, hi, hia⟩ :=
      h.slot_cases ha <;>
    obtain ⟨n', s', j, heb, hsb, hrb, hj, hjb⟩ | ⟨ns', symbol', j, heb, hdb, hkb, hj, hjb⟩ :=
      h.slot_cases hb <;>
    rw [hea, heb]
  · rw [Entity.entry.injEq]
    constructor
    · intro he
      rw [hra, hrb] at he
      -- both names are registered at the position of the slot
      obtain ⟨x, hx⟩ := h.named n s hsa
      obtain ⟨y, hy⟩ := h.named n' s' hsb
      obtain ⟨_, _, hsx, hrx, -⟩ := h.localSlot x n hx
      obtain ⟨_, _, hsy, hry, -⟩ := h.localSlot y n' hy
      rw [hsa] at hsx
      rw [hsb] at hsy
      cases hsx
      cases hsy
      rw [← he] at hry
      obtain rfl := DirRef.ofIndex?_inj hrx hry
      rw [hx] at hy
      exact Option.some.inj hy
    · rintro rfl
      rw [hsa] at hsb
      cases hsb
      rw [hra, hrb]
  · refine iff_of_false (fun he => ?_) (by simp)
    rw [← hra, he] at hia
    exact absurd (DirRef.ofIndex?_inj hia hjb) (by omega)
  · refine iff_of_false (fun he => ?_) (by simp)
    rw [← hrb, ← he] at hjb
    exact absurd (DirRef.ofIndex?_inj hia hjb) (by omega)
  · rw [Entity.foreign.injEq]
    constructor
    · intro he
      rw [← he] at hkb
      exact qualified_inj hda hdb (h.injective _ _ _ hka hkb)
    · rintro ⟨rfl, rfl⟩
      rw [hka] at hkb
      exact Option.some.inj hkb

/-! ### Names that are resolved -/

/-- Names are resolved, each under options of its own. -/
def asks (names : List (Options × String)) : List Operation :=
  names.map fun p => .resolve p.1 p.2

/-- Entries are registered. -/
def registers (entries : List (String × EntryKind)) : List Operation :=
  entries.map fun p => .register p.1 p.2

theorem extends_asks (names : List (Options × String)) :
    ∀ t : SymbolTable, t.Extends (Operation.after (asks names) t) := by
  induction names with
  | nil => exact .refl
  | cons p names ih => exact fun t => (extends_resolve t p.1 p.2).trans (ih _)

theorem Sound.asks (names : List (Options × String)) : ∀ {t : SymbolTable}, t.Sound →
    (Operation.after (asks names) t).Sound := by
  induction names with
  | nil => exact id
  | cons p names ih => exact fun h => ih (h.resolve p.1 p.2)

/-- What a name that is resolved leaves. -/
theorem Sound.of_resolve (h : t.Sound) {options : Options} {ref : DirRef}
    (he : t.resolve options name = (.ok ref, t')) : t.Extends t' ∧ t'.Sound := by
  have hx := extends_resolve t options name
  have hs := h.resolve options name
  rw [he] at hx hs
  exact ⟨hx, hs⟩

/-- While there is room a permissive table resolves every name. -/
theorem exists_resolve (t : SymbolTable) {options : Options} (hp : options.strict = false)
    (name : String) (hroom : t.slots.size < 65535) :
    ∃ ref t', t.resolve options name = (.ok ref, t') := by
  have hsize : UInt16.size = 65536 := rfl
  -- there is a reference for the next slot
  have href : DirRef.ofIndex? t.slots.size = some ⟨.ofNat (t.slots.size + 1)⟩ :=
    DirRef.ofIndex?_eq_some.2 ⟨by omega, rfl⟩
  unfold resolve
  split
  next s _ => exact ⟨s.ref, t, rfl⟩
  next ns symbol _ =>
    simp only [hp, Bool.false_and, Bool.false_eq_true, ↓reduceIte, external]
    split
    next ref _ => exact ⟨ref, t, rfl⟩
    next =>
      have hslots : (((t.intern symbol).2).intern ns).2.slots = t.slots := rfl
      simp only [pushSlot, hslots, href]
      exact ⟨_, _, rfl⟩

/-- Permissive options resolve a name alike. -/
theorem resolve_congr (t : SymbolTable) {options options' : Options} (hp : options.strict = false)
    (hp' : options'.strict = false) (name : String) :
    t.resolve options name = t.resolve options' name := by
  simp only [resolve, hp, hp', Bool.false_and]

theorem namespaceName_registers (entries : List (String × EntryKind)) :
    ∀ t : SymbolTable, (Operation.after (registers entries) t).namespaceName = t.namespaceName := by
  induction entries with
  | nil => exact fun _ => rfl
  | cons p entries ih =>
    intro t
    refine (ih _).trans ?_
    change (t.register p.1 p.2).2.namespaceName = _
    obtain ⟨e, he⟩ | ⟨-, -, ⟨_, -, he⟩ | ⟨-, he⟩⟩ := register_eq t p.1 p.2 <;> rw [he] <;> rfl

/-- **Names with one slot are names of one entry.** Entries are registered and then names are
resolved. While there is room every name gets a slot. From then on it is resolved to that slot
without any change to the table, and it shares the slot with another name if and only if both stand
for the same entry. -/
theorem resolve_identifies (ns : String) (strings : List String)
    (entries : List (String × EntryKind)) (earlier between : List (Options × String))
    (options options' : Options) (hp : options.strict = false) (hp' : options'.strict = false)
    (a b : String) :
    let t₀ := new ns (.ofStrings strings)
    let t := Operation.after (registers entries ++ asks earlier) t₀
    let s := Scope.ofNames ns ((Operation.registered (registers entries) t₀).map Prod.fst)
    (t.slots.size < 65535 → ∃ ref t₁, t.resolve options a = (.ok ref, t₁)) ∧
      ∀ ref t₁, t.resolve options a = (.ok ref, t₁) →
        let t₂ := Operation.after (asks between) t₁
        t₂.resolve options' a = (.ok ref, t₂) ∧
          ∀ ref' t₃, t₂.resolve options' b = (.ok ref', t₃) →
            (ref = ref' ↔ s.entity a = s.entity b) := by
  intro t₀ t s
  refine ⟨exists_resolve t hp a, fun ref t₁ ha => ?_⟩
  intro t₂
  have hregistered := (tracks_new ns strings).after (registers entries)
  rw [List.nil_append] at hregistered
  have ht : t = Operation.after (asks earlier) (Operation.after (registers entries) t₀) :=
    after_append _ _ t₀
  have hsound : t.Sound := ht ▸ hregistered.sound.asks earlier
  have hx : (Operation.after (registers entries) t₀).Extends t := ht ▸ extends_asks earlier _
  obtain ⟨hx₁, hsound₁⟩ := hsound.of_resolve ha
  have hx₂ : t₁.Extends t₂ := extends_asks between t₁
  have hsound₂ : t₂.Sound := hsound₁.asks between
  have hagain : t₂.resolve options' a = (.ok ref, t₂) := by
    rw [← resolve_congr t₂ hp hp']
    exact resolve_of_extends ha hx₂
  refine ⟨hagain, fun ref' t₃ hb => ?_⟩
  obtain ⟨hx₃, hsound₃⟩ := hsound₂.of_resolve hb
  -- both names have their slots in the last table
  obtain ⟨hslotb, hneb⟩ := hsound₂.slotOf_ne_none hb
  obtain ⟨hslota, hnea⟩ := hsound₂.slotOf_ne_none hagain
  have hkeep : t₃.slotOf a = ref := (hx₃.slotOf (hslota ▸ hnea)).trans hslota
  have hentity (name : String) : t₃.entity name = s.entity name := by
    rw [(((hx.trans hx₁).trans hx₂).trans hx₃).entity, entity, hregistered.names,
      namespaceName_registers]
    rfl
  have hiff := hsound₃.slotOf_eq_iff (hkeep ▸ hnea) (hslotb ▸ hneb)
  rwa [hkeep, hslotb, hentity, hentity] at hiff

/-- A bare name and a qualified one for an entry that the namespace lacks, and a name of a local
entry. -/
theorem resolve_identifies_sample :
    let t := Operation.after (registers [("Point", .struct)]) (new "Sample" (.ofStrings []))
    ∃ ref t₁, t.resolve {} "Mask" = (.ok ref, t₁) ∧ t₁.resolve {} "Mask" = (.ok ref, t₁) ∧
      (∀ ref' t₂, t₁.resolve {} "Sample.Mask" = (.ok ref', t₂) → ref = ref') ∧
      ∀ ref' t₂, t₁.resolve {} "Sample.Point" = (.ok ref', t₂) → ref ≠ ref' := by
  intro t
  have identifies (b : String) := resolve_identifies "Sample" [] [("Point", .struct)] [] []
    {} {} rfl rfl "Mask" b
  obtain ⟨ref, t₁, hfirst⟩ := (identifies "Mask").1 (by decide +kernel)
  obtain ⟨hagain, hmask⟩ := (identifies "Sample.Mask").2 ref t₁ hfirst
  obtain ⟨-, hpoint⟩ := (identifies "Sample.Point").2 ref t₁ hfirst
  refine ⟨ref, t₁, hfirst, hagain, fun ref' t₂ hb => ?_, fun ref' t₂ hb => ?_⟩
  · exact (hmask ref' t₂ hb).2 (by decide +kernel)
  · exact fun he => absurd ((hpoint ref' t₂ hb).1 he) (by decide +kernel)

end SymbolTable

end Typelib
