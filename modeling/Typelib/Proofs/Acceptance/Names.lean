import Mathlib.Data.List.Perm.Subperm
import Typelib.Proofs.Acceptance.Spec
import Typelib.Proofs.Build.Failing
import Typelib.Proofs.Build.Naming

/-!
# Names are refused for a reason

While a description is built, each entry of another namespace that has a slot is one that the
description refers to. So the slots never outnumber the entries of the description, and a name that
is refused is not admitted by the description, or there are too many entries.

* `Scope.Governs`: the names of a draft are those of a scope;
* `Build.Resolves`: a step keeps that, and is refused for a reason.
-/

namespace Typelib

/-! ### Counting slots -/

namespace SymbolTable

variable {t : SymbolTable}

/-- The position of the slot of a qualified name. -/
def externalIndex (t : SymbolTable) (key : String) : Nat :=
  (t.externals[key]?.bind DirRef.index?).getD 0

theorem Sound.externalIndex_of_known (h : t.Sound) {key : String} {ref : DirRef}
    (hk : t.externals[key]? = some ref) :
    DirRef.ofIndex? (t.externalIndex key) = some ref ∧ t.localNames.size ≤ t.externalIndex key ∧
      t.externalIndex key < t.slots.size := by
  obtain ⟨i, hle, hlt, hi⟩ := h.known key ref hk
  have hindex : t.externalIndex key = i := by
    simp [externalIndex, hk, DirRef.index?_eq_of_ofIndex? hi]
  exact hindex ▸ ⟨hi, hle, hlt⟩

/-- A slot is refused only if the directory is full. -/
theorem pushSlot_eq_error {slot : Slot} {e : BuildError} (hs : t.slots.size < UInt16.size)
    (h : (t.pushSlot slot).1 = .error e) :
    t.slots.size = 65535 ∧ e = .tooManyEntries 65536 := by
  obtain ⟨_, -, he⟩ | ⟨hfull, he⟩ := pushSlot_eq t slot <;> rw [he] at h <;> cases h
  have hsize : t.slots.size = 65535 := by
    have hmax : UInt16.size = 65536 := rfl
    simp only [Full, DirRef.ofIndex?, ite_eq_right_iff, reduceCtorEq, imp_false] at hfull
    omega
  exact ⟨hsize, by rw [hsize]⟩

/-- There is one slot for each local entry and for each entry of another namespace. -/
theorem Sound.size_slots (h : t.Sound) : t.localNames.size + t.externals.size = t.slots.size := by
  have hnodup : (t.externals.keys.map t.externalIndex).Nodup := by
    refine List.Nodup.map_on (fun key hkey key' hkey' he => ?_) Std.TreeMap.nodup_keys
    obtain ⟨ref, hk⟩ := mem_externals.1 hkey
    obtain ⟨ref', hk'⟩ := mem_externals.1 hkey'
    have hi := (h.externalIndex_of_known hk).1
    have hi' := (h.externalIndex_of_known hk').1
    rw [he, hi'] at hi
    cases hi
    exact h.injective _ _ _ hk hk'
  have hperm : (t.externals.keys.map t.externalIndex).Perm
      (List.range' t.localNames.size (t.slots.size - t.localNames.size)) := by
    rw [List.perm_ext_iff_of_nodup hnodup List.nodup_range']
    intro i
    rw [List.mem_map, List.mem_range'_1]
    have hcount := h.count
    constructor
    · rintro ⟨key, hkey, rfl⟩
      obtain ⟨ref, hk⟩ := mem_externals.1 hkey
      obtain ⟨-, hle, hlt⟩ := h.externalIndex_of_known hk
      omega
    · rintro ⟨hle, hlt⟩
      have hi : i < t.slots.size := by omega
      obtain ⟨ns, symbol, -, ref, -, -, -, -, hr, hk⟩ :=
        h.foreignSlot i t.slots[i] hle (Array.getElem?_eq_getElem hi)
      exact ⟨_, mem_externals.2 ⟨ref, hk⟩, DirRef.ofIndex?_inj (h.externalIndex_of_known hk).1 hr⟩
  have hlength := hperm.length_eq
  rw [List.length_map, Std.TreeMap.length_keys, List.length_range'] at hlength
  have hcount := h.count
  omega

end SymbolTable

/-! ### Scopes -/

namespace Scope

variable {s : Scope} {d d' : Draft} {name ns symbol : String}

/-- The qualified name of an entry. -/
def qualified (p : String × String) : String := p.1 ++ "." ++ p.2

theorem foreign?_dotless (h : s.foreign? name = some (ns, symbol)) : '.' ∉ symbol.toList := by
  unfold foreign? at h
  split_ifs at h
  split at h
  next hn =>
    cases h
    exact SymbolTable.splitName_eq_none hn
  next hsplit =>
    split_ifs at h
    cases h
    exact (SymbolTable.splitName_eq_some hsplit).2

theorem mem_foreigns {p : String × String} :
    p ∈ s.foreigns ↔ ∃ name ∈ s.names, s.foreign? name = some p := by
  simp [foreigns]

theorem nodup_qualified (s : Scope) : (s.foreigns.map qualified).Nodup := by
  refine List.Nodup.map_on (fun p hp q hq he => ?_) (List.nodup_dedup _)
  obtain ⟨_, -, hp⟩ := mem_foreigns.1 hp
  obtain ⟨_, -, hq⟩ := mem_foreigns.1 hq
  have hparts := SymbolTable.qualified_inj (foreign?_dotless hp) (foreign?_dotless hq) he
  exact Prod.ext hparts.1 hparts.2

/-- A name means an entry that is not local if and only if the scope says so. -/
theorem meaning_eq_external {t : SymbolTable} (h : t.Sound)
    (hns : t.namespaceName = s.namespaceName) (hlocals : t.localNames.toList = s.locals) :
    t.meaning name = .external ns symbol ↔ s.foreign? name = some (ns, symbol) := by
  have lookup {n : String} : t.lookup n = none ↔ n ∉ s.locals := by
    rw [← hlocals, h.lookup_eq_none]
  unfold SymbolTable.meaning foreign?
  cases hl : t.lookup name with
  | some symbol' =>
    have hmem : name ∈ s.locals := by
      by_contra hn
      rw [lookup.2 hn] at hl
      cases hl
    simp [hmem]
  | none =>
    rw [if_neg (lookup.1 hl), hns]
    cases SymbolTable.splitName name with
    | none => simp
    | some parts =>
      obtain ⟨ns', symbol'⟩ := parts
      simp only
      by_cases hsame : ns' = s.namespaceName
      · cases hl' : t.lookup symbol' with
        | some found =>
          have hmem : symbol' ∈ s.locals := by
            by_contra hn
            rw [lookup.2 hn] at hl'
            cases hl'
          simp [hsame, hmem]
        | none => simp [hsame, lookup.1 hl']
      · simp [hsame]

/-- The names of a draft are those of a scope, and it has slots for no other entries than those that
the scope refers to. -/
structure Governs (s : Scope) (d : Draft) : Prop where
  symbols : d.symbols.Sound
  options : d.options = s.options
  namespaceName : d.symbols.namespaceName = s.namespaceName
  locals : d.symbols.localNames.toList = s.locals
  externals : ∀ (key : String) (ref : DirRef), d.symbols.externals[key]? = some ref →
    key ∈ s.foreigns.map qualified

namespace Governs

theorem meaning_eq_external (h : s.Governs d) :
    d.symbols.meaning name = .external ns symbol ↔ s.foreign? name = some (ns, symbol) :=
  Scope.meaning_eq_external h.symbols h.namespaceName h.locals

/-- The name of an entry that is not local is resolved if the scope admits it. -/
theorem resolve_eq (h : s.Governs d) (hf : s.foreign? name = some (ns, symbol)) :
    s.Admits name ∧ d.symbols.resolve d.options name = d.symbols.external ns symbol ∨
      ¬ s.Admits name ∧
        d.symbols.resolve d.options name = (.error (.unresolvedName name), d.symbols) := by
  have hm := h.meaning_eq_external.2 hf
  simp only [SymbolTable.resolve, hm, h.options, h.namespaceName]
  -- what is checked is that the name is not admitted
  have hcheck : (s.options.strict && (ns == s.namespaceName || !s.options.admits ns)) = true ↔
      ¬ s.Admits name := by
    have hadmits : s.Admits name ↔ (s.options.strict = true →
        ns ≠ s.namespaceName ∧ ns ∈ s.options.includes) := by
      simp [Admits, hf]
    rw [hadmits]
    cases hstrict : s.options.strict <;> simp [Options.admits, hstrict, imp_iff_not_or]
  by_cases ha : s.Admits name
  · exact .inl ⟨ha, if_neg fun hc => hcheck.1 hc ha⟩
  · exact .inr ⟨ha, if_pos (hcheck.2 ha)⟩

theorem mono (h : s.Governs d) (hn : d.Extends d') (hs : d'.symbols.Sound)
    (he : ∀ (key : String) (ref : DirRef), d'.symbols.externals[key]? = some ref →
      key ∈ s.foreigns.map qualified) : s.Governs d' where
  symbols := hs
  options := hn.options.trans h.options
  namespaceName := hn.symbols.namespaceName.trans h.namespaceName
  locals := hn.symbols.localNames ▸ h.locals
  externals := he

theorem keys_subset (h : s.Governs d) : d.symbols.externals.keys ⊆ s.foreigns.map qualified := by
  intro key hkey
  obtain ⟨ref, hk⟩ := SymbolTable.mem_externals.1 hkey
  exact h.externals key ref hk

theorem length_locals (h : s.Governs d) : d.symbols.localNames.size = s.locals.length := by
  rw [← h.locals, Array.length_toList]

/-- One more entry that has no slot yet: there are more entries than slots. -/
theorem lt_of_unknown (h : s.Governs d) {p : String × String} (hp : p ∈ s.foreigns)
    (hnone : d.symbols.externals[qualified p]? = none) :
    d.symbols.slots.size < s.locals.length + s.foreigns.length := by
  have hnew : qualified p ∉ d.symbols.externals.keys := by
    rw [SymbolTable.mem_externals, hnone]
    simp
  have hsub : qualified p :: d.symbols.externals.keys ⊆ s.foreigns.map qualified :=
    List.cons_subset.2 ⟨List.mem_map_of_mem hp, h.keys_subset⟩
  have hle := (List.subperm_of_subset
    (List.nodup_cons.2 ⟨hnew, Std.TreeMap.nodup_keys⟩) hsub).length_le
  rw [List.length_cons, Std.TreeMap.length_keys, List.length_map] at hle
  have hslots := h.symbols.size_slots
  rw [h.length_locals] at hslots
  omega

end Governs

end Scope

/-! ### Steps that resolve names -/

namespace Build

variable {doc : Document} {options : Options} {α β : Type}

/-- A step keeps to the names of a description, and fails only if the description violates the
condition that its error names. -/
def Resolves (doc : Document) (options : Options) (x : Build α) : Prop :=
  ∀ d, (doc.scope options).Governs d → (doc.scope options).Governs (x.after d) ∧
    ∀ e, x.Fails d e → doc.Violates options e

theorem Resolves.pure (a : α) : Resolves doc options (pure a : Build α) :=
  fun _ hd => ⟨hd, fun _ h => absurd h not_fails_pure⟩

theorem Resolves.bind {x : Build α} {f : α → Build β} (hx : Resolves doc options x)
    (hf : ∀ a, Resolves doc options (f a)) : Resolves doc options (x >>= f) := by
  intro d hd
  obtain ⟨hgov, hfails⟩ := hx d hd
  simp only [Build.after, Fails] at hgov hfails ⊢
  rw [outcome_bind]
  revert hgov hfails
  obtain ⟨e | a, d₁⟩ := x.outcome d
  · exact fun hgov hfails => ⟨hgov, fun e' he => hfails e' (by cases he; rfl)⟩
  · exact fun hgov _ => hf a d₁ hgov

theorem Resolves.mapM {f : α → Build β} {as : List α} (hf : ∀ a ∈ as, Resolves doc options (f a)) :
    Resolves doc options (as.mapM f) := by
  induction as with
  | nil => exact .pure []
  | cons a as ih =>
    rw [List.mapM_cons]
    exact (hf a List.mem_cons_self).bind fun b =>
      (ih fun a ha => hf a (List.mem_cons_of_mem _ ha)).bind fun bs => .pure _

/-- A slot for an entry of the description is refused only if there are too many entries. -/
theorem external_violates {d : Draft} {p : String × String} {e : BuildError}
    (hd : (doc.scope options).Governs d) (hp : p ∈ (doc.scope options).foreigns)
    (h : (d.symbols.external p.1 p.2).1 = .error e) : doc.Violates options e := by
  unfold SymbolTable.external at h
  simp only at h
  split at h
  next => cases h
  next hnone =>
    split at h
    next e' t he =>
      cases h
      -- the table is full, and yet an entry is missing in it
      obtain ⟨hfull, rfl⟩ := SymbolTable.pushSlot_eq_error (by exact hd.symbols.size)
        (congrArg Prod.fst he)
      have hsize : d.symbols.slots.size = 65535 := hfull
      have hmore := hd.lt_of_unknown hp hnone
      have hlocals : (doc.scope options).locals.length = doc.nodes.length := List.length_map _
      refine .entries ?_
      rw [Document.entryCount]
      omega
    next => cases h

theorem resolves_resolve {name : String} (hn : name ∈ (doc.scope options).names) :
    Resolves doc options (resolve name) := by
  intro d hd
  have hext := ((within_resolve name) d).toExtends
  have hsound := hd.symbols.resolve d.options name
  have hfails : ∀ e, (resolve name).Fails d e ↔
      (d.symbols.resolve d.options name).1 = .error e := fun e => fails_onSymbols
  have hafter : ((resolve name).after d).symbols = (d.symbols.resolve d.options name).2 := rfl
  simp only [hfails]
  obtain ⟨_, -, he⟩ | ⟨ns, symbol, hm, -⟩ :=
    SymbolTable.resolve_eq d.symbols d.options name
  · refine ⟨hd.mono hext hsound ?_, fun e h => ?_⟩
    · rw [hafter, he]
      exact hd.externals
    · rw [he] at h
      cases h
  · have hforeign := hd.meaning_eq_external.1 hm
    have hp : (ns, symbol) ∈ (doc.scope options).foreigns :=
      Scope.mem_foreigns.2 ⟨name, hn, hforeign⟩
    obtain ⟨-, he⟩ | ⟨hrefused, he⟩ := hd.resolve_eq hforeign
    · refine ⟨hd.mono hext hsound fun key ref hk => ?_, fun e h => ?_⟩
      · rw [hafter, he] at hk
        obtain ⟨_, -, he'⟩ | ⟨-, ⟨ref', -, he'⟩ | ⟨-, he'⟩⟩ :=
          SymbolTable.external_eq d.symbols ns symbol <;> rw [he'] at hk
        · exact hd.externals key ref hk
        · simp only [Std.TreeMap.getElem?_insert, Std.compare_eq_iff_eq] at hk
          split at hk
          next heq => exact heq ▸ List.mem_map_of_mem (f := Scope.qualified) hp
          next => exact hd.externals key ref hk
        · exact hd.externals key ref hk
      · rw [he] at h
        exact external_violates hd hp h
    · refine ⟨hd.mono hext hsound ?_, fun e h => ?_⟩
      · rw [hafter, he]
        exact hd.externals
      · obtain ⟨node, hnode, hmem⟩ := List.mem_flatMap.1 hn
        rw [he] at h
        cases h
        exact .names hnode hmem hrefused

theorem resolves_names {x : Build α} (hx : Within Draft.Names x) (hf : ∀ d e, ¬ x.Fails d e)
    (he : ∀ d, (x.after d).symbols.externals = d.symbols.externals) : Resolves doc options x := by
  intro d hd
  refine ⟨hd.mono (hx d).toExtends ((hx d).sound hd.symbols) ?_, fun e h => absurd h (hf d e)⟩
  rw [he]
  exact hd.externals

theorem resolves_intern (s : String) : Resolves doc options (intern s) :=
  resolves_names (within_intern s) (fun _ _ => not_fails_intern) fun _ => rfl

theorem resolves_internOpt (s : Option String) : Resolves doc options (internOpt s) := by
  cases s with
  | none => exact .pure none
  | some s => exact (resolves_intern s).bind fun _ => .pure _

theorem resolves_domains {names : List String}
    (hn : ∀ name ∈ names, name ∈ (doc.scope options).names) :
    Resolves doc options (domains names) :=
  (Resolves.mapM fun name hname => resolves_resolve (hn name hname)).bind fun _ => .pure _

theorem resolves_shape {type : Ty} (hn : ∀ name ∈ type.names, name ∈ (doc.scope options).names) :
    Resolves doc options (shape type) := by
  induction type with
  | scalar kind p => exact .pure _
  | interface name p => exact (resolves_resolve (hn name (by simp [Ty.names]))).bind fun _ => .pure _
  | array element z l p ih => exact (ih hn).bind fun _ => .pure _
  | list element p ih => exact (ih hn).bind fun _ => .pure _
  | slist element p ih => exact (ih hn).bind fun _ => .pure _
  | hash key value p ihk ihv =>
    exact (ihk fun name h => hn name (List.mem_append_left _ h)).bind fun _ =>
      (ihv fun name h => hn name (List.mem_append_right _ h)).bind fun _ => .pure _
  | error names p => exact (resolves_domains hn).bind fun _ => .pure _

end Build

end Typelib
