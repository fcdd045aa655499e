import Typelib.Proofs.Reading.Spec

/-!
# Strings, names and types are read back

What a draft refers to is found in its file: the text of a string, the entry that a name stands for,
and the shape of a type.

* `Draft.reading`: the file of a draft, compared with what it was made from;
* `Assembled.refers`: the slot of a name leads to what the name stands for;
* `Assembled.readsType`: stored types say what they were.
-/

namespace Typelib

/-! ### Flags -/

theorem lookup_zip_range' (bs : List Bool) (k i : Nat) :
    (((List.range' k bs.length).zip bs).lookup (k + i)).getD false = bs.getD i false := by
  induction bs generalizing k i with
  | nil => simp
  | cons b bs ih =>
    rw [List.length_cons, List.range'_succ, List.zip_cons_cons]
    cases i with
    | zero => simp
    | succ i =>
      have hne : (k + (i + 1) == k) = false := by simp
      have hsum : k + (i + 1) = k + 1 + i := by omega
      rw [List.lookup_cons, hne, hsum]
      exact (ih (k + 1) i).trans List.getD_cons_succ.symm

/-- The word of some flags holds each at its place. -/
theorem flags_flagWord (bs : List Bool) :
    Flags (flagWord bs) ((List.range' 0 bs.length).zip bs) := by
  intro i
  have hlookup := lookup_zip_range' bs 0 i
  rw [Nat.zero_add] at hlookup
  rw [hlookup, testBit_flagWord]

theorem flags_ofNat8 {bs : List Bool} (h : bs.length ≤ 8) :
    Flags (UInt8.ofNat (flagWord bs)).toNat ((List.range' 0 bs.length).zip bs) := by
  rw [toNat_flags8 h]
  exact flags_flagWord bs

theorem flags_ofNat16 {bs : List Bool} (h : bs.length ≤ 16) :
    Flags (UInt16.ofNat (flagWord bs)).toNat ((List.range' 0 bs.length).zip bs) := by
  rw [toNat_flags16 h]
  exact flags_flagWord bs

theorem flags_ofNat32 {bs : List Bool} (h : bs.length ≤ 32) :
    Flags (UInt32.ofNat (flagWord bs)).toNat ((List.range' 0 bs.length).zip bs) := by
  rw [toNat_flags32 h]
  exact flags_flagWord bs

/-! ### Names of local entries -/

namespace SymbolTable

variable {t : SymbolTable}

/-- A local name is looked up at its first position. -/
theorem Sound.lookup_of_idxOf? (h : t.Sound) {name : String} {i : Nat}
    (hi : t.localNames.toList.idxOf? name = some i) :
    ∃ s, t.lookup name = some s ∧ DirRef.ofIndex? i = some s.ref := by
  obtain ⟨hlt, hname, -⟩ := List.idxOf?_eq_some_iff.1 hi
  have hget : t.localNames[i]? = some name := by
    rw [← Array.getElem?_toList, List.getElem?_eq_getElem hlt]
    simpa using hname
  obtain ⟨s, -, hs, hr, -⟩ := h.localSlot i name hget
  exact ⟨s, hs, hr⟩

end SymbolTable

/-! ### Files of drafts -/

/-- The file of a draft, compared with what it was made from. -/
def Draft.reading (d : Draft) (img : Image) : Reading where
  img := img
  namespaceName := d.symbols.namespaceName
  locals := d.symbols.localNames.toList
  slot := d.symbols.slotOf
  place := fun s => (d.types[s.text]?).map d.bodyOffset

/-- What a name stands for in a file is what it stood for when the file was made. -/
theorem Draft.meaning_eq {d : Draft} (hs : d.symbols.Sound) (img : Image) (name : String) :
    match (d.reading img).referent name with
    | .entry i => ∃ s, d.symbols.meaning name = .entry s ∧ DirRef.ofIndex? i = some s.ref
    | .external ns symbol => d.symbols.meaning name = .external ns symbol := by
  -- the file knows local entries by their positions, and the draft by their names
  have hlocals : (d.reading img).locals = d.symbols.localNames.toList := rfl
  have hns : (d.reading img).namespaceName = d.symbols.namespaceName := rfl
  unfold Reading.referent SymbolTable.meaning
  rw [hlocals, hns]
  cases hi : d.symbols.localNames.toList.idxOf? name with
  | some i =>
    obtain ⟨s, hlookup, hr⟩ := hs.lookup_of_idxOf? hi
    simp only [hlookup]
    exact ⟨s, rfl, hr⟩
  | none =>
    simp only [hs.lookup_eq_none.2 (List.idxOf?_eq_none_iff.1 hi)]
    cases hsplit : SymbolTable.splitName name with
    | none => rfl
    | some parts =>
      obtain ⟨ns, symbol⟩ := parts
      by_cases hsame : ns = d.symbols.namespaceName
      · simp only [if_pos hsame]
        cases hj : d.symbols.localNames.toList.idxOf? symbol with
        | some j =>
          obtain ⟨s, hlookup, hr⟩ := hs.lookup_of_idxOf? hj
          simp only [hlookup]
          exact ⟨s, rfl, hr⟩
        | none => simp only [hs.lookup_eq_none.2 (List.idxOf?_eq_none_iff.1 hj)]
      · simp only [if_neg hsame]

namespace Assembled

variable {works : List Work} {d : Draft} {img : Image} {t : Ty} {name : String}

theorem readsName (ha : Assembled works d img) (h : (d.symbols.pool.get? name).isSome) :
    (d.reading img).ReadsName (d.stringOffset name) name := (ha.string name h).2

theorem readsOptName (ha : Assembled works d img) {s : Option String}
    (h : ∀ name, s = some name → (d.symbols.pool.get? name).isSome) :
    (d.reading img).ReadsOptName (d.optOffset s) s := by
  cases s with
  | none => rfl
  | some name =>
    obtain ⟨hne, hread⟩ := ha.string name (h name rfl)
    have hopt : img.optString (d.stringOffset name) = .ok (some (Text.cut name)) := by
      rw [Image.optString, if_neg hne, hread]
      rfl
    exact hopt

/-- The slot of a name leads to what the name stands for. -/
theorem refers (ha : Assembled works d img) (hne : d.symbols.slotOf name ≠ .none) :
    (d.reading img).Refers name := by
  have hs := ha.accounts.symbols
  have hmeaning := Draft.meaning_eq hs img name
  unfold Reading.Refers
  cases href : (d.reading img).referent name with
  | entry i =>
    simp only [href] at hmeaning ⊢
    obtain ⟨s, hm, hr⟩ := hmeaning
    have hslot : (d.reading img).slot name = s.ref := by
      simp only [Draft.reading, SymbolTable.slotOf, hm]
    rw [hslot, hr]
  | external ns symbol =>
    simp only [href] at hmeaning ⊢
    simp only [SymbolTable.slotOf, hmeaning] at hne
    cases hk : d.symbols.externals[ns ++ "." ++ symbol]? with
    | none =>
      rw [hk] at hne
      exact absurd rfl hne
    | some ref =>
      have hslot : (d.reading img).slot name = ref := by
        simp only [Draft.reading, SymbolTable.slotOf, hmeaning, hk, Option.getD_some]
      obtain ⟨i, hi, offset, nsOffset, hslots, ho, hns⟩ :=
        hs.slot_of_external (SymbolTable.meaning_external hmeaning) hk
      have hsymbol := (ha.string symbol (by rw [ho]; rfl)).2
      have hnamespace := (ha.string ns (by rw [hns]; rfl)).2
      simp only [Draft.stringOffset, ho, hns, Option.getD_some] at hsymbol hnamespace
      exact ⟨d.dirEntry ⟨.invalid, offset, .foreign nsOffset⟩, hslot ▸ ha.entry i ref _ hi hslots,
        rfl, EntryKind.ofCode?_code .invalid, hsymbol, hnamespace⟩

/-- The slot of a name is read back as it is stored. -/
theorem readsSlot (ha : Assembled works d img) (h : d.symbols.Settled d.options name) :
    (d.reading img).ReadsSlot (d.symbols.slotOf name) name := ⟨rfl, ha.refers h.ne_none⟩

/-- The shape of a type whose names have slots is shown. -/
theorem shows_shape (ha : Assembled works d img) (hk : d.Knows t) :
    (d.reading img).Shows (t.shape d.symbols.slotOf) t := by
  induction t with
  | scalar kind p => exact ⟨rfl, rfl⟩
  | interface name p => exact ⟨ha.readsSlot (hk name (List.mem_singleton_self _)), rfl⟩
  | array element z l p ih => exact ⟨ih hk, rfl, rfl, rfl⟩
  | list element p ih | slist element p ih => exact ⟨ih hk, rfl⟩
  | hash key value p ihk ihv =>
    exact ⟨ihk fun name hn => hk name (List.mem_append_left _ hn),
      ihv fun name hn => hk name (List.mem_append_right _ hn), rfl⟩
  | error names p =>
    refine ⟨DirRef.pairwise_sorted _, fun ref href => ?_, fun name hn => ?_, rfl⟩
    · rw [DirRef.mem_sorted, List.mem_map] at href
      obtain ⟨name, hn, rfl⟩ := href
      exact ⟨name, hn, ha.readsSlot (hk name hn)⟩
    · exact ⟨_, DirRef.mem_sorted.2 (List.mem_map_of_mem hn), ha.readsSlot (hk name hn)⟩

theorem readsRef (ha : Assembled works d img) (hs : d.Stores t) :
    (d.reading img).ReadsRef (d.typeRef t) t where
  tag := tag?_typeRef d t
  flags := by
    have hflags : (d.typeRef t).flags = .ofNat (flagWord [t.pointer]) := by cases t <;> rfl
    rw [hflags]
    have hlen : [t.pointer].length ≤ 8 := by simp
    exact flags_ofNat8 hlen
  interface hne := by
    cases t with
    | interface => exact absurd rfl hne
    | _ => rfl
  noOffset hc := by
    cases t with
    | scalar | interface => rfl
    | _ => cases hc
  offset hc := by
    obtain ⟨_, _, _, -, -, -, hpos⟩ := ha.body_of_stores hs hc
    have hplace : (d.reading img).place (t.shape (d.reading img).slot) =
        some (d.bodyOffset (d.sharedBody t)) := congrArg (Option.map d.bodyOffset) (hs.body hc)
    rw [hplace, Draft.typeRef_of_complex hc]
    exact ⟨ne_zero_of_toNat_pos hpos, rfl⟩

theorem stores_parts (ha : Assembled works d img) (hs : d.Stores t) :
    ∀ u ∈ t.parts, d.Stores u := by
  induction t with
  | scalar | interface | error =>
    intro u hu
    rw [List.mem_singleton.1 hu]
    exact hs
  | array element _ _ _ ih | list element _ ih | slist element _ ih =>
    intro u hu
    rcases List.mem_cons.1 hu with rfl | hu
    · exact hs
    · exact ih (ha.stores_inner hs (List.mem_singleton_self _)) u hu
  | hash key value _ ihk ihv =>
    intro u hu
    rcases List.mem_cons.1 hu with rfl | hu
    · exact hs
    · rcases List.mem_append.1 hu with hu | hu
      · exact ihk (ha.stores_inner hs (by simp [Ty.inner])) u hu
      · exact ihv (ha.stores_inner hs (by simp [Ty.inner])) u hu

/-- A stored type says what it was. -/
theorem readsType (ha : Assembled works d img) (hs : d.Stores t) :
    (d.reading img).ReadsType (d.typeRef t) t where
  toReadsRef := ha.readsRef hs
  parts fuel hf := by
    refine ⟨_, ha.parts?_typeRef hs hf, ?_⟩
    rw [List.forall₂_map_left_iff, List.forall₂_same]
    exact fun u hu => ha.readsRef (ha.stores_parts hs u hu)
  shape fuel hf := ⟨_, ha.shape?_typeRef hs hf, ha.shows_shape hs.knows⟩

/-- No two shapes have one place. -/
theorem place_injective (ha : Assembled works d img) {s s' : Shape} {offset : UInt32}
    (h : (d.reading img).place s = some offset) (h' : (d.reading img).place s' = some offset) :
    s = s' := by
  obtain ⟨id, hid, rfl⟩ := Option.map_eq_some_iff.1 h
  obtain ⟨id', hid', ho⟩ := Option.map_eq_some_iff.1 h'
  obtain ⟨t, hw, -, -, ht⟩ := ha.accounts.shared _ _ hid
  obtain ⟨t', hw', -, -, ht'⟩ := ha.accounts.shared _ _ hid'
  -- one place is one body, and a body was promised to one type
  have hsame := ha.injective _ _ (List.getElem?_eq_some_iff.1 hw').1
    (List.getElem?_eq_some_iff.1 hw).1 ho
  rw [hsame, hw] at hw'
  cases hw'
  exact Shape.text_injective (ht.symm.trans ht')

end Assembled

end Typelib
