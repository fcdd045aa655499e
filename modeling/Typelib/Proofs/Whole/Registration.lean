import Typelib.Proofs.Acceptance.Accepted
import Typelib.Proofs.Whole.Steps

/-!
# Entries that are registered late

An entry may be registered when bodies stand already, as long as no other namespace was referred to.
The names in those bodies then stand for local entries. They keep their slots, unless the new entry
has a name that was taken for the qualified name of another entry.

* `SymbolTable.Hides`: the entry would take over a qualified name;
* `SymbolTable.Sound.settled_register`: any other entry leaves the names alone that have slots;
* `Ledger.register`: the bodies that stand are those of the larger draft.
-/

namespace Typelib

/-! ### Names that keep their slots -/

namespace SymbolTable

variable {t t' : SymbolTable} {name n : String} {kind : EntryKind} {symbol s : Symbol}

/-- The name is taken for the qualified name of a local entry. -/
def Hides (t : SymbolTable) (name : String) : Prop :=
  ∃ other ∈ t.localNames.toList, name = t.namespaceName ++ "." ++ other

/-- A table with a new local entry. -/
theorem register_eq_ok (h : t.register name kind = (.ok symbol, t')) :
    t.locals[name]? = none ∧ t.slots.size ≤ t.localNames.size ∧ symbol.id = t.nextId ∧
      DirRef.ofIndex? t.slots.size = some symbol.ref ∧
      t' = { (t.allocate.2.intern name).2 with
        slots := t.slots.push ⟨kind, (t.allocate.2.intern name).1, .body t.nextId⟩
        locals := t.locals.insert name symbol
        localNames := t.localNames.push name } := by
  obtain ⟨e, he⟩ | ⟨hnone, hsize, ⟨ref, href, he⟩ | ⟨-, he⟩⟩ := register_eq t name kind <;>
    rw [he] at h <;> cases h
  exact ⟨hnone, hsize, rfl, href, rfl⟩

/-- As long as all slots are those of local entries, only their names have slots. -/
theorem Sound.exists_entry (h : t.Sound) (hsize : t.slots.size ≤ t.localNames.size)
    (hn : t.slotOf n ≠ .none) : ∃ s, t.meaning n = .entry s := by
  cases hm : t.meaning n with
  | entry s => exact ⟨s, rfl⟩
  | external ns symbol =>
    rw [slotOf, hm] at hn
    cases hk : t.externals[ns ++ "." ++ symbol]? with
    | none => simp [hk] at hn
    | some ref =>
      obtain ⟨i, hle, hlt, -⟩ := h.known _ ref hk
      omega

/-- A name that stands for a local entry stands for it when there is one more, which does not hide
it. -/
theorem Sound.meaning_register (h : t.Sound) (hr : t.register name kind = (.ok symbol, t'))
    (hhides : ¬ t.Hides name) (hm : t.meaning n = .entry s) : t'.meaning n = .entry s := by
  obtain ⟨hnone, -, -, -, rfl⟩ := register_eq_ok hr
  have lookup_of_ne {n : String} (hne : name ≠ n) :
      (t.locals.insert name symbol)[n]? = t.locals[n]? := by
    simp only [Std.TreeMap.getElem?_insert, Std.compare_eq_iff_eq, hne, ↓reduceIte]
  have old {n : String} {s : Symbol} (hs : t.lookup n = some s) : name ≠ n := by
    rintro rfl
    rw [lookup, hnone] at hs
    cases hs
  obtain hs | ⟨hmissing, other, hdot, rfl, hs⟩ := meaning_eq_entry.1 hm
  · exact meaning_eq_entry.2 (.inl ((lookup_of_ne (old hs)).trans hs))
  · -- the name is the qualified one of an older entry
    have hne : name ≠ t.namespaceName ++ "." ++ other := fun hsame =>
      hhides ⟨other, h.mem_localNames.2 ⟨s, hs⟩, hsame⟩
    exact meaning_eq_entry.2 (.inr ⟨(lookup_of_ne hne).trans hmissing, other, hdot, rfl,
      (lookup_of_ne (old hs)).trans hs⟩)

/-- Names that have slots keep them when there is one more local entry, which hides none of them. -/
theorem Sound.settled_register (h : t.Sound) (hr : t.register name kind = (.ok symbol, t'))
    (hhides : ¬ t.Hides name) {options : Options} (hn : t.Settled options n) :
    t'.Settled options n ∧ t'.slotOf n = t.slotOf n := by
  obtain ⟨-, hsize, -⟩ := register_eq_ok hr
  obtain ⟨s, hm⟩ := h.exists_entry hsize hn.ne_none
  have hm' := h.meaning_register hr hhides hm
  have hslot : t'.slotOf n = t.slotOf n := by simp only [slotOf, hm, hm']
  refine ⟨⟨hslot ▸ hn.ne_none, ?_⟩, hslot⟩
  simp only [SymbolTable.resolve, SymbolTable.slotOf, hm']

end SymbolTable

/-! ### Drafts that agree -/

/-- In the files of two drafts everything stands in the same place, as far as certain names go. -/
structure Draft.Agrees (d d' : Draft) (names : List String) : Prop where
  offset : d'.offset = d.offset
  pool : d'.symbols.pool = d.symbols.pool
  types : d'.types = d.types
  settled : ∀ name ∈ names, d'.symbols.Settled d'.options name
  slotOf : ∀ name ∈ names, d'.symbols.slotOf name = d.symbols.slotOf name

variable {works works' : List Work} {d d' : Draft} {c : Cell} {cs : List Cell} {pos : Nat}
  {bs : List UInt8} {ids : List BodyId} {ps : List Piece}

/-- The names of a cell that became bytes have slots. -/
theorem Cell.Fills.settled (h : c.Fills d works pos bs ids) :
    ∀ name ∈ c.names, d.symbols.Settled d.options name := by
  cases c with
  | slot s => exact List.forall_mem_singleton.2 h.1
  | type t => exact h.1.knows
  | errorType flags names => exact h.1
  | _ => exact fun _ hn => by cases hn

/-- A cell becomes the same bytes in drafts that agree on its names. -/
theorem Cell.Fills.agree (h : c.Fills d works pos bs ids) (ha : d.Agrees d' c.names) :
    c.Fills d' works pos bs ids := by
  have hstring (s : String) : d'.stringOffset s = d.stringOffset s := by
    rw [Draft.stringOffset, Draft.stringOffset, ha.offset, ha.pool]
  have hbody (id : BodyId) : d'.bodyOffset id = d.bodyOffset id := by
    rw [Draft.bodyOffset, Draft.bodyOffset, ha.offset]
  cases c with
  | name s => rwa [Cell.Fills, hstring, ha.pool]
  | optName s =>
    cases s with
    | none => exact h
    | some s => rwa [Cell.Fills, hstring, ha.pool]
  | slot s =>
    refine ⟨ha.settled s (List.mem_singleton_self s), ?_, h.2.2⟩
    rw [ha.slotOf s (List.mem_singleton_self s)]
    exact h.2.1
  | type t =>
    obtain ⟨hstores, hbytes, hids⟩ := h
    have hshape : t.shape d'.symbols.slotOf = t.shape d.symbols.slotOf := Ty.shape_congr ha.slotOf
    have hshared : d'.sharedBody t = d.sharedBody t := by
      rw [Draft.sharedBody, Draft.sharedBody, hshape, ha.types]
    have href : d'.typeRef t = d.typeRef t := by
      cases t with
      | scalar => rfl
      | interface s p => rw [Draft.typeRef, Draft.typeRef, ha.slotOf s (List.mem_singleton_self s)]
      | _ => rw [Draft.typeRef, Draft.typeRef, hshared, hbody] <;> simp
    refine ⟨⟨ha.settled, fun hc => ?_⟩, href ▸ hbytes, hids⟩
    rw [hshape, ha.types, hshared]
    exact hstores.body hc
  | signature | value =>
    obtain ⟨id, hw, hbytes, hids⟩ := h
    exact ⟨id, hw, hbody id ▸ hbytes, hids⟩
  | errorType flags names =>
    obtain ⟨-, hmax, hrow, hids⟩ := h
    have hrefs : d'.domainRefs names = d.domainRefs names := by
      rw [Draft.domainRefs, Draft.domainRefs]
      exact congrArg DirRef.sorted (List.map_congr_left ha.slotOf)
    exact ⟨ha.settled, hrefs ▸ hmax, hrefs ▸ hrow, hids⟩
  | reject => exact h.elim
  | _ => exact h

theorem Fills.agree : ∀ {pos : Nat} {bs : List UInt8} {ids : List BodyId},
    Fills d works pos cs bs ids → d.Agrees d' (cs.flatMap Cell.names) →
    Fills d' works pos cs bs ids := by
  induction cs with
  | nil => exact fun h _ => h
  | cons c cs ih =>
    rintro pos bs ids ⟨bs₁, ids₁, bs₂, ids₂, hc, hcs, he⟩ ha
    have first : ∀ name ∈ c.names, name ∈ (c :: cs).flatMap Cell.names := fun name hn =>
      List.mem_flatMap.2 ⟨c, List.mem_cons_self, hn⟩
    have rest : ∀ name ∈ cs.flatMap Cell.names, name ∈ (c :: cs).flatMap Cell.names := by
      simp +contextual
    exact ⟨bs₁, ids₁, bs₂, ids₂,
      hc.agree { ha with
        settled := fun name hn => ha.settled name (first name hn)
        slotOf := fun name hn => ha.slotOf name (first name hn) },
      ih hcs { ha with
        settled := fun name hn => ha.settled name (rest name hn)
        slotOf := fun name hn => ha.slotOf name (rest name hn) }, he⟩

/-! ### Bodies that stand -/

/-- The account of a draft with a new entry. -/
theorem Accounts.register {node : Node} {kind : EntryKind} {symbol : Symbol} {t : SymbolTable}
    (ha : Accounts works d) (hr : d.symbols.register node.name kind = (.ok symbol, t))
    (hfew : t.handedOut < UInt32.size) (hhides : ¬ d.symbols.Hides node.name) :
    Accounts (works ++ [.entry node]) { d with symbols := t } := by
  have hsound := ha.symbols.register node.name kind
  rw [hr] at hsound
  have hcount : t.handedOut = d.symbols.handedOut + 1 := by
    obtain ⟨-, -, -, -, rfl⟩ := SymbolTable.register_eq_ok hr
    rfl
  have kept {id : BodyId} {w : Work} (hw : works[id.toNat]? = some w) :
      (works ++ [.entry node])[id.toNat]? = some w := getElem?_of_prefix (List.prefix_append _ _) hw
  refine ⟨hsound, hfew, by simp [ha.length, hcount], fun text id ht => ?_,
    fun item hm => kept (ha.types item hm), fun item hm => kept (ha.signatures item hm),
    fun item hm => kept (ha.constants item hm)⟩
  obtain ⟨type, hw, hk, hc, htext⟩ := ha.shared text id ht
  have hnames (name : String) (hn : name ∈ type.names) :=
    ha.symbols.settled_register hr hhides (hk name hn)
  refine ⟨type, kept hw, fun name hn => (hnames name hn).1, hc, ?_⟩
  rw [← htext]
  exact congrArg Shape.text (Ty.shape_congr fun name hn => (hnames name hn).2)

/-- Bodies that stand are those of the draft with a new entry. -/
theorem Ledger.register {node : Node} {kind : EntryKind} {symbol : Symbol} {t : SymbolTable}
    (hl : Ledger works d ps) (hr : d.symbols.register node.name kind = (.ok symbol, t))
    (hfew : t.handedOut < UInt32.size) (hhides : ¬ d.symbols.Hides node.name) :
    Ledger (works ++ [.entry node]) { d with symbols := t } ps := by
  have hw : works <+: works ++ [.entry node] := List.prefix_append _ _
  refine hl.transfer (hl.accounts.register hr hfew hhides) hw rfl ?_
  intro start cs body ids hfill W F hW hF
  -- a later draft without the new entry is one behind the old draft
  let F₀ : Draft := { F with
    symbols := { F.symbols with
      locals := d.symbols.locals
      localNames := d.symbols.localNames } }
  have hF₀ : d.Extends F₀ := by
    obtain ⟨hoptions, hsymbols, htypes, hlibrary⟩ := hF
    obtain ⟨-, -, -, -, rfl⟩ := SymbolTable.register_eq_ok hr
    refine ⟨hoptions, ?_, htypes, hlibrary⟩
    exact {
      pool := (StringPool.extends_intern _ _).trans hsymbols.pool
      namespaceName := hsymbols.namespaceName
      namespaceOffset := hsymbols.namespaceOffset
      slots := fun i slot hs => hsymbols.slots i slot (SymbolTable.getElem?_push_of_some hs)
      locals := rfl
      localNames := rfl
      externals := hsymbols.externals
      handedOut := Nat.le_of_succ_le hsymbols.handedOut }
  have hnames (name : String) (hn : name ∈ cs.flatMap Cell.names) :
      d.symbols.Settled d.options name := by
    obtain ⟨c, hc, hn⟩ := List.mem_flatMap.1 hn
    obtain ⟨_, _, _, h⟩ := (hfill works d (List.prefix_refl _) (.refl d)).exists_of_mem hc
    exact h.settled name hn
  refine (hfill W F₀ (hw.trans hW) hF₀).agree ⟨rfl, rfl, rfl, fun name hn => ?_, fun name hn => ?_⟩
  · exact hF.settled (hl.accounts.symbols.settled_register hr hhides (hnames name hn)).1
  · have hold := hnames name hn
    obtain ⟨hnew, hsame⟩ := hl.accounts.symbols.settled_register hr hhides hold
    exact (hF.symbols.slotOf hnew.ne_none).trans <|
      hsame.trans (hF₀.symbols.slotOf hold.ne_none).symm

end Typelib
