import Typelib.Proofs.Acceptance.Cells
import Typelib.Proofs.Layout.Spec
import Typelib.Proofs.Reading.Names

/-!
# Cells hold the places of what they refer to

A cell that became bytes holds offsets. Once all offsets are known to be the places of strings and
bodies, the bytes of a cell lead to what it refers to, and cells follow one another without anything
between them.

* `Charted`: the offsets of a draft are the places of its strings and bodies;
* `Cell.Fills.next`, `Charted.shows`: where a cell ends and what it leads to;
* `Charted.shown`: the same of cells that stand one after another.
-/

namespace Typelib

variable {works : List Work} {d : Draft} {strings : List String} {img : Image} {pos : Nat}
  {ids : List BodyId}

/-! ### Words -/

namespace Image.At

theorem stores16 {n : UInt16} (h : img.At pos (leBytes 2 n.toNat)) : img.Stores pos 2 n.toNat :=
  ⟨n.toNat_lt, h⟩

theorem stores32 {n : UInt32} (h : img.At pos (leBytes 4 n.toNat)) : img.Stores pos 4 n.toNat :=
  ⟨n.toNat_lt, h⟩

theorem gap (h : img.At pos (padding pos)) : img.Gap pos (alignUp pos) := by
  have hlt := alignUp_lt pos
  simp only [bodyAlign] at hlt
  exact ⟨le_alignUp pos, by omega, h⟩

/-- The two references of a type stand behind its tag and its flags. -/
theorem typeRef {ref : TypeRef} (h : img.At pos (TypeRef.record.encode ref)) :
    img.Stores (pos + 2) 2 ref.interface.toNat ∧ img.Stores (pos + 4) 4 ref.offset.toNat := by
  have hwords : img.At pos ([ref.tag] ++ ([ref.flags] ++
      (leBytes 2 ref.interface.toNat ++ leBytes 4 ref.offset.toNat))) := h
  exact ⟨hwords.right.right.left.stores16, hwords.right.right.right.stores32⟩

end Image.At

/-! ### Slots -/

/-- A name that has a slot refers to it by its position. -/
theorem Draft.exists_hasSlot (hs : d.symbols.Sound) {name : String}
    (h : d.symbols.Settled d.options name) :
    ∃ i, d.HasSlot name i ∧ (d.symbols.slotOf name).raw.toNat = i + 1 := by
  have hne := h.ne_none
  cases hm : d.symbols.meaning name with
  | entry symbol =>
    obtain ⟨entryName, hlookup⟩ := SymbolTable.lookup_of_meaning hm
    obtain ⟨i, hi⟩ := hs.named _ _ hlookup
    obtain ⟨symbol', -, hlookup', href, -⟩ := hs.localSlot i _ hi
    rw [hlookup] at hlookup'
    cases hlookup'
    have hslot : d.symbols.slotOf name = symbol.ref := by simp only [SymbolTable.slotOf, hm]
    refine ⟨i, ?_, hslot ▸ DirRef.toNat_of_ofIndex? href⟩
    simp only [HasSlot, hm]
    exact ⟨entryName, hi, hlookup⟩
  | external ns symbol =>
    cases hk : d.symbols.externals[ns ++ "." ++ symbol]? with
    | none => simp [SymbolTable.slotOf, hm, hk] at hne
    | some ref =>
      have hslot : d.symbols.slotOf name = ref := by simp [SymbolTable.slotOf, hm, hk]
      obtain ⟨i, href, offset, nsOffset, hi, ho, hns⟩ :=
        hs.slot_of_external (SymbolTable.meaning_external hm) hk
      refine ⟨i, ?_, hslot ▸ DirRef.toNat_of_ofIndex? href⟩
      simp only [HasSlot, hm]
      exact ⟨offset, nsOffset, hi, ho, hns⟩

/-! ### Where cells end -/

theorem length_slots (refs : List DirRef) :
    (refs.flatMap fun ref => leBytes 2 ref.raw.toNat).length = refs.length * 2 := by
  simp [List.length_flatMap]

theorem length_padding (pos : Nat) : pos + (padding pos).length = alignUp pos := by
  have hle := le_alignUp pos
  rw [padding, List.length_replicate]
  omega

/-- The next cell stands behind the bytes of a cell. -/
theorem Cell.Fills.next {c : Cell} {bs : List UInt8} (h : c.Fills d works pos bs ids) :
    c.next d pos = pos + bs.length := by
  have width : ∀ ref : TypeRef, (TypeRef.record.encode ref).length = 8 :=
    TypeRef.record_lawful.length_encode
  cases c with
  | byte | word16 | word32 | raw => rw [h.1]; simp [Cell.next]
  | name | slot => rw [h.2.1]; simp [Cell.next]
  | optName s =>
    cases s with
    | none => rw [h.1]; simp [Cell.next]
    | some s => rw [h.2.1]; simp [Cell.next]
  | typeRef ref => rw [h.1, width]; rfl
  | type t => rw [h.2.1, width]; rfl
  | signature | value =>
    obtain ⟨id, -, rfl, -⟩ := h
    simp [Cell.next]
  | errorType flags domains =>
    obtain ⟨-, -, ⟨row, rfl, rfl⟩, -⟩ := h
    rw [List.length_append, ← Nat.add_assoc, length_padding]
    simp only [Cell.next, List.length_cons, List.length_append, length_leBytes, length_slots]
    congr 1
    omega
  | align => rw [h.1, length_padding]; rfl
  | reject => exact h.elim

/-! ### What cells lead to -/

/-- The offsets of a draft are the places of its strings and of its bodies. -/
structure Charted (works : List Work) (d : Draft) (strings : List String) : Prop where
  accounts : Accounts works d
  string : ∀ s, (d.symbols.pool.get? s).isSome →
    s ∈ strings ∧ (d.stringOffset s).toNat = d.stringPlace strings s
  body : ∀ (id : BodyId) (work : Work), works[id.toNat]? = some work →
    (d.bodyOffset id).toNat = d.bodyPlace id

/-- The cell holds no references to types but those that are filled in. -/
def Cell.Bare (c : Cell) : Prop := ∀ ref, c = .typeRef ref → ref.interface = 0 ∧ ref.offset = 0

namespace Charted

variable (hch : Charted works d strings)
include hch

theorem storesString {s : String} (hs : (d.symbols.pool.get? s).isSome)
    (hat : img.At pos (leBytes 4 (d.stringOffset s).toNat)) : img.StoresString d strings pos s := by
  obtain ⟨hmem, hplace⟩ := hch.string s hs
  have hword := hat.stores32
  rw [hplace] at hword
  exact ⟨hmem, hword⟩

theorem storesSlot {name : String} (hs : d.symbols.Settled d.options name)
    (hat : img.At pos (leBytes 2 (d.symbols.slotOf name).raw.toNat)) :
    img.StoresSlot d pos name := by
  obtain ⟨i, hi, href⟩ := Draft.exists_hasSlot hch.accounts.symbols hs
  have hword := hat.stores16
  rw [href] at hword
  exact ⟨i, hi, hword⟩

theorem storesBody {id : BodyId} {work : Work} {p : Work → Prop} (hw : works[id.toNat]? = some work)
    (hp : p work) (hword : img.Stores pos 4 (d.bodyOffset id).toNat) :
    img.StoresBody d works pos p :=
  ⟨id, work, hw, hp, hch.body id work hw ▸ hword⟩

theorem storesType {t : Ty} (hs : d.Stores t)
    (hat : img.At pos (TypeRef.record.encode (d.typeRef t))) : img.StoresType d works pos t := by
  obtain ⟨hslot, hoffset⟩ := hat.typeRef
  by_cases hc : t.tag.isComplex = true
  · obtain ⟨t', hwork, -, -, htext⟩ := hch.accounts.shared _ _ (hs.body hc)
    rw [Draft.typeRef_of_complex hc] at hslot hoffset
    have hbody := hch.storesBody (p := fun work => ∃ t', work = .type t' ∧
      t'.shape d.symbols.slotOf = t.shape d.symbols.slotOf)
      hwork ⟨t', rfl, Shape.text_injective htext⟩ hoffset
    cases t with
    | scalar | interface => cases hc
    | _ => exact ⟨hslot, hbody⟩
  · cases t with
    | scalar kind p => exact ⟨hslot, hoffset⟩
    | interface name p =>
      exact ⟨hch.storesSlot (hs.knows name (List.mem_singleton_self _)) hslot.bytes, hoffset⟩
    | _ => exact absurd rfl hc

/-- The row of an error type holds the number of its domains, and their slots follow. -/
theorem shows_errorType {flags : UInt8} {domains : List String} {bs : List UInt8}
    (h : (Cell.errorType flags domains).Fills d works pos bs ids) (hat : img.At pos bs) :
    (Cell.errorType flags domains).Shows d works strings img pos := by
  obtain ⟨hsettled, hmax, ⟨row, hrow, rfl⟩, -⟩ := h
  have hlen : row.length = 8 + (d.domainRefs domains).length * 2 := by
    rw [hrow]
    simp only [List.length_cons, List.length_append, length_leBytes, length_slots]
    omega
  have hrow' : row = [TypeTag.error.code, flags] ++ (leBytes 2 (d.domainRefs domains).length ++
      (leBytes 4 0 ++ (d.domainRefs domains).flatMap fun ref => leBytes 2 ref.raw.toNat)) := by
    rw [hrow]
    simp
  have hgap := hat.right
  rw [hlen, ← Nat.add_assoc] at hgap
  have hwords := hat.left
  rw [hrow'] at hwords
  refine ⟨⟨Nat.lt_succ_of_le hmax, hwords.right.left⟩, fun k hk => ?_, hgap.gap⟩
  have hrefs := hwords.right.right.right
  rw [length_leBytes, length_leBytes] at hrefs
  have hslot := hrefs.getElem?_flatMap (fun _ => length_leBytes _ _) (List.getElem?_eq_getElem hk)
  -- the slots were put in order, but each is that of a domain
  obtain ⟨name, hname, href⟩ := List.mem_map.1 (DirRef.mem_sorted.1 (List.getElem_mem hk))
  refine ⟨name, hname, hch.storesSlot (hsettled name hname) ?_⟩
  rw [href]
  exact hslot

/-- The words of a cell lead to what the cell refers to. -/
theorem shows {c : Cell} {bs : List UInt8} (hbare : c.Bare) (h : c.Fills d works pos bs ids)
    (hat : img.At pos bs) : c.Shows d works strings img pos := by
  cases c with
  | byte n => exact (h.1 ▸ hat : img.At pos [n])
  | word16 n => exact (h.1 ▸ hat : img.At pos (leBytes 2 n.toNat)).stores16
  | word32 n => exact (h.1 ▸ hat : img.At pos (leBytes 4 n.toNat)).stores32
  | name s => exact hch.storesString h.1 (h.2.1 ▸ hat)
  | optName s =>
    cases s with
    | none => exact ⟨by decide, h.1 ▸ hat⟩
    | some s => exact hch.storesString h.1 (h.2.1 ▸ hat)
  | slot s => exact hch.storesSlot h.1 (h.2.1 ▸ hat)
  | typeRef ref =>
    obtain ⟨hslot, hoffset⟩ := hbare ref rfl
    exact ⟨hslot, hoffset, h.1 ▸ hat⟩
  | type t => exact hch.storesType h.1 (h.2.1 ▸ hat)
  | signature | value =>
    obtain ⟨id, hwork, rfl, -⟩ := h
    exact hch.storesBody hwork rfl hat.stores32
  | errorType => exact hch.shows_errorType h hat
  | raw bytes => exact (h.1 ▸ hat : img.At pos bytes)
  | align => exact (h.1 ▸ hat : img.At pos (padding pos)).gap
  | reject => exact h.elim

end Charted

/-! ### Cells one after another -/

namespace Cell

theorem stop_cons (c : Cell) (cs : List Cell) : stop d pos (c :: cs) = stop d (c.next d pos) cs :=
  rfl

end Cell

theorem shown_append {cs cs' : List Cell} : ∀ {pos : Nat},
    Shown d works strings img pos (cs ++ cs') ↔
      Shown d works strings img pos cs ∧ Shown d works strings img (Cell.stop d pos cs) cs' := by
  induction cs with
  | nil => simp [Shown, Cell.stop]
  | cons c cs ih =>
    intro pos
    rw [List.cons_append, Shown, Shown, ih, Cell.stop_cons, and_assoc]

theorem Fills.stop {cs : List Cell} : ∀ {pos : Nat} {bs : List UInt8} {ids : List BodyId},
    Fills d works pos cs bs ids → Cell.stop d pos cs = pos + bs.length := by
  induction cs with
  | nil =>
    rintro pos bs ids ⟨rfl, -⟩
    rfl
  | cons c cs ih =>
    rintro pos bs ids ⟨bs₁, ids₁, bs₂, ids₂, h₁, h₂, rfl, rfl⟩
    rw [Cell.stop_cons, h₁.next, ih h₂, List.length_append, Nat.add_assoc]

/-- Cells that became bytes stand one after another, and lead to what they refer to. -/
theorem Charted.shown (hch : Charted works d strings) {cs : List Cell}
    (hbare : ∀ c ∈ cs, c.Bare) : ∀ {pos : Nat} {bs : List UInt8} {ids : List BodyId},
    Fills d works pos cs bs ids → img.At pos bs → Shown d works strings img pos cs := by
  induction cs with
  | nil => exact fun _ _ => trivial
  | cons c cs ih =>
    rw [List.forall_mem_cons] at hbare
    rintro pos bs ids ⟨bs₁, ids₁, bs₂, ids₂, h₁, h₂, rfl, rfl⟩ hat
    refine ⟨hch.shows hbare.1 h₁ hat.left, ?_⟩
    rw [h₁.next]
    exact ih hbare.2 h₂ hat.right

end Typelib
