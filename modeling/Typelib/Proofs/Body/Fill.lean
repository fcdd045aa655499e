import Typelib.Proofs.Body.Pieces
import Typelib.Proofs.Build.Naming

/-!
# What the cells of a body become

Once a draft is finished it is known where its strings and bodies will stand. Then each cell of a
body stands for certain bytes, and what it refers to is there.

* `Draft.offset`, `Draft.typeRef`: what references become;
* `Fills`: the bytes that cells become, with the bodies that they were promised.
-/

namespace Typelib

/-- What a body was promised to. -/
inductive Work
  | entry (node : Node)
  | type (type : Ty)
  | signature (signature : Signature)
  | constant (constant : ConstantDecl)
  deriving DecidableEq, Repr

/-- The cells of the body that was promised. -/
def Work.cells : Work → List Cell
  | entry node => node.cells
  | type t => t.cells
  | signature s => Cell.counted "signature" [("arguments", s.params.length)] s.cells
  | constant c => Cell.given c.encode fun bytes => [.raw bytes]

namespace Draft

variable (d : Draft)

/-- The offset that a target has in the file of a draft. -/
def offset (target : Target) : UInt32 := d.placement.offset d.body target

/-- The offset of a string of a draft. -/
def stringOffset (s : String) : UInt32 := d.offset (.string ((d.symbols.pool.get? s).getD 0))

/-- The offset of a body of a draft. -/
def bodyOffset (id : BodyId) : UInt32 := d.offset (.body id)

/-- The body that the types of a shape share. -/
def sharedBody (type : Ty) : BodyId := (d.types[(type.shape d.symbols.slotOf).text]?).getD 0

/-- A type as it is stored in the file of a draft. -/
def typeRef : Ty → TypeRef
  | .scalar kind p => .simple (.scalar kind) p
  | .interface name p =>
    { TypeRef.simple .interface p with interface := (d.symbols.slotOf name).raw }
  | t => { TypeRef.simple t.tag t.pointer with offset := d.bodyOffset (d.sharedBody t) }

/-- The names of a type have slots, and there is a body for it if it needs one. -/
structure Stores (type : Ty) : Prop where
  knows : d.Knows type
  body : type.tag.isComplex = true →
    d.types[(type.shape d.symbols.slotOf).text]? = some (d.sharedBody type)

end Draft

/-- The bytes that fill up to the next place where a body may start. -/
def padding (pos : Nat) : List UInt8 := List.replicate (alignUp pos - pos) 0

/-- The slots of an error type, in increasing order. -/
def Draft.domainRefs (d : Draft) (names : List String) : List DirRef :=
  DirRef.sorted (names.map d.symbols.slotOf)

/-- A cell at a position becomes certain bytes in the file of a draft, and was promised certain
bodies. -/
def Cell.Fills (d : Draft) (works : List Work) (pos : Nat) :
    Cell → List UInt8 → List BodyId → Prop
  | .byte n, bs, ids => bs = [n] ∧ ids = []
  | .word16 n, bs, ids => bs = leBytes 2 n.toNat ∧ ids = []
  | .word32 n, bs, ids => bs = leBytes 4 n.toNat ∧ ids = []
  | .name s, bs, ids =>
    (d.symbols.pool.get? s).isSome ∧ bs = leBytes 4 (d.stringOffset s).toNat ∧ ids = []
  | .optName (some s), bs, ids =>
    (d.symbols.pool.get? s).isSome ∧ bs = leBytes 4 (d.stringOffset s).toNat ∧ ids = []
  | .optName none, bs, ids => bs = leBytes 4 0 ∧ ids = []
  | .slot s, bs, ids =>
    d.symbols.Settled d.options s ∧ bs = leBytes 2 (d.symbols.slotOf s).raw.toNat ∧ ids = []
  | .typeRef ref, bs, ids => bs = TypeRef.record.encode ref ∧ ids = []
  | .type t, bs, ids => d.Stores t ∧ bs = TypeRef.record.encode (d.typeRef t) ∧ ids = []
  | .signature s, bs, ids =>
    ∃ id, works[id.toNat]? = some (.signature s) ∧ bs = leBytes 4 (d.bodyOffset id).toNat ∧ ids = [id]
  | .value c, bs, ids =>
    ∃ id, works[id.toNat]? = some (.constant c) ∧ bs = leBytes 4 (d.bodyOffset id).toNat ∧ ids = [id]
  | .errorType flags names, bs, ids =>
    (∀ name ∈ names, d.symbols.Settled d.options name) ∧
      (d.domainRefs names).length ≤ Build.maxCount ∧
      (∃ row, row = TypeTag.error.code :: flags :: (leBytes 2 (d.domainRefs names).length ++
          leBytes 4 0 ++ (d.domainRefs names).flatMap fun ref => leBytes 2 ref.raw.toNat) ∧
        bs = row ++ padding (pos + row.length)) ∧ ids = []
  | .raw content, bs, ids => bs = content ∧ ids = []
  | .align, bs, ids => bs = padding pos ∧ ids = []
  | .reject _, _, _ => False

/-- Cells from a position on become certain bytes, and were promised certain bodies. -/
def Fills (d : Draft) (works : List Work) : Nat → List Cell → List UInt8 → List BodyId → Prop
  | _, [], bs, ids => bs = [] ∧ ids = []
  | pos, c :: cs, bs, ids => ∃ bs₁ ids₁ bs₂ ids₂, c.Fills d works pos bs₁ ids₁ ∧
      Fills d works (pos + bs₁.length) cs bs₂ ids₂ ∧ bs = bs₁ ++ bs₂ ∧ ids = ids₁ ++ ids₂

variable {d : Draft} {works : List Work} {cs cs' : List Cell} {pos pos' : Nat} {bs : List UInt8}
  {ids : List BodyId}

theorem Fills.append : ∀ {pos : Nat} {bs : List UInt8} {ids : List BodyId},
    Fills d works pos (cs ++ cs') bs ids →
    ∃ bs₁ ids₁ bs₂ ids₂, Fills d works pos cs bs₁ ids₁ ∧
      Fills d works (pos + bs₁.length) cs' bs₂ ids₂ ∧ bs = bs₁ ++ bs₂ ∧ ids = ids₁ ++ ids₂ := by
  induction cs with
  | nil => exact fun h => ⟨[], [], _, _, ⟨rfl, rfl⟩, h, rfl, rfl⟩
  | cons c cs ih =>
    rintro pos bs ids ⟨bs₁, ids₁, bs₂, ids₂, hc, hcs, rfl, rfl⟩
    obtain ⟨bs₃, ids₃, bs₄, ids₄, h₃, h₄, rfl, rfl⟩ := ih hcs
    refine ⟨bs₁ ++ bs₃, ids₁ ++ ids₃, bs₄, ids₄, ⟨_, _, _, _, hc, h₃, rfl, rfl⟩, ?_,
      (List.append_assoc ..).symm, (List.append_assoc ..).symm⟩
    rwa [List.length_append, ← Nat.add_assoc]

/-! ### Cell by cell -/

theorem fills_nil : Fills d works pos [] bs ids ↔ bs = [] ∧ ids = [] := Iff.rfl

/-- A cell that promises nothing leaves the same bytes wherever it stands. -/
theorem fills_cons {c : Cell} (p : Prop) (content : List UInt8)
    (h : ∀ bs ids, c.Fills d works pos bs ids ↔ p ∧ bs = content ∧ ids = []) :
    Fills d works pos (c :: cs) bs ids ↔
      p ∧ ∃ rest, bs = content ++ rest ∧ Fills d works (pos + content.length) cs rest ids := by
  constructor
  · rintro ⟨bs₁, ids₁, bs₂, ids₂, hc, hcs, rfl, rfl⟩
    obtain ⟨hp, rfl, rfl⟩ := (h _ _).1 hc
    exact ⟨hp, bs₂, rfl, hcs⟩
  · rintro ⟨hp, rest, rfl, hcs⟩
    exact ⟨_, _, _, _, (h _ _).2 ⟨hp, rfl, rfl⟩, hcs, rfl, rfl⟩

theorem fills_byte {n : UInt8} : Fills d works pos (.byte n :: cs) bs ids ↔
    ∃ rest, bs = [n] ++ rest ∧ Fills d works (pos + 1) cs rest ids := by
  rw [fills_cons True [n] (by simp [Cell.Fills]), true_and]
  rfl

theorem fills_word16 {n : UInt16} : Fills d works pos (.word16 n :: cs) bs ids ↔
    ∃ rest, bs = leBytes 2 n.toNat ++ rest ∧ Fills d works (pos + 2) cs rest ids := by
  rw [fills_cons True (leBytes 2 n.toNat) (by simp [Cell.Fills]), true_and]
  rfl

theorem fills_word32 {n : UInt32} : Fills d works pos (.word32 n :: cs) bs ids ↔
    ∃ rest, bs = leBytes 4 n.toNat ++ rest ∧ Fills d works (pos + 4) cs rest ids := by
  rw [fills_cons True (leBytes 4 n.toNat) (by simp [Cell.Fills]), true_and]
  rfl

theorem fills_name {s : String} : Fills d works pos (.name s :: cs) bs ids ↔
    (d.symbols.pool.get? s).isSome ∧
      ∃ rest, bs = leBytes 4 (d.stringOffset s).toNat ++ rest ∧
        Fills d works (pos + 4) cs rest ids :=
  fills_cons _ (leBytes 4 (d.stringOffset s).toNat) fun _ _ => Iff.rfl

/-- The offset of a string that may be absent. -/
def Draft.optOffset (d : Draft) (s : Option String) : UInt32 := (s.map d.stringOffset).getD 0

theorem fills_optName {s : Option String} : Fills d works pos (.optName s :: cs) bs ids ↔
    (∀ name, s = some name → (d.symbols.pool.get? name).isSome) ∧
      ∃ rest, bs = leBytes 4 (d.optOffset s).toNat ++ rest ∧
        Fills d works (pos + 4) cs rest ids := by
  refine fills_cons _ (leBytes 4 (d.optOffset s).toNat) fun bs ids => ?_
  cases s with
  | none => simp [Cell.Fills, Draft.optOffset]
  | some s => simp [Cell.Fills, Draft.optOffset]

theorem fills_slot {name : String} : Fills d works pos (.slot name :: cs) bs ids ↔
    d.symbols.Settled d.options name ∧
      ∃ rest, bs = leBytes 2 (d.symbols.slotOf name).raw.toNat ++ rest ∧
        Fills d works (pos + 2) cs rest ids :=
  fills_cons _ (leBytes 2 (d.symbols.slotOf name).raw.toNat) fun _ _ => Iff.rfl

theorem fills_typeRef {ref : TypeRef} : Fills d works pos (.typeRef ref :: cs) bs ids ↔
    ∃ rest, bs = TypeRef.record.encode ref ++ rest ∧ Fills d works (pos + 8) cs rest ids := by
  rw [fills_cons True (TypeRef.record.encode ref) (by simp [Cell.Fills]), true_and]
  rfl

theorem fills_type {type : Ty} : Fills d works pos (.type type :: cs) bs ids ↔
    d.Stores type ∧ ∃ rest, bs = TypeRef.record.encode (d.typeRef type) ++ rest ∧
      Fills d works (pos + 8) cs rest ids :=
  fills_cons _ (TypeRef.record.encode (d.typeRef type)) fun _ _ => Iff.rfl

theorem fills_align : Fills d works pos (.align :: cs) bs ids ↔
    ∃ rest, bs = padding pos ++ rest ∧
      Fills d works (pos + (padding pos).length) cs rest ids := by
  rw [fills_cons True (padding pos) (by simp [Cell.Fills]), true_and]

/-- A cell that promises a body leaves its offset. -/
theorem fills_promise {c : Cell} {work : Work}
    (h : ∀ bs ids, c.Fills d works pos bs ids ↔ ∃ id, works[id.toNat]? = some work ∧
      bs = leBytes 4 (d.bodyOffset id).toNat ∧ ids = [id]) :
    Fills d works pos (c :: cs) bs ids ↔ ∃ id rest ids', works[id.toNat]? = some work ∧
      bs = leBytes 4 (d.bodyOffset id).toNat ++ rest ∧ ids = id :: ids' ∧
      Fills d works (pos + 4) cs rest ids' := by
  constructor
  · rintro ⟨bs₁, ids₁, bs₂, ids₂, hc, hcs, rfl, rfl⟩
    obtain ⟨id, hw, rfl, rfl⟩ := (h _ _).1 hc
    exact ⟨id, bs₂, ids₂, hw, rfl, rfl, hcs⟩
  · rintro ⟨id, rest, ids', hw, rfl, rfl, hcs⟩
    exact ⟨_, _, _, _, (h _ _).2 ⟨id, hw, rfl, rfl⟩, hcs, rfl, rfl⟩

theorem fills_signature {s : Signature} : Fills d works pos (.signature s :: cs) bs ids ↔
    ∃ id rest ids', works[id.toNat]? = some (.signature s) ∧
      bs = leBytes 4 (d.bodyOffset id).toNat ++ rest ∧ ids = id :: ids' ∧
      Fills d works (pos + 4) cs rest ids' := fills_promise fun _ _ => Iff.rfl

theorem fills_value {c : ConstantDecl} : Fills d works pos (.value c :: cs) bs ids ↔
    ∃ id rest ids', works[id.toNat]? = some (.constant c) ∧
      bs = leBytes 4 (d.bodyOffset id).toNat ++ rest ∧ ids = id :: ids' ∧
      Fills d works (pos + 4) cs rest ids' := fills_promise fun _ _ => Iff.rfl

/-- Only the place of a position between two boundaries matters. -/
theorem padding_congr (h : pos % bodyAlign = pos' % bodyAlign) : padding pos = padding pos' := by
  simp only [bodyAlign] at h
  simp only [padding, alignUp, bodyAlign]
  congr 1
  omega

theorem Cell.Fills.congr_pos {c : Cell} (h : pos % bodyAlign = pos' % bodyAlign)
    (hc : c.Fills d works pos bs ids) : c.Fills d works pos' bs ids := by
  cases c with
  | errorType flags names =>
    obtain ⟨hs, hn, ⟨row, hrow, hbs⟩, hids⟩ := hc
    refine ⟨hs, hn, ⟨row, hrow, ?_⟩, hids⟩
    -- the filler comes after the row, so it depends on the position as well
    have hpos : (pos + row.length) % bodyAlign = (pos' + row.length) % bodyAlign := by
      rw [Nat.add_mod, h, ← Nat.add_mod]
    rwa [← padding_congr hpos]
  | align =>
    refine ⟨?_, hc.2⟩
    rw [← padding_congr h]
    exact hc.1
  | optName s => cases s <;> exact hc
  | _ => exact hc

theorem Fills.congr_pos : ∀ {pos pos' : Nat} {bs : List UInt8} {ids : List BodyId},
    pos % bodyAlign = pos' % bodyAlign → Fills d works pos cs bs ids →
    Fills d works pos' cs bs ids := by
  induction cs with
  | nil => exact fun _ h => h
  | cons c cs ih =>
    rintro pos pos' bs ids h ⟨bs₁, ids₁, bs₂, ids₂, hc, hcs, he⟩
    refine ⟨bs₁, ids₁, bs₂, ids₂, hc.congr_pos h, ih ?_ hcs, he⟩
    rw [Nat.add_mod, h, ← Nat.add_mod]

/-! ### Guards -/

theorem not_fills_reject {e : BuildError} : ¬ Fills d works pos [.reject e] bs ids :=
  fun ⟨_, _, _, _, h, _⟩ => h

/-- Cells that call for a value become bytes only if there is one. -/
theorem Fills.given {α : Type} {value : Except BuildError α} {f : α → List Cell}
    (h : Fills d works pos (Cell.given value f) bs ids) :
    ∃ a, value = .ok a ∧ Fills d works pos (f a) bs ids := by
  cases value with
  | ok a => exact ⟨a, rfl, h⟩
  | error e => exact absurd h not_fills_reject

/-- Cells whose members are counted become bytes only if the counts fit. -/
theorem Fills.counted {owner : String} {lists : List (String × Nat)}
    (h : Fills d works pos (Cell.counted owner lists cs) bs ids) :
    (∀ list ∈ lists, list.2 ≤ Build.maxCount) ∧ Fills d works pos cs bs ids := by
  unfold Cell.counted at h
  split at h
  · exact absurd h not_fills_reject
  next hnone =>
    refine ⟨fun list hlist => ?_, h⟩
    have := List.find?_eq_none.1 hnone list hlist
    simpa using this

/-! ### Promised bodies -/

theorem Cell.Fills.lt {c : Cell} (h : c.Fills d works pos bs ids) :
    ∀ id ∈ ids, id.toNat < works.length := by
  cases c with
  | signature | value =>
    obtain ⟨id, hw, -, rfl⟩ := h
    intro id' hid'
    rw [List.mem_singleton.1 hid']
    exact (List.getElem?_eq_some_iff.1 hw).1
  | byte | word16 | word32 | typeRef | raw | align => simp [h.2]
  | name | slot | type => simp [h.2.2]
  | optName s => cases s <;> simp [h.2]
  | errorType => simp [h.2.2.2]
  | reject => exact h.elim

/-- What is promised is accounted for. -/
theorem Fills.lt : ∀ {pos : Nat} {bs : List UInt8} {ids : List BodyId},
    Fills d works pos cs bs ids → ∀ id ∈ ids, id.toNat < works.length := by
  induction cs with
  | nil =>
    rintro pos bs ids ⟨-, rfl⟩ id hid
    cases hid
  | cons c cs ih =>
    rintro pos bs ids ⟨_, ids₁, _, ids₂, hc, hcs, -, rfl⟩ id hid
    rcases List.mem_append.1 hid with hid | hid
    · exact hc.lt id hid
    · exact ih hcs id hid

/-! ### Bodies are not empty -/

/-- The cell takes room wherever it stands. -/
def Cell.isSolid : Cell → Bool
  | .raw bytes => !bytes.isEmpty
  | .align => false
  | _ => true

theorem Cell.Fills.ne_nil {c : Cell} (hc : c.isSolid = true) (h : c.Fills d works pos bs ids) :
    bs ≠ [] := by
  have words : ∀ (w n : Nat), leBytes (w + 1) n ≠ [] := fun w n => by simp [leBytes]
  cases c with
  | byte n => exact h.1 ▸ List.cons_ne_nil _ _
  | word16 | word32 => exact h.1 ▸ words _ _
  | name | slot => exact h.2.1 ▸ words _ _
  | optName s =>
    cases s with
    | none => exact h.1 ▸ words _ _
    | some s => exact h.2.1 ▸ words _ _
  | typeRef ref => exact h.1 ▸ List.cons_ne_nil _ _
  | type t => exact h.2.1 ▸ List.cons_ne_nil _ _
  | signature | value =>
    obtain ⟨id, -, rfl, -⟩ := h
    exact words _ _
  | errorType =>
    obtain ⟨-, -, ⟨row, rfl, rfl⟩, -⟩ := h
    exact List.cons_ne_nil _ _
  | raw bytes =>
    rw [h.1]
    simpa [isSolid] using hc
  | align => cases hc
  | reject => exact h.elim

theorem Fills.ne_nil {c : Cell} (hc : c.isSolid = true) (h : Fills d works pos (c :: cs) bs ids) :
    bs ≠ [] := by
  obtain ⟨bs₁, ids₁, bs₂, ids₂, h₁, -, rfl, rfl⟩ := h
  exact List.append_ne_nil_of_left_ne_nil (h₁.ne_nil hc) bs₂

theorem ConstantDecl.ne_nil_of_encode {c : ConstantDecl} {bytes : List UInt8}
    (h : c.encode = .ok bytes) : bytes ≠ [] := by
  have words : ∀ (w n : Nat), leBytes (w + 1) n ≠ [] := fun w n => by simp [leBytes]
  have texts : ∀ s, nulTerminated s ≠ [] := fun s => by simp [nulTerminated]
  have integers : ∀ (signed : Bool) (w : Nat) (text : String) (bytes : List UInt8),
      Literal.integerBytes? signed (w + 1) text = some bytes → bytes ≠ [] := by
    intro signed w text bytes h
    simp only [Literal.integerBytes?, Option.bind_eq_bind, Option.bind_eq_some_iff] at h
    obtain ⟨n, -, h⟩ := h
    split_ifs at h <;> cases h <;> exact words _ _
  unfold ConstantDecl.encode at h
  split at h
  next kind _ =>
    split at h
    next bs hbs =>
      cases h
      cases kind <;> simp only [Literal.bytes?, Option.map_eq_some_iff, Option.some.injEq] at hbs
      case boolean | float | double =>
        obtain ⟨_, -, rfl⟩ := hbs
        exact words _ _
      case utf8 | filename | void =>
        subst hbs
        exact texts _
      all_goals exact integers _ _ _ _ hbs
    next => cases h
  · cases h
    exact texts _

/-- Whatever a body was promised to, it is not empty. -/
theorem Work.ne_nil_of_fills {work : Work} (h : Fills d works pos work.cells bs ids) : bs ≠ [] := by
  have word16 : ∀ {n : UInt16} {cs : List Cell} {pos : Nat} {bs : List UInt8} {ids : List BodyId},
      Fills d works pos (.word16 n :: cs) bs ids → bs ≠ [] := Fills.ne_nil rfl
  -- each body is refused, or begins with a cell that takes room
  cases work with
  | entry node =>
    cases node with
    | function f =>
      obtain ⟨_, -, h⟩ := h.given
      exact word16 h
    | constant c =>
      obtain ⟨_, -, h⟩ := h.given
      exact word16 h
    | callback | errorDomain => exact word16 h
    | struct | boxed | enum | flags | union | object | interface => exact word16 h.counted.2
    | field | property | signal | vfunc | param | value | type => exact absurd h not_fills_reject
  | type t =>
    cases t with
    | scalar | interface => exact absurd h not_fills_reject
    | array | list | slist | hash | error => exact Fills.ne_nil (by rfl) h
  | signature s =>
    obtain ⟨result, params⟩ := s
    cases result with
    | none => exact Fills.ne_nil (c := .typeRef (.simple (.scalar .void) false)) rfl h.counted.2
    | some r => exact Fills.ne_nil (c := .type r.type) rfl h.counted.2
  | constant c =>
    obtain ⟨bytes, hc, h⟩ := h.given
    refine Fills.ne_nil (c := .raw bytes) ?_ h
    simpa [Cell.isSolid] using ConstantDecl.ne_nil_of_encode hc

end Typelib
