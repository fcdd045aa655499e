import Mathlib.Data.Option.Basic
import Typelib.Proofs.Image.Assembled
import Typelib.Proofs.Type.Text

/-!
# Types as they are stored

A reference to a complex type leads to a body, which holds references in turn. Followed to the end
they give a type back, in which directory slots stand for names.

* `Image.level?`: what a reference and its body tell, if they agree;
* `Image.shape?`: the type that a reference stands for;
* `Image.parts?`: the reference and all references inside the bodies that it leads to;
* `Assembled.shape?_typeRef`, `Assembled.parts?_typeRef`: stored types are read back.
-/

namespace Typelib

theorem TypeRef.isPointer_of_flags {ref : TypeRef} {p : Bool} (h : ref.flags = flagsOf p) :
    ref.isPointer = p := by
  rw [isPointer, h]
  cases p <;> rfl

/-! ### Reading types -/

/-- One level of a stored type. What lies below it are references. -/
inductive Level
  | scalar (kind : Scalar)
  | interface (slot : DirRef)
  | array (element : TypeRef) (zeroTerminated : Bool) (length : Option UInt16)
  | list (element : TypeRef)
  | slist (element : TypeRef)
  | hash (key value : TypeRef)
  | error (domains : List DirRef)
  deriving DecidableEq, Repr

/-- The references below a level. -/
def Level.refs : Level → List TypeRef
  | scalar _ | interface _ | error _ => []
  | array element _ _ => [element]
  | list element | slist element => [element]
  | hash key value => [key, value]

namespace Image

variable (img : Image)

/-- What a reference and its body tell of a type. There is nothing if tag and flags of the body are
not those of the reference, or if a slot or an offset is stored that the type does not call for. -/
def level? (t : TypeRef) : Option Level :=
  match t.tag? with
  | none => none
  | some (.scalar kind) => if t.interface = 0 ∧ t.offset = 0 then some (.scalar kind) else none
  | some .interface => if t.offset = 0 then some (.interface ⟨t.interface⟩) else none
  | some .array => do
    let row ← (img.row ArrayTypeRow t.offset).toOption
    let zeroTerminated := row.flags.toNat.testBit ArrayTypeRow.zeroTerminatedBit
    let hasLength := row.flags.toNat.testBit ArrayTypeRow.hasLengthBit
    guard (t.interface = 0 ∧ row.tag = t.tag ∧
      row.flags.toNat = flagWord [t.isPointer, zeroTerminated, hasLength])
    return .array row.element zeroTerminated (if hasLength then some row.length else none)
  | some .error => do
    let row ← (img.row ErrorTypeRow t.offset).toOption
    guard (t.interface = 0 ∧ row.tag = t.tag ∧ row.flags.toNat = flagWord [t.isPointer])
    return .error (← (img.refs (t.offset + 8) row.domainCount).toOption)
  | some tag => do
    let row ← (img.row ParamTypeRow t.offset).toOption
    guard (t.interface = 0 ∧ row.tag = t.tag ∧ row.flags.toNat = flagWord [t.isPointer])
    let types ← (img.rows TypeRef (t.offset + 8) row.typeCount).toOption
    match tag, types with
    | .list, [element] => some (.list element)
    | .slist, [element] => some (.slist element)
    | .hash, [key, value] => some (.hash key value)
    | _, _ => none

/-- The type that a reference stands for. The fuel bounds the number of levels. -/
def shape? : Nat → TypeRef → Option Shape
  | 0, _ => none
  | fuel + 1, t => do
    match ← img.level? t with
    | .scalar kind => return .scalar kind t.isPointer
    | .interface slot => return .interface slot t.isPointer
    | .array element zeroTerminated length =>
      return .array (← shape? fuel element) zeroTerminated length t.isPointer
    | .list element => return .list (← shape? fuel element) t.isPointer
    | .slist element => return .slist (← shape? fuel element) t.isPointer
    | .hash key value => return .hash (← shape? fuel key) (← shape? fuel value) t.isPointer
    | .error domains => return .error domains t.isPointer

/-- A reference and all references that its body leads to. The fuel bounds the number of levels. -/
def parts? : Nat → TypeRef → Option (List TypeRef)
  | 0, _ => none
  | fuel + 1, t => do
    let level ← img.level? t
    return t :: (← level.refs.mapM (parts? fuel)).flatten

end Image

/-! ### Stored types -/

namespace Draft

variable {d : Draft} {a b : Ty}

theorem sharedBody_congr (h : a.shape d.symbols.slotOf = b.shape d.symbols.slotOf) :
    d.sharedBody a = d.sharedBody b := by
  rw [sharedBody, sharedBody, h]

/-- A complex type is stored as its tag, its pointer flag and the offset of its body. -/
theorem typeRef_of_complex {t : Ty} (h : t.tag.isComplex = true) : d.typeRef t =
    { TypeRef.simple t.tag t.pointer with offset := d.bodyOffset (d.sharedBody t) } := by
  cases t with
  | scalar | interface => cases h
  | _ => rfl

/-- Types of one shape are stored as one reference. -/
theorem typeRef_congr (h : a.shape d.symbols.slotOf = b.shape d.symbols.slotOf) :
    d.typeRef a = d.typeRef b := by
  have htag := Ty.tag_eq_of_shape h
  have hpointer := Ty.pointer_eq_of_shape h
  by_cases hc : a.tag.isComplex = true
  · rw [typeRef_of_complex hc, typeRef_of_complex (htag ▸ hc), htag, hpointer, sharedBody_congr h]
  · cases a with
    | scalar kind p =>
      cases b <;> cases h
      rfl
    | interface name p =>
      cases b with
      | interface name' p' =>
        simp only [Ty.shape, Shape.interface.injEq] at h
        simp only [typeRef, h.1, h.2]
      | _ => cases h
    | _ => exact absurd rfl hc

theorem map_typeRef_congr : ∀ {as bs : List Ty},
    as.map (Ty.shape d.symbols.slotOf) = bs.map (Ty.shape d.symbols.slotOf) →
    as.map d.typeRef = bs.map d.typeRef
  | [], [], _ => rfl
  | a :: as, b :: bs, h => by
    rw [List.map_cons, List.map_cons, List.cons.injEq] at h ⊢
    exact ⟨typeRef_congr h.1, map_typeRef_congr h.2⟩

theorem Stores.congr (ha : d.Stores a) (hb : d.Knows b)
    (h : a.shape d.symbols.slotOf = b.shape d.symbols.slotOf) : d.Stores b := by
  refine ⟨hb, fun hc => ?_⟩
  have htag := Ty.tag_eq_of_shape h
  rw [← h, ← sharedBody_congr h]
  exact ha.body (htag ▸ hc)

end Draft

namespace Ty

/-- The type is a list, slist or hash. -/
def hasParams (t : Ty) : Bool := t.tag == .list || t.tag == .slist || t.tag == .hash

/-- The types right below a type. -/
def inner : Ty → List Ty
  | array element _ _ _ => [element]
  | list element _ | slist element _ => [element]
  | hash key value _ => [key, value]
  | _ => []

variable {a b : Ty} {slot : String → DirRef}

theorem cells_of_hasParams (h : a.hasParams = true) :
    a.cells = paramTypeCells a.tag a.pointer a.inner := by
  cases a with
  | list | slist | hash => rfl
  | _ => simp [hasParams, tag] at h

theorem names_inner {u : Ty} (h : u ∈ a.inner) : ∀ name ∈ u.names, name ∈ a.names := by
  cases a with
  | array | list | slist =>
    rw [inner, List.mem_singleton] at h
    subst h
    exact fun _ hn => hn
  | hash key value p =>
    simp only [inner, List.mem_cons, List.not_mem_nil, or_false] at h
    rcases h with rfl | rfl
    · exact fun _ hn => List.mem_append_left _ hn
    · exact fun _ hn => List.mem_append_right _ hn
  | _ => cases h

theorem inner_shape (h : a.shape slot = b.shape slot) :
    a.inner.map (shape slot) = b.inner.map (shape slot) := by
  cases a <;> cases b <;> simp_all [shape, inner]

end Ty

namespace Draft

/-- One level of a type in the file of a draft. -/
def level (d : Draft) : Ty → Level
  | .scalar kind _ => .scalar kind
  | .interface name _ => .interface (d.symbols.slotOf name)
  | .array element zeroTerminated length _ => .array (d.typeRef element) zeroTerminated length
  | .list element _ => .list (d.typeRef element)
  | .slist element _ => .slist (d.typeRef element)
  | .hash key value _ => .hash (d.typeRef key) (d.typeRef value)
  | .error names _ => .error (d.domainRefs names)

end Draft

/-- References to types stand one after another. -/
theorem fills_types {d : Draft} {works : List Work} {types : List Ty} :
    ∀ {pos : Nat} {bs : List UInt8} {ids : List BodyId},
    Fills d works pos (types.map .type) bs ids →
    bs = (types.map d.typeRef).flatMap TypeRef.record.encode ∧ ∀ t ∈ types, d.Stores t := by
  induction types with
  | nil => exact fun h => ⟨h.1, by simp⟩
  | cons t types ih =>
    intro pos bs ids h
    rw [List.map_cons, fills_type] at h
    obtain ⟨hs, rest, rfl, hrest⟩ := h
    obtain ⟨rfl, hall⟩ := ih hrest
    exact ⟨rfl, List.forall_mem_cons.2 ⟨hs, hall⟩⟩

/-- The body of a type refers to stored types only. -/
theorem fills_inner {d : Draft} {works : List Work} {t : Ty} {pos : Nat} {bs : List UInt8}
    {ids : List BodyId} (h : Fills d works pos t.cells bs ids) : ∀ u ∈ t.inner, d.Stores u := by
  cases t with
  | array element z l p =>
    simp only [Ty.cells, Cell.flags8, fills_byte, fills_word16, fills_word32, fills_type] at h
    obtain ⟨_, -, _, -, _, -, _, -, hs, -⟩ := h
    simpa [Ty.inner] using hs
  | list | slist | hash =>
    rw [Ty.cells_of_hasParams rfl] at h
    simp only [paramTypeCells, Cell.flags8, Cell.count, List.cons_append, List.nil_append,
      fills_byte, fills_word16, fills_word32] at h
    obtain ⟨_, -, _, -, _, -, _, -, htypes⟩ := h
    exact (fills_types htypes).2
  | _ => simp [Ty.inner]

namespace Assembled

variable {works : List Work} {d : Draft} {img : Image} {t : Ty} {offset : UInt32} {bs : List UInt8}

/-- A complex type leads to the body of a type of its shape. -/
theorem body_of_stores (ha : Assembled works d img) (hs : d.Stores t)
    (hc : t.tag.isComplex = true) :
    ∃ (t' : Ty) (bs : List UInt8) (ids : List BodyId),
      t'.shape d.symbols.slotOf = t.shape d.symbols.slotOf ∧
      img.At (d.bodyOffset (d.sharedBody t)).toNat bs ∧
      Fills d works (d.bodyOffset (d.sharedBody t)).toNat t'.cells bs ids ∧
      0 < (d.bodyOffset (d.sharedBody t)).toNat := by
  obtain ⟨t', hwork, -, -, htext⟩ := ha.accounts.shared _ _ (hs.body hc)
  obtain ⟨ids, bs, hat, hfill, hpos, -⟩ := ha.body _ _ hwork
  exact ⟨t', bs, ids, Shape.text_injective htext, hat, hfill, hpos⟩

theorem toOption_ok {ε α : Type} (a : α) : (Except.ok a : Except ε α).toOption = some a := rfl

theorem guard_of {p : Prop} [Decidable p] (h : p) : (guard p : Option Unit) = some () := if_pos h

theorem ne_zero_of_toNat_pos (h : 0 < offset.toNat) : offset ≠ 0 := by
  rintro rfl
  cases h

/-- What stands after the first bytes of a body. -/
theorem at_add (ha : Assembled works d img) {front rest : List UInt8}
    (hat : img.At offset.toNat (front ++ rest)) (hlen : front.length = 8) :
    img.At (offset + 8).toNat rest ∧ offset + 8 ≠ 0 := by
  have hle := hat.le
  have hmax := ha.size
  have hword : maxWord32 = 4294967295 := rfl
  have hsum : (offset + 8).toNat = offset.toNat + 8 := by
    rw [UInt32.toNat_add]
    rw [List.length_append] at hle
    exact Nat.mod_eq_of_lt (by change offset.toNat + 8 < _; omega)
  refine ⟨?_, fun h0 => ?_⟩
  · rw [hsum, ← hlen]
    exact hat.right
  · rw [h0] at hsum
    cases hsum

/-- The row of a list, slist or hash, and the references after it. -/
theorem params (ha : Assembled works d img) {tag : TypeTag} {p : Bool} {types : List Ty}
    {ids : List BodyId} (hat : img.At offset.toNat bs) (hpos : 0 < offset.toNat)
    (hfill : Fills d works offset.toNat (paramTypeCells tag p types) bs ids)
    (hcount : types.length < UInt16.size) :
    img.row ParamTypeRow offset = .ok ⟨tag.code, TypeRef.flagsOf p, .ofNat types.length⟩ ∧
      img.rows TypeRef (offset + 8) (.ofNat types.length) = .ok (types.map d.typeRef) := by
  simp only [paramTypeCells, Cell.flags8, Cell.count, List.cons_append, List.nil_append, fills_byte,
    fills_word16, fills_word32] at hfill
  obtain ⟨_, rfl, _, rfl, _, rfl, _, rfl, htypes⟩ := hfill
  obtain ⟨rfl, -⟩ := fills_types htypes
  have hrow : img.At offset.toNat (Row.record.encode
      (⟨tag.code, TypeRef.flagsOf p, .ofNat types.length⟩ : ParamTypeRow) ++
        (types.map d.typeRef).flatMap TypeRef.record.encode) := hat
  obtain ⟨hrest, hne⟩ := ha.at_add hrow (LawfulRow.lawful.length_encode _)
  refine ⟨hrow.left.row (ne_zero_of_toNat_pos hpos), hrest.rows hne ?_⟩
  rw [List.length_map, UInt16.toNat_ofNat_of_lt' hcount]

/-- What the offset of a list, slist or hash leads to. -/
theorem params_of_stores (ha : Assembled works d img) (hs : d.Stores t) (ht : t.hasParams = true) :
    img.row ParamTypeRow (d.typeRef t).offset =
        .ok ⟨t.tag.code, TypeRef.flagsOf t.pointer, .ofNat t.inner.length⟩ ∧
      img.rows TypeRef ((d.typeRef t).offset + 8) (.ofNat t.inner.length) =
        .ok (t.inner.map d.typeRef) := by
  have hc : t.tag.isComplex = true := by cases t <;> first | rfl | simp [Ty.hasParams, Ty.tag] at ht
  have hlen : t.inner.length < UInt16.size := by cases t <;> simp [Ty.inner, UInt16.size]
  obtain ⟨t', bs, ids, hshape, hat, hfill, hpos⟩ := ha.body_of_stores hs hc
  have hoffset : (d.typeRef t).offset = d.bodyOffset (d.sharedBody t) := by
    rw [Draft.typeRef_of_complex hc]
  have htag := Ty.tag_eq_of_shape hshape
  have hpointer := Ty.pointer_eq_of_shape hshape
  have htypes : t'.inner.map d.typeRef = t.inner.map d.typeRef :=
    Draft.map_typeRef_congr (Ty.inner_shape hshape)
  rw [Ty.cells_of_hasParams (by rwa [Ty.hasParams, htag]), htag, hpointer] at hfill
  have hcount : t'.inner.length = t.inner.length := by simpa using congrArg List.length htypes
  have hparams := ha.params hat hpos hfill (hcount ▸ hlen)
  rwa [htypes, hcount, ← hoffset] at hparams

/-- What the offset of an array type leads to. -/
theorem array_of_stores (ha : Assembled works d img) {element : Ty} {z p : Bool}
    {l : Option UInt16} (hs : d.Stores (.array element z l p)) :
    img.row ArrayTypeRow (d.typeRef (.array element z l p)).offset =
      .ok ⟨TypeTag.array.code, .ofNat (flagWord [p, z, l.isSome]), l.getD 0,
        d.typeRef element⟩ := by
  obtain ⟨t', bs, ids, hshape, hat, hfill, hpos⟩ := ha.body_of_stores hs rfl
  cases t' with
  | array element' z' l' p' =>
    simp only [Ty.shape, Shape.array.injEq] at hshape
    obtain ⟨helement, rfl, rfl, rfl⟩ := hshape
    simp only [Ty.cells, Cell.flags8, fills_byte, fills_word16, fills_word32, fills_type,
      fills_nil] at hfill
    obtain ⟨_, rfl, _, rfl, _, rfl, _, rfl, -, _, rfl, rfl, -⟩ := hfill
    -- the element of the body may be spelled in another way, but it has the same reference
    rw [← Draft.typeRef_congr helement]
    have hrow : img.At (d.typeRef (.array element z' l' p')).offset.toNat (Row.record.encode
      (⟨TypeTag.array.code, .ofNat (flagWord [p', z', l'.isSome]), l'.getD 0,
        d.typeRef element'⟩ : ArrayTypeRow)) := hat
    exact hrow.row (ne_zero_of_toNat_pos hpos)
  | _ => cases hshape

/-- The row of an error type, and the slots after it. -/
theorem domains (ha : Assembled works d img) {p : Bool} {names : List String} {ids : List BodyId}
    (hat : img.At offset.toNat bs) (hpos : 0 < offset.toNat)
    (hfill : Fills d works offset.toNat (Ty.error names p).cells bs ids) :
    img.row ErrorTypeRow offset =
        .ok ⟨TypeTag.error.code, TypeRef.flagsOf p, .ofNat (d.domainRefs names).length⟩ ∧
      img.refs (offset + 8) (.ofNat (d.domainRefs names).length) = .ok (d.domainRefs names) := by
  obtain ⟨_, _, _, _, ⟨-, hmax, ⟨row, hrow, rfl⟩, -⟩, -, rfl, -⟩ := hfill
  have hcount : (UInt16.ofNat (d.domainRefs names).length).toNat = (d.domainRefs names).length :=
    UInt16.toNat_ofNat_of_lt' (Nat.lt_succ_of_le hmax)
  have hsplit : row = Row.record.encode
      (⟨TypeTag.error.code, TypeRef.flagsOf p, .ofNat (d.domainRefs names).length⟩ : ErrorTypeRow) ++
        (d.domainRefs names).flatMap fun ref => leBytes 2 ref.raw.toNat := by
    have hbytes : leBytes 2 (d.domainRefs names).length =
        leBytes 2 (UInt16.ofNat (d.domainRefs names).length).toNat := by rw [hcount]
    rw [hrow, hbytes]
    rfl
  have hat' := hat.left.left
  rw [hsplit] at hat'
  obtain ⟨hrest, hne⟩ := ha.at_add hat' (LawfulRow.lawful.length_encode _)
  exact ⟨hat'.left.row (ne_zero_of_toNat_pos hpos), hrest.refs hne hcount.symm⟩

/-- What the offset of an error type leads to. -/
theorem domains_of_stores (ha : Assembled works d img) {names : List String} {p : Bool}
    (hs : d.Stores (.error names p)) :
    img.row ErrorTypeRow (d.typeRef (.error names p)).offset =
        .ok ⟨TypeTag.error.code, TypeRef.flagsOf p, .ofNat (d.domainRefs names).length⟩ ∧
      img.refs ((d.typeRef (.error names p)).offset + 8) (.ofNat (d.domainRefs names).length) =
        .ok (d.domainRefs names) := by
  obtain ⟨t', bs, ids, hshape, hat, hfill, hpos⟩ := ha.body_of_stores hs rfl
  cases t' with
  | error names' p' =>
    simp only [Ty.shape, Shape.error.injEq] at hshape
    obtain ⟨hnames, rfl⟩ := hshape
    have hsame : d.domainRefs names' = d.domainRefs names := hnames
    have hdomains := ha.domains hat hpos hfill
    rwa [hsame] at hdomains
  | _ => cases hshape

theorem isPointer_typeRef (d : Draft) (t : Ty) : (d.typeRef t).isPointer = t.pointer :=
  TypeRef.isPointer_of_flags (by cases t <;> rfl)

theorem tag?_typeRef (d : Draft) (t : Ty) : (d.typeRef t).tag? = some t.tag := by
  cases t <;> exact TypeTag.ofCode?_code _

/-- What a reference and its body tell of a type is what the type is. -/
theorem level?_typeRef (ha : Assembled works d img) (hs : d.Stores t) :
    img.level? (d.typeRef t) = some (d.level t) := by
  have htag := tag?_typeRef d t
  have hpointer := isPointer_typeRef d t
  have hflags₁ : ∀ p, (TypeRef.flagsOf p).toNat = flagWord [p] := fun p => toNat_flags8 (by simp)
  cases t with
  | scalar kind p =>
    simp only [Image.level?, htag, Ty.tag]
    rfl
  | interface name p =>
    simp only [Image.level?, htag, Ty.tag]
    rfl
  | array element z l p =>
    have hrow := ha.array_of_stores hs
    have hflags : (UInt8.ofNat (flagWord [p, z, l.isSome])).toNat = flagWord [p, z, l.isSome] :=
      toNat_flags8 (by simp)
    simp only [Image.level?, htag, Ty.tag, hrow, toOption_ok, Option.bind_eq_bind,
      Option.bind_some, hflags, testBit_flagWord, hpointer]
    rw [guard_of ⟨rfl, rfl, rfl⟩]
    cases l <;> rfl
  | list | slist | hash =>
    obtain ⟨hrow, htypes⟩ := ha.params_of_stores hs rfl
    simp only [Image.level?, htag, Ty.tag, hrow, htypes, toOption_ok, Option.bind_eq_bind,
      Option.bind_some, hflags₁, hpointer]
    rw [guard_of ⟨rfl, rfl, trivial⟩]
    rfl
  | error names p =>
    obtain ⟨hrow, hrefs⟩ := ha.domains_of_stores hs
    simp only [Image.level?, htag, Ty.tag, hrow, hrefs, toOption_ok, Option.bind_eq_bind,
      Option.bind_some, hflags₁, hpointer]
    rw [guard_of ⟨rfl, rfl, rfl⟩]
    rfl

/-- The types right below a stored type are stored. -/
theorem stores_inner (ha : Assembled works d img) (hs : d.Stores t) {u : Ty} (hu : u ∈ t.inner) :
    d.Stores u := by
  have hc : t.tag.isComplex = true := by
    cases t <;> first | rfl | simp [Ty.inner] at hu
  obtain ⟨t', bs, ids, hshape, -, hfill, -⟩ := ha.body_of_stores hs hc
  -- the body is that of some type of the shape, so some type in it has the shape of this one
  have hshapes : u.shape d.symbols.slotOf ∈ t'.inner.map (Ty.shape d.symbols.slotOf) := by
    rw [Ty.inner_shape hshape]
    exact List.mem_map_of_mem hu
  obtain ⟨u', hu', he⟩ := List.mem_map.1 hshapes
  have hknows : d.Knows u := fun name hn => hs.knows name (Ty.names_inner hu name hn)
  exact (fills_inner hfill u' hu').congr hknows he

/-- A stored type is read back. -/
theorem shape?_typeRef (ha : Assembled works d img) {fuel : Nat} (hs : d.Stores t)
    (hf : t.depth < fuel) : img.shape? fuel (d.typeRef t) = some (t.shape d.symbols.slotOf) := by
  induction t generalizing fuel with
  | scalar | interface | error =>
    obtain ⟨fuel, rfl⟩ := Nat.exists_eq_succ_of_ne_zero (Nat.ne_zero_of_lt hf)
    simp only [Image.shape?, ha.level?_typeRef hs, Draft.level, isPointer_typeRef]
    rfl
  | array element _ _ _ ih | list element _ ih | slist element _ ih =>
    obtain ⟨fuel, rfl⟩ := Nat.exists_eq_succ_of_ne_zero (Nat.ne_zero_of_lt hf)
    have helement := ih (ha.stores_inner hs (List.mem_singleton_self _))
      (Nat.lt_of_succ_lt_succ hf)
    simp only [Image.shape?, ha.level?_typeRef hs, Draft.level, isPointer_typeRef,
      Option.bind_eq_bind, Option.bind_some, helement]
    rfl
  | hash key value _ ihk ihv =>
    obtain ⟨fuel, rfl⟩ := Nat.exists_eq_succ_of_ne_zero (Nat.ne_zero_of_lt hf)
    have hmax := Nat.lt_of_succ_lt_succ hf
    have hkey := ihk (ha.stores_inner hs (by simp [Ty.inner]))
      (Nat.lt_of_le_of_lt (Nat.le_max_left _ _) hmax)
    have hvalue := ihv (ha.stores_inner hs (by simp [Ty.inner]))
      (Nat.lt_of_le_of_lt (Nat.le_max_right _ _) hmax)
    simp only [Image.shape?, ha.level?_typeRef hs, Draft.level, isPointer_typeRef,
      Option.bind_eq_bind, Option.bind_some, hkey, hvalue]
    rfl

/-- A stored type and all types inside it are found. -/
theorem parts?_typeRef (ha : Assembled works d img) {fuel : Nat} (hs : d.Stores t)
    (hf : t.depth < fuel) : img.parts? fuel (d.typeRef t) = some (t.parts.map d.typeRef) := by
  induction t generalizing fuel with
  | scalar | interface | error =>
    obtain ⟨fuel, rfl⟩ := Nat.exists_eq_succ_of_ne_zero (Nat.ne_zero_of_lt hf)
    simp only [Image.parts?, ha.level?_typeRef hs, Draft.level]
    rfl
  | array element _ _ _ ih | list element _ ih | slist element _ ih =>
    obtain ⟨fuel, rfl⟩ := Nat.exists_eq_succ_of_ne_zero (Nat.ne_zero_of_lt hf)
    have helement := ih (ha.stores_inner hs (List.mem_singleton_self _))
      (Nat.lt_of_succ_lt_succ hf)
    simp [Image.parts?, ha.level?_typeRef hs, Draft.level, Level.refs, helement, Ty.parts]
  | hash key value _ ihk ihv =>
    obtain ⟨fuel, rfl⟩ := Nat.exists_eq_succ_of_ne_zero (Nat.ne_zero_of_lt hf)
    have hmax := Nat.lt_of_succ_lt_succ hf
    have hkey := ihk (ha.stores_inner hs (by simp [Ty.inner]))
      (Nat.lt_of_le_of_lt (Nat.le_max_left _ _) hmax)
    have hvalue := ihv (ha.stores_inner hs (by simp [Ty.inner]))
      (Nat.lt_of_le_of_lt (Nat.le_max_right _ _) hmax)
    simp [Image.parts?, ha.level?_typeRef hs, Draft.level, Level.refs, hkey, hvalue, Ty.parts]

end Assembled

end Typelib
