import Typelib.Proofs.Reading.Names

/-!
# Rows are read back

The cells of a member become a row that says what the member says. The bodies that the row was
promised are those that it refers to, so members may be told apart by them.

* `IsRow`, `AreRows`: what the bytes of members are;
* `Fills.rows`: rows of one kind, one after another;
* `Assembled.function`, `Assembled.readsSignature` and their like: each kind of row.
-/

namespace Typelib

variable {α β : Type} [Row β]

/-- The bytes are a row with a property, and the row refers to the bodies that were promised. -/
def IsRow (d : Draft) (P : β → Prop) (promised : β → List UInt32) (bs : List UInt8)
    (ids : List BodyId) : Prop :=
  ∃ row, bs = Row.record.encode row ∧ P row ∧ promised row = ids.map d.bodyOffset

/-- The bytes are rows, one for each member, that refer to the bodies that were promised. -/
def AreRows (d : Draft) (R : β → α → Prop) (promised : β → List UInt32) (members : List α)
    (bs : List UInt8) (ids : List BodyId) : Prop :=
  ∃ rows, bs = rows.flatMap Row.record.encode ∧ List.Forall₂ R rows members ∧
    rows.flatMap promised = ids.map d.bodyOffset

/-- A row that refers to no body. -/
def noBodies : β → List UInt32 := fun _ => []

omit [Row β] in
@[simp] theorem flatMap_noBodies (rows : List β) : rows.flatMap noBodies = [] := by
  simp [noBodies]

/-! ### Bodies of rows -/

def FunctionRow.bodies (row : FunctionRow) : List UInt32 := [row.signature]

def CallbackRow.bodies (row : CallbackRow) : List UInt32 := [row.signature]

def SignalRow.bodies (row : SignalRow) : List UInt32 := [row.signature]

def VFuncRow.bodies (row : VFuncRow) : List UInt32 := [row.signature]

def ConstantRow.bodies (row : ConstantRow) : List UInt32 := [row.offset]

/-! ### Lists of members -/

variable {works : List Work} {d : Draft} {img : Image} {id : BodyId}

/-- If the cells of each member become a row, then those of all members become rows. -/
theorem Fills.rows {cells : α → List Cell} {R : β → α → Prop} {promised : β → List UInt32}
    {members : List α}
    (hrow : ∀ a ∈ members, ∀ pos bs ids, Fills d works pos (cells a) bs ids →
      IsRow d (fun row => R row a) promised bs ids) :
    ∀ {pos : Nat} {bs : List UInt8} {ids : List BodyId},
    Fills d works pos (members.flatMap cells) bs ids → AreRows d R promised members bs ids := by
  induction members with
  | nil =>
    rintro pos bs ids ⟨rfl, rfl⟩
    exact ⟨[], rfl, .nil, rfl⟩
  | cons a members ih =>
    intro pos bs ids h
    rw [List.forall_mem_cons] at hrow
    rw [List.flatMap_cons] at h
    obtain ⟨bs₁, ids₁, bs₂, ids₂, h₁, h₂, rfl, rfl⟩ := h.append
    obtain ⟨row, rfl, hr, hids⟩ := hrow.1 _ _ _ h₁
    obtain ⟨rows, rfl, hrs, hids'⟩ := ih hrow.2 h₂
    refine ⟨row :: rows, rfl, .cons hr hrs, ?_⟩
    rw [List.flatMap_cons, List.map_append, hids, hids']

namespace Assembled

variable {pos : Nat} {bs : List UInt8} {ids : List BodyId}

/-! ### Members -/

theorem field {f : FieldDecl} (ha : Assembled works d img)
    (h : Fills d works pos f.cells bs ids) :
    IsRow d (fun row => (d.reading img).ReadsField row f) noBodies bs ids := by
  simp only [FieldDecl.cells, Cell.flags8, fills_name, fills_byte, fills_word16, fills_type,
    fills_nil] at h
  obtain ⟨hname, _, rfl, _, rfl, _, rfl, _, rfl, htype, _, rfl, rfl, rfl⟩ := h
  refine ⟨⟨d.stringOffset f.name, .ofNat (flagWord [f.readable, f.writable]), f.bits,
    f.structOffset, d.typeRef f.type⟩, rfl, ?_, rfl⟩
  exact ⟨ha.readsName hname, flags_ofNat8 (by simp), rfl, rfl, ha.readsType htype⟩

theorem property {p : PropertyDecl} (ha : Assembled works d img)
    (h : Fills d works pos p.cells bs ids) :
    IsRow d (fun row => (d.reading img).ReadsProperty row p) noBodies bs ids := by
  simp only [PropertyDecl.cells, Cell.flags32, fills_name, fills_word32, fills_type, fills_nil] at h
  obtain ⟨hname, _, rfl, _, rfl, htype, _, rfl, rfl, rfl⟩ := h
  refine ⟨⟨d.stringOffset p.name, .ofNat (flagWord [p.deprecated, p.readable, p.writable,
    p.construct, p.constructOnly]), d.typeRef p.type⟩, rfl, ?_, rfl⟩
  exact ⟨ha.readsName hname, flags_ofNat32 (by simp), ha.readsType htype⟩

theorem toInt_of_signed {n : Int} (hl : -0x80000000 ≤ n) (hu : n < 0x80000000) :
    (UInt32.ofNat (n % 0x100000000).toNat).toInt32.toInt = n := by
  have hsize : Int32.size = 4294967296 := rfl
  have hnonneg : 0 ≤ n % 0x100000000 := Int.emod_nonneg _ (by decide)
  rw [UInt32.toInt32_ofNat', Int32.toInt_ofNat', Int.toNat_of_nonneg hnonneg, hsize, Int.bmod_def]
  omega

/-- A value is read back whether or not a signed word holds it. -/
theorem value {owner : String} {v : ValueDecl} (ha : Assembled works d img)
    (h : Fills d works pos (v.cells owner) bs ids) :
    IsRow d (fun row => (d.reading img).ReadsValue row v) noBodies bs ids := by
  obtain ⟨n, hn⟩ : ∃ n, n = v.value.toInt := ⟨_, rfl⟩
  simp only [ValueDecl.cells, ← hn] at h
  split_ifs at h with hsigned hunsigned
  · simp only [Cell.flags32, fills_word32, fills_name, fills_nil] at h
    obtain ⟨_, rfl, hname, _, rfl, _, rfl, rfl, rfl⟩ := h
    refine ⟨⟨.ofNat (flagWord [v.deprecated, false]), d.stringOffset v.name,
      .ofNat (n % 0x100000000).toNat⟩, rfl, ⟨?_, ha.readsName hname, ?_⟩, rfl⟩
    · have hfalse : decide (0x80000000 ≤ v.value.toInt) = false := by
        rw [← hn]
        exact decide_eq_false (by omega)
      rw [hfalse]
      exact flags_ofNat32 (by simp)
    · have hflag : (flagWord [v.deprecated, false]).testBit ValueRow.unsignedBit = false :=
        testBit_flagWord _ _
      rw [ValueRow.value, ValueRow.isUnsigned, toNat_flags32 (by simp), hflag, ← hn]
      exact toInt_of_signed hsigned.1 hsigned.2
  · simp only [Cell.flags32, fills_word32, fills_name, fills_nil] at h
    obtain ⟨_, rfl, hname, _, rfl, _, rfl, rfl, rfl⟩ := h
    refine ⟨⟨.ofNat (flagWord [v.deprecated, true]), d.stringOffset v.name, .ofNat n.toNat⟩, rfl,
      ⟨?_, ha.readsName hname, ?_⟩, rfl⟩
    · have htrue : decide (0x80000000 ≤ v.value.toInt) = true := by
        rw [← hn]
        exact decide_eq_true (by omega)
      rw [htrue]
      exact flags_ofNat32 (by simp)
    · have hflag : (flagWord [v.deprecated, true]).testBit ValueRow.unsignedBit = true :=
        testBit_flagWord _ _
      rw [ValueRow.value, ValueRow.isUnsigned, toNat_flags32 (by simp), hflag, ← hn]
      rw [if_pos rfl, UInt32.toNat_ofNat_of_lt' (by simp [UInt32.size]; omega)]
      omega
  · exact absurd h not_fills_reject

/-! ### Signatures -/

theorem arg {p : ParamDecl} (ha : Assembled works d img) (h : Fills d works pos p.cells bs ids) :
    IsRow d (fun row => (d.reading img).ReadsArg row p) noBodies bs ids := by
  simp only [ParamDecl.cells, Cell.flags16, fills_name, fills_word16, fills_type, fills_nil] at h
  obtain ⟨hname, _, rfl, _, rfl, _, rfl, htype, _, rfl, rfl, rfl⟩ := h
  refine ⟨⟨d.stringOffset p.name, .ofNat (flagWord [p.direction != .output, p.direction != .input,
    p.dipper, p.nullOk, p.optional, p.transfer == .full, p.transfer == .container, p.retval]),
    d.typeRef p.type⟩, rfl, ?_, rfl⟩
  exact ⟨ha.readsName hname, flags_ofNat16 (by simp), ha.readsType htype⟩

/-- The row of a signature begins with what is returned. -/
theorem result {s : Signature} {cs : List Cell} (ha : Assembled works d img)
    (h : Fills d works pos (s.resultCells ++ cs) bs ids) :
    ∃ returnType flags rest,
      bs = TypeRef.record.encode returnType ++ (leBytes 2 flags.toNat ++ rest) ∧
      (∀ n, (d.reading img).ReadsResult ⟨returnType, flags, n⟩ s.result) ∧
      Fills d works (pos + 8 + 2) cs rest ids := by
  unfold Signature.resultCells at h
  cases hr : s.result with
  | none =>
    simp only [hr, List.cons_append, List.nil_append, fills_typeRef, fills_word16] at h
    obtain ⟨_, rfl, rest, rfl, h⟩ := h
    refine ⟨.simple (.scalar .void) false, 0, rest, rfl, fun n => ⟨rfl, fun i => ?_⟩, h⟩
    simp
  | some result =>
    simp only [hr, Cell.flags16, List.cons_append, List.nil_append, fills_type, fills_word16] at h
    obtain ⟨htype, _, rfl, rest, rfl, h⟩ := h
    exact ⟨d.typeRef result.type, _, rest, rfl, fun n => ⟨ha.readsType htype,
      flags_ofNat16 (by simp)⟩, h⟩

/-- The offset of a signature leads to what it was promised to. -/
theorem readsSignature {s : Signature} (ha : Assembled works d img)
    (hw : works[id.toNat]? = some (.signature s)) :
    (d.reading img).ReadsSignature (d.bodyOffset id) s := by
  obtain ⟨ids, bs, hat, hfill, hpos, -⟩ := ha.body id _ hw
  obtain ⟨hcount, hcells⟩ := hfill.counted
  have hlen : s.params.length < UInt16.size :=
    Nat.lt_succ_of_le (hcount ("arguments", s.params.length) (List.mem_singleton_self _))
  rw [Signature.cells, List.append_assoc] at hcells
  obtain ⟨returnType, flags, rest, rfl, hresult, hrest⟩ := ha.result hcells
  simp only [Cell.count, List.cons_append, List.nil_append, fills_word16, fills_word32] at hrest
  obtain ⟨_, rfl, _, rfl, hargs⟩ := hrest
  obtain ⟨args, rfl, hall, -⟩ := Fills.rows (fun _ _ _ _ _ => ha.arg) hargs
  have hhead : img.At (d.bodyOffset id).toNat (Row.record.encode
      (⟨returnType, flags, .ofNat s.params.length⟩ : SignatureRow) ++
        args.flatMap Row.record.encode) := hat
  obtain ⟨hrow, hat'⟩ := hhead.head (ne_zero_of_toNat_pos hpos)
  have hcount : args.length = (UInt16.ofNat s.params.length).toNat := by
    rw [hall.length_eq, UInt16.toNat_ofNat_of_lt' hlen]
  have hwalk := Walk.rows_ok hat' (Nat.add_pos_left hpos _) ha.size hcount
  exact ⟨⟨_, args⟩, Walk.view_ok hrow (Walk.bind_ok hwalk), hresult _, hall⟩

/-! ### Callables -/

/-- A member is found at its first position. -/
theorem idxOf?_of_position {owner : Owner} {kind name : String} {members : List String}
    {index : UInt16} (h : owner.position kind members name = .ok index) :
    members.idxOf? name = some index.toNat := by
  unfold Owner.position at h
  change members.findIdx? (· == name) = _
  split at h
  next i hi =>
    split_ifs at h with hlt
    cases h
    rw [hi, UInt16.toNat_ofNat_of_lt' hlt]
  next => cases h

theorem memberIndex_of_position {owner : Owner} {kind : String} {members : List String}
    {name : Option String} {index : UInt16}
    (h : (name.map (owner.position kind members)).getD (.ok 0) = .ok index) :
    Reading.memberIndex members name = some index.toNat := by
  cases name with
  | none =>
    cases h
    rfl
  | some name => exact idxOf?_of_position h

theorem functionIndex_of_index {owner : Owner} {f : FunctionDecl} {index : UInt16}
    (h : f.index owner = .ok index) : Reading.functionIndex owner f = some index.toNat := by
  unfold FunctionDecl.index at h
  unfold Reading.functionIndex
  cases hv : f.wrapsVFunc with
  | some vfunc =>
    simp only [hv] at h
    exact idxOf?_of_position h
  | none =>
    simp only [hv] at h
    cases hp : f.property with
    | some property =>
      simp only [hp] at h
      exact idxOf?_of_position h
    | none =>
      simp only [hp] at h
      cases h
      rfl

theorem function {f : FunctionDecl} {owner : Owner} (ha : Assembled works d img)
    (h : Fills d works pos (f.cells owner) bs ids) :
    IsRow d (fun row => (d.reading img).ReadsFunction owner row f) FunctionRow.bodies bs ids := by
  obtain ⟨index, hindex, hcells⟩ := h.given
  simp only [Cell.flags16, fills_word16, fills_name, fills_signature, fills_nil] at hcells
  obtain ⟨_, rfl, _, rfl, _, rfl, _, rfl, hname, _, rfl, hsymbol, _, rfl, id, _, _, hw, rfl, rfl,
    rfl, rfl⟩ := hcells
  refine ⟨⟨EntryKind.function.code, .ofNat (flagWord [f.deprecated, f.setter, f.getter,
    f.constructor, f.wrapsVFunc.isSome, f.method]), index, d.stringOffset f.name,
    d.stringOffset f.symbol, d.bodyOffset id⟩, rfl, ?_, rfl⟩
  exact ⟨rfl, flags_ofNat16 (by simp), functionIndex_of_index hindex, ha.readsName hname,
    ha.readsName hsymbol, ha.readsSignature hw⟩

theorem callback {c : CallbackDecl} (ha : Assembled works d img)
    (h : Fills d works pos c.cells bs ids) :
    IsRow d (fun row => (d.reading img).ReadsCallback row c) CallbackRow.bodies bs ids := by
  simp only [CallbackDecl.cells, Cell.flags16, fills_word16, fills_name, fills_signature,
    fills_nil] at h
  obtain ⟨_, rfl, _, rfl, hname, _, rfl, id, _, _, hw, rfl, rfl, rfl, rfl⟩ := h
  refine ⟨⟨EntryKind.callback.code, .ofNat (flagWord [c.deprecated]), d.stringOffset c.name,
    d.bodyOffset id⟩, rfl, ?_, rfl⟩
  exact ⟨rfl, flags_ofNat16 (by simp), ha.readsName hname, ha.readsSignature hw⟩

theorem signal {s : SignalDecl} {owner : Owner} (ha : Assembled works d img)
    (h : Fills d works pos (s.cells owner) bs ids) :
    IsRow d (fun row => (d.reading img).ReadsSignal owner row s) SignalRow.bodies bs ids := by
  obtain ⟨classClosure, hclosure, hcells⟩ := h.given
  simp only [Cell.flags16, fills_word16, fills_name, fills_signature, fills_nil] at hcells
  obtain ⟨_, rfl, _, rfl, hname, _, rfl, id, _, _, hw, rfl, rfl, rfl, rfl⟩ := hcells
  refine ⟨⟨.ofNat (flagWord [s.deprecated, s.run == .first, s.run == .last, s.run == .cleanup,
    s.noRecurse, s.detailed, s.action, s.noHooks, s.classClosure.isSome, s.trueStopsEmit]),
    classClosure, d.stringOffset s.name, d.bodyOffset id⟩, rfl, ?_, rfl⟩
  exact ⟨flags_ofNat16 (by simp), memberIndex_of_position hclosure, ha.readsName hname,
    ha.readsSignature hw⟩

theorem vfunc {v : VFuncDecl} {owner : Owner} (ha : Assembled works d img)
    (h : Fills d works pos (v.cells owner) bs ids) :
    IsRow d (fun row => (d.reading img).ReadsVFunc owner row v) VFuncRow.bodies bs ids := by
  obtain ⟨signal, hsignal, hcells⟩ := h.given
  simp only [Cell.flags16, fills_word16, fills_name, fills_signature, fills_nil] at hcells
  obtain ⟨hname, _, rfl, _, rfl, _, rfl, _, rfl, _, rfl, id, _, _, hw, rfl, rfl, rfl, rfl⟩ := hcells
  refine ⟨⟨d.stringOffset v.name, .ofNat (flagWord [v.mustChainUp, v.mustBeImplemented,
    v.mustNotBeImplemented, v.classClosure, v.signal.isSome]), signal, v.structOffset,
    d.bodyOffset id⟩, rfl, ?_, rfl⟩
  exact ⟨ha.readsName hname, flags_ofNat16 (by simp), memberIndex_of_position hsignal, rfl,
    ha.readsSignature hw⟩

/-! ### Constants -/

/-- The offset of a constant leads to the bytes of its value, which are never none. -/
theorem readsConstantValue {c : ConstantDecl} {row : ConstantRow} {bytes : List UInt8}
    (ha : Assembled works d img) (hw : works[id.toNat]? = some (.constant c))
    (hc : c.encode = .ok bytes) (hsize : row.size = .ofNat bytes.length)
    (hoffset : row.offset = d.bodyOffset id) : (d.reading img).ReadsConstantValue row c := by
  obtain ⟨ids, bs, hat, hfill, hpos, -⟩ := ha.body id _ hw
  obtain ⟨bytes', hc', hcells⟩ := hfill.given
  rw [hc] at hc'
  cases hc'
  obtain ⟨_, _, _, _, ⟨hraw, -⟩, ⟨hnil, -⟩, rfl, -⟩ := hcells
  rw [hraw, hnil, List.append_nil] at hat
  have hle := hat.le
  have hmax := ha.size
  have hword : maxWord32 = 4294967295 := rfl
  have hlen : row.size.toNat = bytes.length := by
    rw [hsize]
    exact UInt32.toNat_ofNat_of_lt' (by simp only [UInt32.size]; omega)
  -- a value of no bytes would be read without looking at its offset
  have hne : row.size ≠ 0 := by
    intro h0
    rw [h0] at hlen
    exact ConstantDecl.ne_nil_of_encode hc (List.eq_nil_of_length_eq_zero hlen.symm)
  have hslice : img.constantValue row = .ok bytes.toArray := by
    rw [Image.constantValue, if_neg hne, hlen, hoffset]
    exact hat.slice (ne_zero_of_toNat_pos hpos)
  exact ⟨bytes, hc, hslice, hlen⟩

theorem constant {c : ConstantDecl} (ha : Assembled works d img)
    (h : Fills d works pos c.cells bs ids) :
    IsRow d (fun row => (d.reading img).ReadsConstant row c) ConstantRow.bodies bs ids := by
  obtain ⟨bytes, hc, hcells⟩ := h.given
  simp only [Cell.flags16, fills_word16, fills_word32, fills_name, fills_type, fills_value,
    fills_nil] at hcells
  obtain ⟨_, rfl, _, rfl, hname, _, rfl, htype, _, rfl, _, rfl, id, _, _, hw, rfl, rfl, rfl,
    rfl⟩ := hcells
  refine ⟨⟨EntryKind.constant.code, .ofNat (flagWord [c.deprecated]), d.stringOffset c.name,
    d.typeRef c.type, .ofNat bytes.length, d.bodyOffset id⟩, rfl, ?_, rfl⟩
  exact ⟨rfl, flags_ofNat16 (by simp), ha.readsName hname, ha.readsType htype,
    ha.readsConstantValue hw hc rfl rfl⟩

end Assembled

end Typelib
