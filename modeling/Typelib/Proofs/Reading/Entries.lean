import Typelib.Proofs.Reading.Rows

/-!
# Entries are read back

An entry is a row, followed by the rows of its members in a fixed order. Reading them one kind after
another, by the counts in the first row, gives all members back.

* `EntryView.bodies`: the bodies that the rows of an entry refer to;
* `Assembled.readsEntry`: the entry that stands for a node holds what the node describes.
-/

namespace Typelib

/-- The bodies of signatures and values that the rows of an entry refer to, in order. -/
def EntryView.bodies : EntryView → List UInt32
  | function row => row.bodies
  | callback row => row.bodies
  | enum _ | errorDomain _ => []
  | struct view => view.methods.flatMap FunctionRow.bodies
  | union view =>
    view.functions.flatMap FunctionRow.bodies ++ view.discriminators.flatMap ConstantRow.bodies
  | object view =>
    view.methods.flatMap FunctionRow.bodies ++ view.signals.flatMap SignalRow.bodies ++
      view.vfuncs.flatMap VFuncRow.bodies ++ view.constants.flatMap ConstantRow.bodies
  | interface view =>
    view.methods.flatMap FunctionRow.bodies ++ view.signals.flatMap SignalRow.bodies ++
      view.vfuncs.flatMap VFuncRow.bodies ++ view.constants.flatMap ConstantRow.bodies
  | constant row => row.bodies

namespace Assembled

variable {works : List Work} {d : Draft} {img : Image} {offset : UInt32} {pos : Nat}
  {bs : List UInt8} {ids : List BodyId} {cs : List Cell}

/-! ### Parts of entries -/

/-- The row of a registered type begins with the common head. -/
theorem head {kind : EntryKind} {name : String} {deprecated discriminated : Bool}
    {gtypeName gtypeInit : Option String} (ha : Assembled works d img)
    (h : Fills d works pos
      (headCells kind name deprecated gtypeName gtypeInit discriminated ++ cs) bs ids) :
    ∃ head rest, bs = RegisteredHead.record.encode head ++ rest ∧
      (d.reading img).ReadsHead head kind name deprecated gtypeName gtypeInit discriminated ∧
      Fills d works (pos + 16) cs rest ids := by
  simp only [headCells, Cell.flags16, List.cons_append, List.nil_append, fills_word16, fills_name,
    fills_optName] at h
  obtain ⟨_, rfl, _, rfl, hname, _, rfl, hgtype, _, rfl, hinit, rest, rfl, hcells⟩ := h
  refine ⟨⟨kind.code, .ofNat (flagWord [deprecated, gtypeName.isNone, discriminated]),
    d.stringOffset name, d.optOffset gtypeName, d.optOffset gtypeInit⟩, rest, rfl, ?_, hcells⟩
  exact ⟨rfl, flags_ofNat16 (by simp), ha.readsName hname, ha.readsOptName hgtype,
    ha.readsOptName hinit⟩

/-- The bytes of references to slots. -/
def slotBytes (refs : List DirRef) : List UInt8 := refs.flatMap fun r => leBytes 2 r.raw.toNat

/-- References to slots are filled up to the next boundary. -/
theorem slots {names : List String} (ha : Assembled works d img) :
    ∀ {pos : Nat} {bs : List UInt8}, Fills d works pos (slotCells names ++ cs) bs ids →
    ∃ refs rest, bs = slotBytes refs ++ padding (pos + (slotBytes refs).length) ++ rest ∧
      List.Forall₂ (d.reading img).ReadsSlot refs names ∧
      Fills d works (pos + (slotBytes refs ++
        padding (pos + (slotBytes refs).length)).length) cs rest ids := by
  induction names with
  | nil =>
    intro pos bs h
    simp only [slotCells, List.map_nil, List.nil_append, List.cons_append, fills_align] at h
    obtain ⟨rest, rfl, hcells⟩ := h
    exact ⟨[], rest, rfl, .nil, hcells⟩
  | cons name names ih =>
    intro pos bs h
    have hcells : Fills d works pos (.slot name :: (slotCells names ++ cs)) bs ids := h
    rw [fills_slot] at hcells
    obtain ⟨hname, rest, rfl, hrest⟩ := hcells
    obtain ⟨refs, rest', rfl, hall, hcells'⟩ := ih hrest
    obtain ⟨ref, href⟩ : ∃ ref, ref = d.symbols.slotOf name := ⟨_, rfl⟩
    have hlen : (slotBytes (ref :: refs)).length = 2 + (slotBytes refs).length := by
      simp [slotBytes]
    have hpos : pos + (slotBytes (ref :: refs)).length = pos + 2 + (slotBytes refs).length := by
      rw [hlen, Nat.add_assoc]
    refine ⟨ref :: refs, rest', ?_, .cons (href ▸ ha.readsSlot hname) hall, ?_⟩
    · rw [hpos, ← href]
      simp [slotBytes]
    · rw [List.length_append] at hcells' ⊢
      rw [hpos, ← Nat.add_assoc, hpos, Nat.add_assoc]
      exact hcells'

/-- What cells became stands at a position. -/
structure Remains (works : List Work) (d : Draft) (img : Image) (pos : Nat) (cs : List Cell)
    (ids : List BodyId) : Prop where
  positive : 0 < pos
  fills : ∃ bs, img.At pos bs ∧ Fills d works pos cs bs ids

/-- The first row of an entry is read, and what follows it remains. -/
theorem Remains.first {α : Type} [Row α] [LawfulRow α] (row : α)
    (hat : img.At offset.toNat (Row.record.encode row ++ bs)) (hpos : 0 < offset.toNat)
    (h : Fills d works (offset.toNat + Row.width α) cs bs ids) :
    img.row α offset = .ok row ∧ Remains works d img (offset.toNat + Row.width α) cs ids := by
  obtain ⟨hrow, hrest⟩ := hat.head (ne_zero_of_toNat_pos hpos)
  exact ⟨hrow, Nat.add_pos_left hpos _, bs, hrest, h⟩

theorem Remains.concat_nil (h : Remains works d img pos cs ids) :
    Remains works d img pos (cs ++ []) ids := by
  rwa [List.append_nil]

theorem Remains.eq_nil (h : Remains works d img pos [] ids) : ids = [] := by
  obtain ⟨-, bs, -, -, hids⟩ := h
  exact hids

/-- The rows of one kind of member are read, and what follows them remains. -/
theorem members {α β : Type} [Row β] [LawfulRow β] {cells : α → List Cell} {R : β → α → Prop}
    {promised : β → List UInt32} {members : List α} (ha : Assembled works d img)
    (hrow : ∀ a ∈ members, ∀ pos bs ids, Fills d works pos (cells a) bs ids →
      IsRow d (fun row => R row a) promised bs ids)
    (hmax : members.length ≤ Build.maxCount)
    (h : Remains works d img pos (members.flatMap cells ++ cs) ids) :
    ∃ rows pos' ids', Walk.rows img β (.ofNat members.length) pos = .ok (rows, pos') ∧
      List.Forall₂ R rows members ∧ Remains works d img pos' cs ids' ∧
      ids.map d.bodyOffset = rows.flatMap promised ++ ids'.map d.bodyOffset := by
  obtain ⟨hpos, bs, hat, hcells⟩ := h
  obtain ⟨_, ids₁, rest, ids₂, hfill, hrest, rfl, rfl⟩ := hcells.append
  obtain ⟨rows, rfl, hall, hids⟩ := Fills.rows hrow hfill
  have hcount : rows.length = (UInt16.ofNat members.length).toNat := by
    rw [hall.length_eq, UInt16.toNat_ofNat_of_lt' (Nat.lt_succ_of_le hmax)]
  refine ⟨rows, _, ids₂, Walk.rows_ok hat.left hpos ha.size hcount, hall,
    ⟨Nat.add_pos_left hpos _, rest, hat.right, hrest⟩, ?_⟩
  rw [List.map_append, hids]

/-- References to slots are read, and what follows their filler remains. -/
theorem slotRefs {names : List String} (ha : Assembled works d img)
    (hmax : names.length ≤ Build.maxCount) (halign : pos % bodyAlign = 0)
    (h : Remains works d img pos (slotCells names ++ cs) ids) :
    ∃ refs pos', Walk.refs img (.ofNat names.length) pos = .ok (refs, pos') ∧
      List.Forall₂ (d.reading img).ReadsSlot refs names ∧ Remains works d img pos' cs ids := by
  obtain ⟨hpos, bs, hat, hcells⟩ := h
  obtain ⟨refs, rest, rfl, hall, hrest⟩ := ha.slots hcells
  have hcount : refs.length = (UInt16.ofNat names.length).toNat := by
    rw [hall.length_eq, UInt16.toNat_ofNat_of_lt' (Nat.lt_succ_of_le hmax)]
  exact ⟨refs, _, Walk.refs_ok rfl hat.left hpos halign ha.size hcount, hall,
    Nat.add_pos_left hpos _, rest, hat.right, hrest⟩

/-! ### Entries -/

theorem enum {e : EnumDecl} {kind : EntryKind} (ha : Assembled works d img)
    (hat : img.At offset.toNat bs) (hpos : 0 < offset.toNat)
    (h : Fills d works offset.toNat (e.cells kind) bs ids) :
    ∃ view, img.enumView offset = .ok view ∧ (d.reading img).ReadsEnum kind view e ∧
      (EntryView.enum view).bodies = ids.map d.bodyOffset := by
  obtain ⟨hmax, hcells⟩ := h.counted
  simp only [List.forall_mem_cons] at hmax
  simp only [List.append_assoc] at hcells
  obtain ⟨head, _, rfl, hhead, hrest⟩ := ha.head hcells
  simp only [Cell.count, List.cons_append, List.nil_append, fills_word16] at hrest
  obtain ⟨_, rfl, _, rfl, hvalues⟩ := hrest
  let row : EnumRow := ⟨head, .ofNat e.values.length⟩
  obtain ⟨hrow, h₀⟩ := Remains.first row hat hpos hvalues
  obtain ⟨values, _, _, hread₁, hall, h₁, hids⟩ :=
    ha.members (fun _ _ _ _ _ => ha.value) hmax.1 h₀.concat_nil
  refine ⟨⟨row, values⟩, Walk.view_ok hrow (Walk.bind_ok hread₁), ⟨hhead, hall⟩, ?_⟩
  rw [hids, h₁.eq_nil, flatMap_noBodies]
  rfl

theorem struct {s : StructDecl} {kind : EntryKind} (ha : Assembled works d img)
    (hat : img.At offset.toNat bs) (hpos : 0 < offset.toNat)
    (h : Fills d works offset.toNat (s.cells kind) bs ids) :
    ∃ view, img.structView offset = .ok view ∧ (d.reading img).ReadsStruct kind view s ∧
      (EntryView.struct view).bodies = ids.map d.bodyOffset := by
  obtain ⟨hmax, hcells⟩ := h.counted
  simp only [List.forall_mem_cons] at hmax
  simp only [List.append_assoc] at hcells
  obtain ⟨head, _, rfl, hhead, hrest⟩ := ha.head hcells
  simp only [Cell.count, List.cons_append, List.nil_append, fills_word16] at hrest
  obtain ⟨_, rfl, _, rfl, hmembers⟩ := hrest
  let row : StructRow := ⟨head, .ofNat s.fields.length, .ofNat s.methods.length⟩
  obtain ⟨hrow, h₀⟩ := Remains.first row hat hpos hmembers
  obtain ⟨fields, _, _, hread₁, hfields, h₁, hids₁⟩ :=
    ha.members (fun _ _ _ _ _ => ha.field) hmax.1 h₀
  obtain ⟨methods, _, _, hread₂, hmethods, h₂, hids₂⟩ :=
    ha.members (fun _ _ _ _ _ => ha.function) hmax.2.1 h₁.concat_nil
  refine ⟨⟨row, fields, methods⟩,
    Walk.view_ok hrow ((Walk.bind_ok hread₁).trans (Walk.bind_ok hread₂)),
    ⟨hhead, hfields, hmethods⟩, ?_⟩
  rw [hids₁, hids₂, h₂.eq_nil, flatMap_noBodies, List.map_nil, List.append_nil]
  rfl

/-- The discriminator of a union stands behind its counts. -/
theorem discriminator {u : UnionDecl} (ha : Assembled works d img)
    (h : Fills d works pos (u.discriminatorCells ++ cs) bs ids) :
    ∃ offset type rest, bs = leBytes 4 offset.toUInt32.toNat ++ TypeRef.record.encode type ++ rest ∧
      (∀ head fields functions discriminators, (d.reading img).ReadsDiscriminator
        ⟨head, fields, functions, discriminators, offset, type⟩ u.discriminator) ∧
      Fills d works (pos + 4 + 8) cs rest ids := by
  unfold UnionDecl.discriminatorCells at h
  cases hd : u.discriminator with
  | none =>
    simp only [hd, List.cons_append, List.nil_append, fills_word32, fills_typeRef] at h
    obtain ⟨_, rfl, rest, rfl, hcells⟩ := h
    exact ⟨0, .none, rest, (List.append_assoc ..).symm, fun _ _ _ _ => ⟨rfl, rfl⟩, hcells⟩
  | some d' =>
    simp only [hd, List.cons_append, List.nil_append, fills_word32, fills_type] at h
    obtain ⟨_, rfl, htype, rest, rfl, hcells⟩ := h
    exact ⟨d'.offset, _, rest, (List.append_assoc ..).symm,
      fun _ _ _ _ => ⟨rfl, ha.readsType htype⟩, hcells⟩

theorem union {u : UnionDecl} (ha : Assembled works d img)
    (hat : img.At offset.toNat bs) (hpos : 0 < offset.toNat)
    (h : Fills d works offset.toNat u.cells bs ids) :
    ∃ view, img.unionView offset = .ok view ∧ (d.reading img).ReadsUnion view u ∧
      (EntryView.union view).bodies = ids.map d.bodyOffset := by
  obtain ⟨hmax, hcells⟩ := h.counted
  simp only [List.forall_mem_cons] at hmax
  obtain ⟨hmax₁, hmax₂, hmax₃, -⟩ := hmax
  simp only [List.append_assoc] at hcells
  obtain ⟨head, _, rfl, hhead, hrest⟩ := ha.head hcells
  simp only [Cell.count, List.cons_append, List.nil_append, fills_word16] at hrest
  obtain ⟨_, rfl, _, rfl, _, rfl, _, rfl, hdisc⟩ := hrest
  obtain ⟨place, type, _, rfl, hreads, hmembers⟩ := ha.discriminator hdisc
  let row : UnionRow := ⟨head, .ofNat u.fields.length, .ofNat u.methods.length,
    .ofNat u.discriminators.length, place, type⟩
  obtain ⟨hrow, h₀⟩ := Remains.first row hat hpos hmembers
  obtain ⟨fields, _, _, hread₁, hfields, h₁, hids₁⟩ :=
    ha.members (fun _ _ _ _ _ => ha.field) hmax₁ h₀
  obtain ⟨functions, _, _, hread₂, hfunctions, h₂, hids₂⟩ :=
    ha.members (fun _ _ _ _ _ => ha.function) hmax₂ h₁
  obtain ⟨constants, _, _, hread₃, hconstants, h₃, hids₃⟩ :=
    ha.members (fun _ _ _ _ _ => ha.constant) hmax₃ h₂.concat_nil
  refine ⟨⟨row, fields, functions, constants⟩, Walk.view_ok hrow ((Walk.bind_ok hread₁).trans
    ((Walk.bind_ok hread₂).trans (Walk.bind_ok hread₃))),
    ⟨hhead, hreads _ _ _ _, hfields, hfunctions, hconstants⟩, ?_⟩
  rw [hids₁, hids₂, hids₃, h₃.eq_nil, flatMap_noBodies, List.map_nil, List.append_nil]
  rfl

/-- The slot of a parent, or the reference to none. -/
theorem parent {name : Option String} (ha : Assembled works d img)
    (h : Fills d works pos ((match name with
      | some parent => .slot parent
      | none => .word16 DirRef.none.raw) :: cs) bs ids) :
    ∃ raw rest, bs = leBytes 2 raw.toNat ++ rest ∧ (d.reading img).ReadsParent ⟨raw⟩ name ∧
      Fills d works (pos + 2) cs rest ids := by
  cases name with
  | none =>
    simp only [fills_word16] at h
    obtain ⟨rest, rfl, hcells⟩ := h
    exact ⟨_, rest, rfl, rfl, hcells⟩
  | some parent =>
    simp only [fills_slot] at h
    obtain ⟨hname, rest, rfl, hcells⟩ := h
    exact ⟨_, rest, rfl, ha.readsSlot hname, hcells⟩

theorem object {o : ObjectDecl} (ha : Assembled works d img)
    (hat : img.At offset.toNat bs) (hpos : 0 < offset.toNat) (halign : offset.toNat % bodyAlign = 0)
    (h : Fills d works offset.toNat o.cells bs ids) :
    ∃ view, img.objectView offset = .ok view ∧ (d.reading img).ReadsObject view o ∧
      (EntryView.object view).bodies = ids.map d.bodyOffset := by
  obtain ⟨hmax, hcells⟩ := h.counted
  simp only [List.forall_mem_cons] at hmax
  obtain ⟨hmax₀, hmax₁, hmax₂, hmax₃, hmax₄, hmax₅, hmax₆, -⟩ := hmax
  simp only [List.append_assoc] at hcells
  obtain ⟨head, _, rfl, hhead, hrest⟩ := ha.head hcells
  simp only [Cell.count, List.cons_append, List.nil_append] at hrest
  obtain ⟨parent, _, rfl, hparent, hcounts⟩ := ha.parent hrest
  simp only [fills_word16, fills_word32] at hcounts
  obtain ⟨_, rfl, _, rfl, _, rfl, _, rfl, _, rfl, _, rfl, _, rfl, _, rfl, hmembers⟩ := hcounts
  let row : ObjectRow := ⟨head, parent, .ofNat o.interfaces.length, .ofNat o.fields.length,
    .ofNat o.properties.length, .ofNat o.methods.length, .ofNat o.signals.length,
    .ofNat o.vfuncs.length, .ofNat o.constants.length⟩
  obtain ⟨hrow, h₀⟩ := Remains.first row hat hpos hmembers
  -- references come right after the row, whose width is a multiple of the boundary
  have hwidth : (offset.toNat + Row.width ObjectRow) % bodyAlign = 0 := by
    rw [Nat.add_mod, halign]
    rfl
  obtain ⟨interfaces, _, hread₀, hinterfaces, h₁⟩ := ha.slotRefs hmax₀ hwidth h₀
  obtain ⟨fields, _, _, hread₁, hfields, h₂, hids₁⟩ :=
    ha.members (fun _ _ _ _ _ => ha.field) hmax₁ h₁
  obtain ⟨properties, _, _, hread₂, hproperties, h₃, hids₂⟩ :=
    ha.members (fun _ _ _ _ _ => ha.property) hmax₂ h₂
  obtain ⟨methods, _, _, hread₃, hmethods, h₄, hids₃⟩ :=
    ha.members (fun _ _ _ _ _ => ha.function) hmax₃ h₃
  obtain ⟨signals, _, _, hread₄, hsignals, h₅, hids₄⟩ :=
    ha.members (fun _ _ _ _ _ => ha.signal) hmax₄ h₄
  obtain ⟨vfuncs, _, _, hread₅, hvfuncs, h₆, hids₅⟩ :=
    ha.members (fun _ _ _ _ _ => ha.vfunc) hmax₅ h₅
  obtain ⟨constants, _, _, hread₆, hconstants, h₇, hids₆⟩ :=
    ha.members (fun _ _ _ _ _ => ha.constant) hmax₆ h₆.concat_nil
  refine ⟨⟨row, interfaces, fields, properties, methods, signals, vfuncs, constants⟩,
    Walk.view_ok hrow ((Walk.bind_ok hread₀).trans ((Walk.bind_ok hread₁).trans
      ((Walk.bind_ok hread₂).trans ((Walk.bind_ok hread₃).trans ((Walk.bind_ok hread₄).trans
        ((Walk.bind_ok hread₅).trans (Walk.bind_ok hread₆))))))),
    ⟨hhead, hparent, hinterfaces, hfields, hproperties, hmethods, hsignals, hvfuncs, hconstants⟩,
    ?_⟩
  simp only [hids₁, hids₂, hids₃, hids₄, hids₅, hids₆, h₇.eq_nil, flatMap_noBodies,
    EntryView.bodies, List.map_nil, List.append_nil, List.nil_append, List.append_assoc]

theorem interface {i : InterfaceDecl} (ha : Assembled works d img)
    (hat : img.At offset.toNat bs) (hpos : 0 < offset.toNat) (halign : offset.toNat % bodyAlign = 0)
    (h : Fills d works offset.toNat i.cells bs ids) :
    ∃ view, img.interfaceView offset = .ok view ∧ (d.reading img).ReadsInterface view i ∧
      (EntryView.interface view).bodies = ids.map d.bodyOffset := by
  obtain ⟨hmax, hcells⟩ := h.counted
  simp only [List.forall_mem_cons] at hmax
  obtain ⟨hmax₀, hmax₁, hmax₂, hmax₃, hmax₄, hmax₅, -⟩ := hmax
  simp only [List.append_assoc] at hcells
  obtain ⟨head, _, rfl, hhead, hrest⟩ := ha.head hcells
  simp only [Cell.count, List.cons_append, List.nil_append, fills_word16, fills_word32] at hrest
  obtain ⟨_, rfl, _, rfl, _, rfl, _, rfl, _, rfl, _, rfl, _, rfl, hmembers⟩ := hrest
  let row : InterfaceRow := ⟨head, .ofNat i.prerequisites.length, .ofNat i.properties.length,
    .ofNat i.methods.length, .ofNat i.signals.length, .ofNat i.vfuncs.length,
    .ofNat i.constants.length⟩
  obtain ⟨hrow, h₀⟩ := Remains.first row hat hpos hmembers
  have hwidth : (offset.toNat + Row.width InterfaceRow) % bodyAlign = 0 := by
    rw [Nat.add_mod, halign]
    rfl
  obtain ⟨prerequisites, _, hread₀, hprerequisites, h₁⟩ := ha.slotRefs hmax₀ hwidth h₀
  obtain ⟨properties, _, _, hread₁, hproperties, h₂, hids₁⟩ :=
    ha.members (fun _ _ _ _ _ => ha.property) hmax₁ h₁
  obtain ⟨methods, _, _, hread₂, hmethods, h₃, hids₂⟩ :=
    ha.members (fun _ _ _ _ _ => ha.function) hmax₂ h₂
  obtain ⟨signals, _, _, hread₃, hsignals, h₄, hids₃⟩ :=
    ha.members (fun _ _ _ _ _ => ha.signal) hmax₃ h₃
  obtain ⟨vfuncs, _, _, hread₄, hvfuncs, h₅, hids₄⟩ :=
    ha.members (fun _ _ _ _ _ => ha.vfunc) hmax₄ h₄
  obtain ⟨constants, _, _, hread₅, hconstants, h₆, hids₅⟩ :=
    ha.members (fun _ _ _ _ _ => ha.constant) hmax₅ h₅.concat_nil
  refine ⟨⟨row, prerequisites, properties, methods, signals, vfuncs, constants⟩,
    Walk.view_ok hrow ((Walk.bind_ok hread₀).trans ((Walk.bind_ok hread₁).trans
      ((Walk.bind_ok hread₂).trans ((Walk.bind_ok hread₃).trans ((Walk.bind_ok hread₄).trans
        (Walk.bind_ok hread₅)))))),
    ⟨hhead, hprerequisites, hproperties, hmethods, hsignals, hvfuncs, hconstants⟩, ?_⟩
  simp only [hids₁, hids₂, hids₃, hids₄, hids₅, h₆.eq_nil, flatMap_noBodies, EntryView.bodies,
    List.map_nil, List.append_nil, List.nil_append, List.append_assoc]

theorem errorDomain {e : ErrorDomainDecl} (ha : Assembled works d img)
    (h : Fills d works pos e.cells bs ids) :
    IsRow d (fun row => (d.reading img).ReadsErrorDomain row e) noBodies bs ids := by
  simp only [ErrorDomainDecl.cells, Cell.flags16, fills_word16, fills_name, fills_slot,
    fills_nil] at h
  obtain ⟨_, rfl, _, rfl, hname, _, rfl, hquark, _, rfl, hcodes, _, rfl, _, rfl, rfl, rfl⟩ := h
  refine ⟨⟨EntryKind.errorDomain.code, .ofNat (flagWord [e.deprecated]), d.stringOffset e.name,
    d.stringOffset e.getQuark, (d.symbols.slotOf e.codes).raw⟩, rfl, ?_, rfl⟩
  exact ⟨rfl, flags_ofNat16 (by simp), ha.readsName hname, ha.readsName hquark,
    ha.readsSlot hcodes⟩

/-- What stands for a node holds what the node describes, and refers to the bodies that were
promised to it. -/
theorem readsEntry {id : BodyId} {node : Node} (ha : Assembled works d img)
    (h : Stands works d img id (.entry node) ids) :
    ∃ kind view, node.entryKind? = some kind ∧ img.view (d.bodyOffset id) kind = .ok view ∧
      (d.reading img).ReadsEntry view node ∧ view.bodies = ids.map d.bodyOffset := by
  obtain ⟨bs, hat, hfill, hpos, halign⟩ := h
  have h0 := ne_zero_of_toNat_pos hpos
  cases node with
  | function f =>
    obtain ⟨row, rfl, hreads, hids⟩ := ha.function hfill
    exact ⟨.function, .function row, rfl, congrArg (Except.map EntryView.function) (hat.row h0),
      hreads, hids⟩
  | callback c =>
    obtain ⟨row, rfl, hreads, hids⟩ := ha.callback hfill
    exact ⟨.callback, .callback row, rfl, congrArg (Except.map EntryView.callback) (hat.row h0),
      hreads, hids⟩
  | struct s =>
    obtain ⟨view, hview, hreads, hids⟩ := ha.struct hat hpos hfill
    exact ⟨.struct, .struct view, rfl, congrArg (Except.map EntryView.struct) hview,
      hreads, hids⟩
  | boxed s =>
    obtain ⟨view, hview, hreads, hids⟩ := ha.struct hat hpos hfill
    exact ⟨.boxed, .struct view, rfl, congrArg (Except.map EntryView.struct) hview,
      hreads, hids⟩
  | union u =>
    obtain ⟨view, hview, hreads, hids⟩ := ha.union hat hpos hfill
    exact ⟨.union, .union view, rfl, congrArg (Except.map EntryView.union) hview,
      hreads, hids⟩
  | enum e =>
    obtain ⟨view, hview, hreads, hids⟩ := ha.enum hat hpos hfill
    exact ⟨.enum, .enum view, rfl, congrArg (Except.map EntryView.enum) hview,
      hreads, hids⟩
  | flags e =>
    obtain ⟨view, hview, hreads, hids⟩ := ha.enum hat hpos hfill
    exact ⟨.flags, .enum view, rfl, congrArg (Except.map EntryView.enum) hview,
      hreads, hids⟩
  | object o =>
    obtain ⟨view, hview, hreads, hids⟩ := ha.object hat hpos halign hfill
    exact ⟨.object, .object view, rfl, congrArg (Except.map EntryView.object) hview,
      hreads, hids⟩
  | interface i =>
    obtain ⟨view, hview, hreads, hids⟩ := ha.interface hat hpos halign hfill
    exact ⟨.interface, .interface view, rfl, congrArg (Except.map EntryView.interface) hview,
      hreads, hids⟩
  | errorDomain e =>
    obtain ⟨row, rfl, hreads, hids⟩ := ha.errorDomain hfill
    exact ⟨.errorDomain, .errorDomain row, rfl,
      congrArg (Except.map EntryView.errorDomain) (hat.row h0), hreads, hids⟩
  | constant c =>
    obtain ⟨row, rfl, hreads, hids⟩ := ha.constant hfill
    exact ⟨.constant, .constant row, rfl, congrArg (Except.map EntryView.constant) (hat.row h0),
      hreads, hids⟩
  | _ => exact absurd hfill not_fills_reject

end Assembled

end Typelib
