import Typelib.Proofs.Body.Fill
import Typelib.Proofs.Build.Promise
import Typelib.Proofs.Symbols.Consults

/-!
# Keeping account of promises

Each identity is promised to something when it is handed out. An account of these promises goes
along with a build; what a cell leaves in a body is judged by any later account and draft, so
nothing has to be said again when they grow.

* `Accounts`: the queues and the bodies of types agree with what was promised;
* `Wrote`: what a step that writes to a body leaves;
* `Build.wrote_cells`: cells leave pieces that become the bytes of the cells.
-/

namespace Typelib

theorem getElem?_of_prefix {α : Type} {xs ys : List α} (h : xs <+: ys) {i : Nat} {x : α}
    (hx : xs[i]? = some x) : ys[i]? = some x := by
  obtain ⟨zs, rfl⟩ := h
  rwa [List.getElem?_append_left (List.getElem?_eq_some_iff.1 hx).1]

/-- What was promised for each identity agrees with the queues and with the bodies of types. -/
structure Accounts (works : List Work) (d : Draft) : Prop where
  symbols : d.symbols.Sound
  /-- No identity had to be handed out twice. -/
  few : d.symbols.handedOut < UInt32.size
  length : works.length = d.symbols.handedOut
  shared : ∀ (text : String) (id : BodyId), d.types[text]? = some id →
    ∃ type, works[id.toNat]? = some (.type type) ∧ d.Knows type ∧ type.tag.isComplex = true ∧
      (type.shape d.symbols.slotOf).text = text
  types : ∀ item ∈ d.queues.types.toList, works[item.2.toNat]? = some (.type item.1)
  signatures : ∀ item ∈ d.queues.signatures.toList, works[item.2.toNat]? = some (.signature item.1)
  constants : ∀ item ∈ d.queues.constants.toList, works[item.2.toNat]? = some (.constant item.1)

/-- A step wrote pieces to a body, and promised bodies in the order of their identities. -/
structure Wrote (works : List Work) (d : Draft) (works' : List Work) (d' : Draft)
    (ps : List Piece) (ids : List BodyId) : Prop where
  accounts : Accounts works' d'
  works : works <+: works'
  toExtends : d.Extends d'
  body : d'.body = d.body.puts ps
  ids_mem : ∀ id ∈ ids, d.symbols.handedOut ≤ id.toNat ∧ id.toNat < d'.symbols.handedOut
  increasing : ids.Pairwise (· < ·)

variable {works works' works'' : List Work} {d d' d'' : Draft} {ps qs : List Piece}
  {ids ids' : List BodyId}

theorem Wrote.trans (h : Wrote works d works' d' ps ids)
    (h' : Wrote works' d' works'' d'' qs ids') :
    Wrote works d works'' d'' (ps ++ qs) (ids ++ ids') where
  accounts := h'.accounts
  works := h.works.trans h'.works
  toExtends := h.toExtends.trans h'.toExtends
  body := by rw [h'.body, h.body, Section.puts_append]
  ids_mem id hid := by
    have hle := h.toExtends.symbols.handedOut
    have hle' := h'.toExtends.symbols.handedOut
    rcases List.mem_append.1 hid with hid | hid
    · exact (h.ids_mem id hid).imp_right fun hlt => Nat.lt_of_lt_of_le hlt hle'
    · exact (h'.ids_mem id hid).imp_left (Nat.le_trans hle)
  increasing := by
    rw [List.pairwise_append]
    refine ⟨h.increasing, h'.increasing, fun id hid id' hid' => ?_⟩
    exact UInt32.lt_iff_toNat_lt.2
      (Nat.lt_of_lt_of_le (h.ids_mem id hid).2 (h'.ids_mem id' hid').1)

/-! ### Promises -/

theorem Accounts.names (h : Accounts works d) (hn : d.Names d') : Accounts works d' where
  symbols := hn.sound h.symbols
  few := hn.handedOut ▸ h.few
  length := h.length.trans hn.handedOut.symm
  shared text id ht := by
    rw [hn.types] at ht
    obtain ⟨type, hw, hk, hc, hs⟩ := h.shared text id ht
    exact ⟨type, hw, hn.toExtends.knows hk, hc, hn.toExtends.shape hk ▸ hs⟩
  types := by
    rw [hn.queues]
    exact h.types
  signatures := by
    rw [hn.queues]
    exact h.signatures
  constants := by
    rw [hn.queues]
    exact h.constants

/-- The next identity is promised to something. -/
theorem Accounts.promised (h : Accounts works d) (work : Work) :
    (works ++ [work])[d.symbols.nextId.toNat]? = some work := by
  rw [SymbolTable.toNat_nextId h.few, ← h.length, List.getElem?_concat_length]

/-- The next identity is promised: what waits was promised before or now, and so were the bodies of
types. -/
theorem Accounts.promise (h : Accounts works d) {work : Work}
    (hfew : d.symbols.handedOut + 1 < UInt32.size) (hx : d.Extends d')
    (hs : d'.symbols = d.symbols.allocate.2)
    (hshared : ∀ (text : String) (id : BodyId), d'.types[text]? = some id →
      d.types[text]? = some id ∨ id = d.symbols.nextId ∧ ∃ type, work = .type type ∧
        d'.Knows type ∧ type.tag.isComplex = true ∧ (type.shape d'.symbols.slotOf).text = text)
    (htypes : ∀ item ∈ d'.queues.types.toList, item ∈ d.queues.types.toList ∨
      item.2 = d.symbols.nextId ∧ work = .type item.1)
    (hsignatures : ∀ item ∈ d'.queues.signatures.toList, item ∈ d.queues.signatures.toList ∨
      item.2 = d.symbols.nextId ∧ work = .signature item.1)
    (hconstants : ∀ item ∈ d'.queues.constants.toList, item ∈ d.queues.constants.toList ∨
      item.2 = d.symbols.nextId ∧ work = .constant item.1) :
    Accounts (works ++ [work]) d' := by
  have kept : ∀ {id : BodyId} {w : Work}, works[id.toNat]? = some w →
      (works ++ [work])[id.toNat]? = some w :=
    fun hw => getElem?_of_prefix (List.prefix_append _ _) hw
  have promised : ∀ {id : BodyId} {w : Work}, id = d.symbols.nextId → work = w →
      (works ++ [work])[id.toNat]? = some w := by
    rintro id w rfl rfl
    exact h.promised work
  refine ⟨hs ▸ h.symbols.allocate, hs ▸ hfew, ?_, fun text id ht => ?_, fun item hm => ?_,
    fun item hm => ?_, fun item hm => ?_⟩
  · simp [h.length, hs, SymbolTable.allocate]
  · obtain hold | ⟨hid, type, hw, hk, hc, htext⟩ := hshared text id ht
    · obtain ⟨type, hw, hk, hc, htext⟩ := h.shared text id hold
      exact ⟨type, kept hw, hx.knows hk, hc, hx.shape hk ▸ htext⟩
    · exact ⟨type, promised hid hw, hk, hc, htext⟩
  · obtain hold | ⟨hid, hw⟩ := htypes item hm
    · exact kept (h.types item hold)
    · exact promised hid hw
  · obtain hold | ⟨hid, hw⟩ := hsignatures item hm
    · exact kept (h.signatures item hold)
    · exact promised hid hw
  · obtain hold | ⟨hid, hw⟩ := hconstants item hm
    · exact kept (h.constants item hold)
    · exact promised hid hw

theorem Accounts.promiseType (h : Accounts works d) (hfew : d.symbols.handedOut + 1 < UInt32.size)
    {type : Ty} (hk : d.Knows type)
    (hc : type.tag.isComplex = true)
    (hnone : d.types[(type.shape d.symbols.slotOf).text]? = none) :
    Accounts (works ++ [.type type])
      (d.promiseType type (type.shape d.symbols.slotOf).text) := by
  have hx := d.extends_promiseType type hnone
  refine h.promise hfew hx rfl (fun text id ht => ?_) (fun item hm => ?_) (fun _ => .inl)
    fun _ => .inl
  · simp only [Draft.promiseType, Std.TreeMap.getElem?_insert, Std.compare_eq_iff_eq] at ht
    by_cases he : (type.shape d.symbols.slotOf).text = text
    · rw [if_pos he] at ht
      exact .inr ⟨(Option.some.inj ht).symm, type, rfl, hx.knows hk, hc, hx.shape hk ▸ he⟩
    · rw [if_neg he] at ht
      exact .inl ht
  · obtain hold | rfl := Fifo.mem_push hm
    · exact .inl hold
    · exact .inr ⟨rfl, rfl⟩

theorem Accounts.promiseSignature (h : Accounts works d)
    (hfew : d.symbols.handedOut + 1 < UInt32.size) (s : Signature) :
    Accounts (works ++ [.signature s]) (d.promiseSignature s) := by
  refine h.promise hfew (d.extends_promiseSignature s) rfl (fun _ _ => .inl) (fun _ => .inl)
    (fun item hm => ?_) fun _ => .inl
  obtain hold | rfl := Fifo.mem_push hm
  · exact .inl hold
  · exact .inr ⟨rfl, rfl⟩

theorem Accounts.promiseConstant (h : Accounts works d)
    (hfew : d.symbols.handedOut + 1 < UInt32.size) (c : ConstantDecl) :
    Accounts (works ++ [.constant c]) (d.promiseConstant c) := by
  refine h.promise hfew (d.extends_promiseConstant c) rfl (fun _ _ => .inl) (fun _ => .inl)
    (fun _ => .inl) fun item hm => ?_
  obtain hold | rfl := Fifo.mem_push hm
  · exact .inl hold
  · exact .inr ⟨rfl, rfl⟩

/-- Bodies are written and nothing else changes. -/
theorem Accounts.write (h : Accounts works d) (body : Section) : Accounts works { d with body } :=
  ⟨h.symbols, h.few, h.length, h.shared, h.types, h.signatures, h.constants⟩

/-! ### Types -/

/-- The pieces of a type where it is used. -/
def TypeUse.pieces (use : TypeUse) : List Piece :=
  match use.body? with
  | none => [.bytes (TypeRef.record.encode use.ref)]
  | some id => [.bytes ((TypeRef.record.encode use.ref).take 4), .reference (.body id)]

theorem TypeUse.encode_ref_complex (tag : TypeTag) (pointer : Bool) (id : BodyId)
    (offset : UInt32) :
    TypeRef.record.encode { (complex tag pointer id).ref with offset } =
      (TypeRef.record.encode (complex tag pointer id).ref).take 4 ++ leBytes 4 offset.toNat := rfl

theorem Section.typeRef_use (s : Section) (use : TypeUse) :
    s.typeRef use.ref use.body? = s.puts use.pieces := by
  cases use with
  | scalar | symbol => rfl
  | complex tag pointer id =>
    obtain ⟨front, hfront⟩ : ∃ front, front = (TypeRef.record.encode
        (TypeUse.complex tag pointer id).ref).take 4 := ⟨_, rfl⟩
    have henc : TypeRef.record.encode (TypeUse.complex tag pointer id).ref =
        front ++ leBytes 4 0 := hfront ▸ rfl
    have hlen : front.length = 4 := hfront ▸ rfl
    have hbytes : s.bytes ++ (front ++ leBytes 4 0) = s.bytes ++ front ++ leBytes 4 0 := by
      apply Array.toList_inj.1
      simp
    have hsize : (s.bytes ++ front).size = s.bytes.size + 4 := by
      rw [← Array.length_toList]
      simp [hlen]
    have hpieces : (TypeUse.complex tag pointer id).pieces =
        [.bytes front, .reference (.body id)] := hfront ▸ rfl
    simp only [hpieces, Section.typeRef, TypeUse.body?, Section.puts, List.foldl_cons,
      List.foldl_nil, Section.put, Section.append, Section.reference, Section.size, henc, hbytes,
      hsize]

namespace Build

/-- The use of a complex type is stored by its pieces: whoever got the body, later drafts find it by
the shape. -/
theorem complex_stores {type : Ty} {id : BodyId} {F : Draft} (hc : type.tag.isComplex = true)
    (hk : d.Knows type) (hid : d.types[(type.shape d.symbols.slotOf).text]? = some id)
    (hF : d.Extends F) :
    F.Stores type ∧ (TypeUse.complex type.tag type.pointer id).pieces.flatMap
      (Piece.fill F.offset) = TypeRef.record.encode (F.typeRef type) := by
  have hidF : F.types[(type.shape F.symbols.slotOf).text]? = some id := by
    rw [hF.shape hk]
    exact hF.types _ _ hid
  have hshared : F.sharedBody type = id := by rw [Draft.sharedBody, hidF]; rfl
  refine ⟨⟨hF.knows hk, fun _ => hshared ▸ hidF⟩, ?_⟩
  have hstored : F.typeRef type =
      { (TypeUse.complex type.tag type.pointer id).ref with offset := F.bodyOffset id } := by
    rw [← hshared]
    cases type with
    | scalar | interface => cases hc
    | _ => rfl
  rw [hstored, TypeUse.encode_ref_complex]
  simp [TypeUse.pieces, TypeUse.body?, Piece.fill, Draft.bodyOffset]

/-- So is the use of any other type. -/
theorem simple_stores {type : Ty} {use : TypeUse} (ha : Accounts works d)
    (hc : type.tag.isComplex = false) (h : (typeUse type).Yields d use d') {F : Draft}
    (hF : d'.Extends F) :
    F.Stores type ∧
      use.pieces.flatMap (Piece.fill F.offset) = TypeRef.record.encode (F.typeRef type) := by
  have simple : F.Knows type → F.Stores type :=
    fun hk => ⟨hk, fun ht => absurd ht (by simp [hc])⟩
  cases type with
  | scalar kind p =>
    obtain ⟨rfl, rfl⟩ := yields_pure.1 h
    exact ⟨simple (by simp [Draft.Knows, Ty.names]), List.flatMap_singleton _ _⟩
  | interface name p =>
    obtain ⟨ref, d₁, href, hpure⟩ := yields_bind.1 h
    obtain ⟨rfl, rfl⟩ := yields_pure.1 hpure
    obtain ⟨rfl, hsettled⟩ := href.settled ha.symbols
    refine ⟨simple (by simpa [Draft.Knows, Ty.names] using hF.settled hsettled), ?_⟩
    rw [Draft.typeRef, hF.symbols.slotOf hsettled.ne_none]
    exact List.flatMap_singleton _ _
  | array | list | slist | hash | error => cases hc

/-- A type is stored by the pieces of its use. -/
theorem typeUse_stores {type : Ty} {use : TypeUse} (ha : Accounts works d)
    (h : (typeUse type).Yields d use d') (hfew : d'.symbols.handedOut < UInt32.size) :
    ∃ works', works <+: works' ∧ Accounts works' d' ∧ d.Extends d' ∧ d'.body = d.body ∧
      ∀ F, d'.Extends F → F.Stores type ∧
        use.pieces.flatMap (Piece.fill F.offset) = TypeRef.record.encode (F.typeRef type) := by
  by_cases hc : type.tag.isComplex
  · rw [typeUse_of_complex hc] at h
    obtain ⟨id, hbody, rfl⟩ := yields_map.1 h
    obtain ⟨d₁, hd₁, ⟨e, he⟩ | ⟨s, hshape, hrun⟩⟩ := typeBody_outcome type d
    · rw [Yields, he] at hbody
      cases hbody
    have ha₁ := ha.names hd₁
    obtain ⟨rfl, hk⟩ := yields_shape ha.symbols hshape
    obtain ⟨id', hid, hy⟩ | ⟨hnone, hy⟩ := hrun <;> rw [Yields, hy] at hbody <;> cases hbody
    · -- the body of an equivalent type
      exact ⟨works, List.prefix_refl _, ha₁, hd₁.toExtends, hd₁.body,
        fun F => complex_stores hc hk hid⟩
    · -- a body of its own
      have hx := d₁.extends_promiseType type hnone
      refine ⟨_, List.prefix_append _ _, ha₁.promiseType hfew hk hc hnone, hd₁.toExtends.trans hx,
        hd₁.body, fun F => complex_stores hc (hx.knows hk) ?_⟩
      rw [hx.shape hk]
      simp [Draft.promiseType]
  · rw [Bool.not_eq_true] at hc
    obtain ⟨hwithin, -⟩ := typeUse_of_not_complex hc
    have hn := hwithin.yields h
    exact ⟨works, List.prefix_refl _, ha.names hn, hn.toExtends, hn.body,
      fun F => simple_stores ha hc h⟩

/-! ### Cells -/

/-- Names are resolved or strings are added, and then pieces are written. -/
theorem wrote_puts (ha : Accounts works d) {d₁ : Draft} (hn : d.Names d₁) (ps : List Piece) :
    Wrote works d works { d₁ with body := d₁.body.puts ps } ps [] where
  accounts := (ha.names hn).write _
  works := List.prefix_refl _
  toExtends := hn.toExtends.trans (.write _ _)
  body := by rw [hn.body]
  ids_mem := by simp
  increasing := .nil

/-- A string is added and referred to. -/
theorem intern_stores {s : String} {offset : UInt32} (h : (intern s).Yields d offset d') {F : Draft}
    (hF : d'.Extends F) :
    (F.symbols.pool.get? s).isSome ∧
      [Piece.reference (.string offset)].flatMap (Piece.fill F.offset) =
        leBytes 4 (F.stringOffset s).toNat := by
  obtain ⟨rfl, rfl⟩ := yields_intern.1 h
  have hget := hF.symbols.pool _ _ (StringPool.get?_intern d.symbols.pool s)
  refine ⟨by rw [hget]; rfl, ?_⟩
  simp only [Draft.stringOffset, hget, Option.getD_some, List.flatMap_singleton]
  rfl

theorem fill_bytes (F : Draft) (bs : List UInt8) :
    [Piece.bytes bs].flatMap (Piece.fill F.offset) = bs := List.flatMap_singleton _ _

/-- A body is promised and referred to. -/
theorem wrote_promise {work : Work} {d₁ : Draft} (ha : Accounts works d)
    (ha₁ : Accounts (works ++ [work]) d₁) (hx : d.Extends d₁)
    (hlt : d.symbols.handedOut < d₁.symbols.handedOut) :
    Wrote works d (works ++ [work])
      { d₁ with body := d.body.puts [.reference (.body d.symbols.nextId)] }
      [.reference (.body d.symbols.nextId)] [d.symbols.nextId] where
  accounts := ha₁.write _
  works := List.prefix_append _ _
  toExtends := hx.trans (.write _ _)
  body := rfl
  ids_mem id hid := by
    rw [List.mem_singleton.1 hid, SymbolTable.toNat_nextId ha.few]
    exact ⟨Nat.le_refl _, hlt⟩
  increasing := List.pairwise_singleton _ _

/-- The row of an error type, with the slots of its domains, and filler up to the next boundary. -/
theorem wrote_errorType {flags : UInt8} {names : List String} (ha : Accounts works d)
    (h : (cell (.errorType flags names)).Yields d () d') :
    ∃ ps, Wrote works d works d' ps [] ∧ ∀ W F, d'.Extends F →
      (Cell.errorType flags names).Fills F W d.body.size (ps.flatMap (Piece.fill F.offset)) [] := by
  obtain ⟨refs, d₁, hrefs, hput⟩ := yields_bind.1 h
  have hn := (within_domains names).yields hrefs
  obtain ⟨rfl, hall⟩ := yields_domains ha.symbols hrefs
  split at hput
  · exact absurd hput not_yields_throw
  next hmax =>
    obtain ⟨_, d₂, happend, halign⟩ := yields_bind.1 hput
    obtain rfl := yields_onBody.1 happend
    obtain rfl := yields_onBody.1 halign
    obtain ⟨row, hrow⟩ : ∃ row, row = TypeTag.error.code :: flags ::
        (leBytes 2 (d₁.domainRefs names).length ++ leBytes 4 0 ++
          (d₁.domainRefs names).flatMap fun ref => leBytes 2 ref.raw.toNat) := ⟨_, rfl⟩
    have hsize : (d₁.body.append row).size = d.body.size + row.length := by
      rw [hn.body, Section.append, Section.size, ← Array.length_toList]
      simp [Section.size]
    have hputs : (d₁.body.append row).align =
        d₁.body.puts [.bytes row, .bytes (padding (d.body.size + row.length))] := by
      rw [← hsize]
      rfl
    refine ⟨[.bytes row, .bytes (padding (d.body.size + row.length))], ?_, fun W F hF => ?_⟩
    · have hw := wrote_puts ha hn [.bytes row, .bytes (padding (d.body.size + row.length))]
      rw [← hputs] at hw
      subst hrow
      exact hw
    · have hx : d₁.Extends F := (Draft.Extends.write _ _).trans hF
      -- settled names keep their slots, so the slots that were written are the final ones
      have hrefs : F.domainRefs names = d₁.domainRefs names := by
        rw [Draft.domainRefs, Draft.domainRefs]
        exact congrArg DirRef.sorted
          (List.map_congr_left fun name hn => hx.symbols.slotOf (hall name hn).ne_none)
      refine ⟨fun name hn => hx.settled (hall name hn), ?_, ⟨row, ?_, ?_⟩, rfl⟩
      · rw [hrefs]
        exact Nat.le_of_not_lt hmax
      · rw [hrefs, hrow]
      · simp [Piece.fill]

/-- What a cell wrote becomes the bytes of the cell. -/
theorem wrote_cell {c : Cell} (h : (cell c).Yields d () d') (ha : Accounts works d)
    (hfew : d'.symbols.handedOut < UInt32.size) :
    ∃ works' ps ids, Wrote works d works' d' ps ids ∧ ∀ W F, works' <+: W → d'.Extends F →
      c.Fills F W d.body.size (ps.flatMap (Piece.fill F.offset)) ids := by
  -- most cells promise nothing, and write after at most a few names
  have plain : ∀ {d₁ : Draft} (ps : List Piece), d.Names d₁ →
      (onBody fun s => s.puts ps).Yields d₁ () d' →
      (∀ W F, d₁.Extends F →
        c.Fills F W d.body.size (ps.flatMap (Piece.fill F.offset)) []) →
      ∃ works' ps ids, Wrote works d works' d' ps ids ∧ ∀ W F, works' <+: W → d'.Extends F →
        c.Fills F W d.body.size (ps.flatMap (Piece.fill F.offset)) ids := by
    intro d₁ ps hn hput hfill
    obtain rfl := yields_onBody.1 hput
    exact ⟨works, ps, [], wrote_puts ha hn ps, fun W F _ hF =>
      hfill W F ((Draft.Extends.write _ _).trans hF)⟩
  cases c with
  | byte n => exact plain [.bytes [n]] (.refl d) h fun _ F _ => ⟨fill_bytes F _, rfl⟩
  | word16 n =>
    exact plain [.bytes (leBytes 2 n.toNat)] (.refl d) h fun _ F _ => ⟨fill_bytes F _, rfl⟩
  | word32 n =>
    exact plain [.bytes (leBytes 4 n.toNat)] (.refl d) h fun _ F _ => ⟨fill_bytes F _, rfl⟩
  | typeRef ref =>
    exact plain [.bytes (TypeRef.record.encode ref)] (.refl d) h fun _ F _ => ⟨fill_bytes F _, rfl⟩
  | raw bytes => exact plain [.bytes bytes] (.refl d) h fun _ F _ => ⟨fill_bytes F _, rfl⟩
  | align =>
    obtain rfl := yields_onBody.1 h
    exact ⟨works, [.bytes (padding d.body.size)], [],
      wrote_puts ha (.refl d) [.bytes (padding d.body.size)],
      fun _ F _ _ => ⟨fill_bytes F _, rfl⟩⟩
  | name s =>
    obtain ⟨offset, d₁, hs, hput⟩ := yields_bind.1 h
    refine plain [.reference (.string offset)] ((within_intern s).yields hs) hput fun W F hF => ?_
    obtain ⟨hsome, hbytes⟩ := intern_stores hs hF
    exact ⟨hsome, hbytes, rfl⟩
  | optName s =>
    cases s with
    | none => exact plain [.bytes (leBytes 4 0)] (.refl d) h fun _ F _ => ⟨fill_bytes F _, rfl⟩
    | some s =>
      obtain ⟨_, d₁, hopt, hput⟩ := yields_bind.1 h
      obtain ⟨offset, _, hs, hpure⟩ := yields_bind.1 hopt
      obtain ⟨rfl, rfl⟩ := yields_pure.1 hpure
      refine plain [.reference (.string offset)] ((within_intern s).yields hs) hput fun W F hF => ?_
      obtain ⟨hsome, hbytes⟩ := intern_stores hs hF
      exact ⟨hsome, hbytes, rfl⟩
  | slot name =>
    obtain ⟨ref, d₁, href, hput⟩ := yields_bind.1 h
    obtain ⟨rfl, hsettled⟩ := href.settled ha.symbols
    refine plain [.bytes (leBytes 2 (d₁.symbols.slotOf name).raw.toNat)]
      ((within_resolve name).yields href) hput fun W F hF => ⟨hF.settled hsettled, ?_, rfl⟩
    rw [fill_bytes, hF.symbols.slotOf hsettled.ne_none]
  | type type =>
    obtain ⟨use, d₁, huse, hput⟩ := yields_bind.1 h
    obtain rfl := yields_onBody.1 hput
    obtain ⟨works', hw, ha', hx, hb, hfill⟩ := typeUse_stores ha huse hfew
    refine ⟨works', use.pieces, [], ⟨ha'.write _, hw, hx.trans (.write _ _),
      by rw [Section.typeRef_use, hb], by simp, .nil⟩, fun W F _ hF => ?_⟩
    obtain ⟨hstores, hbytes⟩ := hfill F ((Draft.Extends.write _ _).trans hF)
    exact ⟨hstores, hbytes, rfl⟩
  | signature signature =>
    obtain rfl : { d.promiseSignature signature with
        body := d.body.puts [.reference (.body d.symbols.nextId)] } = d' := h.after
    exact ⟨_, _, _, wrote_promise ha (ha.promiseSignature hfew signature)
      (d.extends_promiseSignature _) (Nat.lt_succ_self _), fun W F hW _ =>
        ⟨_, getElem?_of_prefix hW (ha.promised _), List.flatMap_singleton _ _, rfl⟩⟩
  | value constant =>
    obtain rfl : { d.promiseConstant constant with
        body := d.body.puts [.reference (.body d.symbols.nextId)] } = d' := h.after
    exact ⟨_, _, _, wrote_promise ha (ha.promiseConstant hfew constant)
      (d.extends_promiseConstant _) (Nat.lt_succ_self _), fun W F hW _ =>
        ⟨_, getElem?_of_prefix hW (ha.promised _), List.flatMap_singleton _ _, rfl⟩⟩
  | errorType flags names =>
    obtain ⟨ps, hw, hfill⟩ := wrote_errorType ha h
    exact ⟨works, ps, [], hw, fun W F _ => hfill W F⟩
  | reject e => exact absurd h not_yields_throw

/-- What cells wrote becomes the bytes of the cells. -/
theorem wrote_cells {cs : List Cell} : ∀ {works : List Work} {d : Draft}, Accounts works d →
    (cells cs).Yields d () d' → d'.symbols.handedOut < UInt32.size →
    ∃ works' ps ids, Wrote works d works' d' ps ids ∧ ∀ W F, works' <+: W → d'.Extends F →
      Fills F W d.body.size cs (ps.flatMap (Piece.fill F.offset)) ids := by
  induction cs with
  | nil =>
    intro works d ha h _
    obtain ⟨-, rfl⟩ := yields_pure.1 h
    exact ⟨works, [], [], wrote_puts ha (.refl d) [], fun _ _ _ _ => ⟨rfl, rfl⟩⟩
  | cons c cs ih =>
    intro works d ha h hfew
    obtain ⟨_, d₁, hc, hcs⟩ := yields_bind.1 h
    have hfew₁ := Nat.lt_of_le_of_lt ((consults_cells cs).yields hcs).handedOut hfew
    obtain ⟨works₁, ps, ids, hw, hfill⟩ := wrote_cell hc ha hfew₁
    obtain ⟨works', qs, ids', hw', hfill'⟩ := ih hw.accounts hcs hfew
    refine ⟨works', ps ++ qs, ids ++ ids', hw.trans hw', fun W F hW hF => ?_⟩
    refine ⟨_, _, _, _, hfill W F (hw'.works.trans hW) (hw'.toExtends.trans hF), ?_,
      List.flatMap_append, rfl⟩
    have hsize : d₁.body.size = d.body.size + (ps.flatMap (Piece.fill F.offset)).length := by
      rw [hw.body, Section.size_puts, Piece.length_flatMap_fill]
    rw [← hsize]
    exact hfill' W F hW hF

end Build

end Typelib
