import Typelib.Proofs.Guard.Dump

/-!
# Readers are safe

No byte string brings the reader down. It is loaded or refused, and once it is loaded every question
about it is answered or refused, whatever the question is: the guarded readers, which would crash
where bytes are missing or numbers too large, do what the readers do. So does a dump, unless a type of
the file leads back to itself.

* `GuardedDump.follows_typeName`: with fuel for all chains of types, a type becomes a text;
* `Image.Safe`: no question about a file crashes;
* `load_safe`: no byte string crashes.
-/

namespace Typelib

/-! ### Values -/

/-- The first zero, or else the end, is inside of the bytes, and ends what holds no zero. -/
theorem take_findIdx?_getD (bs : List UInt8) :
    (bs.findIdx? (· == 0)).getD bs.length ≤ bs.length ∧
      bs.take ((bs.findIdx? (· == 0)).getD bs.length) = bs.takeWhile (· != 0) := by
  induction bs with
  | nil => exact ⟨Nat.le_refl _, rfl⟩
  | cons b bs ih =>
    rw [List.findIdx?_cons, List.takeWhile_cons]
    by_cases hb : b = 0
    · simp [hb]
    · have hnext : ((bs.findIdx? (· == 0)).map (· + 1)).getD (b :: bs).length =
          (bs.findIdx? (· == 0)).getD bs.length + 1 := by
        cases bs.findIdx? (· == 0) <;> rfl
      simp only [beq_iff_eq, hb, ↓reduceIte, hnext, bne_iff_ne, ne_eq, not_false_eq_true,
        List.take_succ_cons, ih.2, and_true]
      exact Nat.succ_le_succ ih.1

/-- The value of a constant is cut inside of it. -/
theorem Guarded.follows_valueText (bytes : Bytes) :
    Follows (Guarded.valueText bytes) (.ok (Value.text bytes.toList)) := by
  obtain ⟨stop, hstop⟩ : ∃ stop, stop = (bytes.toList.findIdx? (· == 0)).getD bytes.size := ⟨_, rfl⟩
  have hcut := take_findIdx?_getD bytes.toList
  rw [Array.length_toList, ← hstop] at hcut
  have hlist : (bytes.extract 0 stop).toList = bytes.toList.takeWhile (· != 0) := by
    rw [← hcut.2, Array.toList_extract, List.extract_eq_take_drop]
    simp
  unfold Guarded.valueText
  rw [← hstop, Value.text, ← hlist]
  exact .ok_bind (Guarded.follows_cut (Nat.zero_le _) hcut.1) (.pure _)

theorem Guarded.follows_formatValue (tag : Option TypeTag) (bytes : Bytes) :
    Follows (Guarded.formatValue tag bytes) (.ok (Value.format tag bytes.toList)) := by
  have text := Guarded.follows_valueText bytes
  match tag with
  | none => exact text
  | some tag =>
    cases tag with
    | scalar kind =>
      cases kind with
      | utf8 | filename => exact text.map Text.quoted
      | void => exact text
      | _ => exact .pure _
    | _ => exact text

namespace GuardedDump

variable {d : Dump} (ha : d.img.Accepted)

include ha

/-! ### Types -/

/-- The members of a type stand where an offset leads, since its row is there. -/
theorem follows_behind {α : Type} [Row α] {offset : UInt32} {a : α}
    (h : d.img.row α offset = .ok a) (hwidth : Row.width α = 8) :
    Follows (behind offset) (.ok (offset + 8)) := by
  have hle := Image.le_of_row h
  have hsize := ha.size_lt
  rw [hwidth] at hle
  simp only [UInt32.size] at hsize
  have heq : UInt32.ofNat (offset.toNat + 8) = offset + 8 := by
    rw [UInt32.ofNat_add, UInt32.ofNat_toNat]
    rfl
  rw [← heq]
  exact .ok_bind (Guarded.follows_word (by simp only [Guarded.offsetBits]; omega)) (.pure _)

/-- With fuel for all chains of types, the text of a type does not run out of it. -/
theorem follows_typeName : ∀ (fuel : Nat) {t : TypeRef},
    (∀ us : List TypeRef, us.length = fuel → ¬ List.IsChain d.img.Leads (t :: us)) →
    Follows (typeName d fuel t) (d.typeName fuel t) := by
  intro fuel
  induction fuel with
  | zero => exact fun h => absurd (.singleton _) (h [] rfl)
  | succ fuel ih =>
    intro t h
    have inner : ∀ u, d.img.Leads t u → Follows (typeName d fuel u) (d.typeName fuel u) :=
      fun u hu => ih fun us hlen hchain =>
        h (u :: us) (by rw [List.length_cons, hlen]) (.cons_cons hu hchain)
    rw [typeName, Dump.typeName]
    cases htag : t.tag? with
    | none => exact .pure _
    | some tag =>
      obtain ⟨starred, hstarred⟩ : ∃ starred, starred =
        fun base : String => if t.isPointer then base ++ "*" else base := ⟨_, rfl⟩
      -- a list, slist or hash: its parameters stand behind its row
      have params : tag ∈ [TypeTag.list, .slist, .hash] →
          Follows (do
            let row ← Guarded.row d.img ParamTypeRow t.offset
            let start ← behind t.offset
            let types ← Guarded.rows d.img TypeRef start row.typeCount
            let types ← types.mapM (typeName d fuel)
            pure (starred (tag.name ++ "<" ++ ", ".intercalate types ++ ">")))
          (do
            let row ← d.img.row ParamTypeRow t.offset
            let types ← d.img.rows TypeRef (t.offset + 8) row.typeCount
            let types ← types.mapM (d.typeName fuel)
            pure (starred (tag.name ++ "<" ++ ", ".intercalate types ++ ">"))) := by
        intro hparam
        refine (Guarded.follows_row d.img _).bind fun row hrow => ?_
        refine .ok_bind (follows_behind ha hrow rfl) ?_
        refine (Guarded.follows_rows d.img _ _).bind fun types htypes => ?_
        exact (Follows.mapM fun u hu => inner u (.param htag hparam hrow htypes hu)).bind
          fun _ _ => .pure _
      subst hstarred
      cases tag with
      | scalar | interface => exact .pure _
      | array =>
        exact (Guarded.follows_row d.img _).bind fun row hrow =>
          (inner _ (.element htag hrow)).bind fun _ _ => .pure _
      | error =>
        exact (Guarded.follows_row d.img _).bind fun row hrow =>
          .ok_bind (follows_behind ha hrow rfl)
            ((Guarded.follows_refs d.img _ _).bind fun _ _ => .pure _)
      | list | slist | hash => exact params (by simp)

variable {t : TypeRef} {view : EntryView} {kind : EntryKind} {offset : UInt32}

theorem follows_type (h : d.img.Ends t) : Follows (type d t) (d.type t) := by
  refine follows_typeName ha _ fun us hlen hchain => ?_
  have hle := h.length_le hchain
  omega

/-! ### Callables and members -/

/-- All types of a signature end. -/
def SignatureEnds (img : Image) (offset : UInt32) : Prop :=
  ∀ view, img.signatureView offset = .ok view →
    ∀ t ∈ view.row.returnType :: view.args.map ArgRow.type, img.Ends t

theorem follows_callable {name signature : UInt32} (h : SignatureEnds d.img signature) :
    Follows (callable d name signature) (d.callable name signature) := by
  refine (Guarded.follows_string d.img _).bind fun name _ => ?_
  refine (ha.follows_signatureView _).bind fun view hview => ?_
  have hends := List.forall_mem_cons.1 (h view hview)
  have args : ∀ a ∈ view.args, Follows (arg d a) (d.arg a) := fun a hmem =>
    (Guarded.follows_string d.img _).bind fun _ _ =>
      (follows_type ha (hends.2 _ (List.mem_map_of_mem hmem))).bind fun _ _ => .pure _
  exact (Follows.mapM args).bind fun _ _ => (follows_type ha hends.1).bind fun _ _ => .pure _

theorem follows_function {label : String} {f : FunctionRow}
    (h : SignatureEnds d.img f.signature) : Follows (function d label f) (d.function label f) :=
  (follows_callable ha h).bind fun _ _ => .pure _

theorem follows_signal {s : SignalRow} (h : SignatureEnds d.img s.signature) :
    Follows (signal d s) (d.signal s) := (follows_callable ha h).bind fun _ _ => .pure _

theorem follows_vfunc {v : VFuncRow} (h : SignatureEnds d.img v.signature) :
    Follows (vfunc d v) (d.vfunc v) := (follows_callable ha h).bind fun _ _ => .pure _

theorem follows_field {f : FieldRow} (h : d.img.Ends f.type) : Follows (field d f) (d.field f) :=
  (Guarded.follows_string d.img _).bind fun _ _ => (follows_type ha h).bind fun _ _ => .pure _

theorem follows_property {p : PropertyRow} (h : d.img.Ends p.type) :
    Follows (property d p) (d.property p) :=
  (Guarded.follows_string d.img _).bind fun _ _ => (follows_type ha h).bind fun _ _ => .pure _

theorem follows_constant {c : ConstantRow} (h : d.img.Ends c.type) :
    Follows (constant d c) (d.constant c) :=
  (Guarded.follows_constantValue d.img c).bind fun bytes _ =>
    .ok_bind (Guarded.follows_formatValue _ bytes) <|
      (Guarded.follows_string d.img _).bind fun _ _ => (follows_type ha h).bind fun _ _ => .pure _

/-! Members of one kind, one after another. -/

theorem follows_fields {fs : List FieldRow} (h : ∀ t ∈ fs.map FieldRow.type, d.img.Ends t) :
    Follows (fs.mapM (field d)) (fs.mapM d.field) :=
  .mapM fun _ hf => follows_field ha (h _ (List.mem_map_of_mem hf))

theorem follows_properties {ps : List PropertyRow}
    (h : ∀ t ∈ ps.map PropertyRow.type, d.img.Ends t) :
    Follows (ps.mapM (property d)) (ps.mapM d.property) :=
  .mapM fun _ hp => follows_property ha (h _ (List.mem_map_of_mem hp))

theorem follows_methods {ms : List FunctionRow}
    (h : ∀ o ∈ ms.map FunctionRow.signature, SignatureEnds d.img o) :
    Follows (ms.mapM (function d "method")) (ms.mapM d.method) :=
  .mapM fun _ hm => follows_function ha (h _ (List.mem_map_of_mem hm))

theorem follows_signals {ss : List SignalRow}
    (h : ∀ o ∈ ss.map SignalRow.signature, SignatureEnds d.img o) :
    Follows (ss.mapM (signal d)) (ss.mapM d.signal) :=
  .mapM fun _ hs => follows_signal ha (h _ (List.mem_map_of_mem hs))

theorem follows_vfuncs {vs : List VFuncRow}
    (h : ∀ o ∈ vs.map VFuncRow.signature, SignatureEnds d.img o) :
    Follows (vs.mapM (vfunc d)) (vs.mapM d.vfunc) :=
  .mapM fun _ hv => follows_vfunc ha (h _ (List.mem_map_of_mem hv))

theorem follows_constants {cs : List ConstantRow} (h : ∀ c ∈ cs, d.img.Ends c.type) :
    Follows (cs.mapM (constant d)) (cs.mapM d.constant) :=
  .mapM fun c hc => follows_constant ha (h c hc)

omit ha in
theorem follows_value (v : ValueRow) : Follows (value d v) (d.value v) :=
  (Guarded.follows_string d.img _).bind fun _ _ => .pure _

omit ha in
theorem follows_gtype (head : RegisteredHead) : Follows (gtype d head) (d.gtype head) := by
  refine (Guarded.follows_optString d.img _).bind fun name _ => ?_
  cases name with
  | none => exact .pure _
  | some name =>
    refine (Guarded.follows_optString d.img _).bind fun init _ => ?_
    cases init <;> exact .pure _

/-! ### Entries -/

omit ha in
theorem follows_groups {lines' : List (Guarded (List String))}
    {lines : List (Except ReadError (List String))} (h : List.Forall₂ Follows lines' lines) :
    Follows (groups lines') (Dump.groups lines) := by
  have hall : Follows (lines'.mapM id) (lines.mapM id) := by
    induction h with
    | nil => exact .pure []
    | cons hx _ ih =>
      simp only [List.mapM_cons]
      exact hx.bind fun _ _ => ih.bind fun _ _ => .pure _
  exact hall.bind fun _ _ => .pure _

/-- An entry becomes lines if all its types end. -/
theorem follows_entry (h : ∀ view, d.img.view offset kind = .ok view →
      ∀ t, d.img.UsedBy view t → d.img.Ends t) :
    Follows (entry d kind offset) (d.entry kind offset) := by
  -- what is known of the types of an entry, once it is read
  have member {view : EntryView} (hview : d.img.view offset kind = .ok view) :
      ∀ t ∈ view.memberTypes, d.img.Ends t := fun t ht => h view hview t (.inl ht)
  have const {view : EntryView} (hview : d.img.view offset kind = .ok view) :
      ∀ c ∈ view.constants, d.img.Ends c.type :=
    fun c hc => h view hview _ (.inr (.inl (List.mem_map_of_mem hc)))
  have sig {view : EntryView} (hview : d.img.view offset kind = .ok view) :
      ∀ o ∈ view.signatures, SignatureEnds d.img o :=
    fun o ho s hs t ht => h view hview t (.inr (.inr ⟨o, ho, s, hs, ht⟩))
  cases kind with
  | invalid => exact .pure _
  | function =>
    refine (Guarded.follows_row d.img _).bind fun row hrow => ?_
    have hview : d.img.view offset .function = .ok (.function row) := by rw [Image.view, hrow]; rfl
    refine (Guarded.follows_string d.img _).bind fun _ _ => ?_
    exact (follows_function ha (sig hview _ (by simp [EntryView.signatures]))).bind
      fun _ _ => .pure _
  | callback =>
    refine (Guarded.follows_row d.img _).bind fun row hrow => ?_
    have hview : d.img.view offset .callback = .ok (.callback row) := by rw [Image.view, hrow]; rfl
    exact (follows_callable ha (sig hview _ (by simp [EntryView.signatures]))).bind
      fun _ _ => .pure _
  | enum | flags =>
    refine (ha.follows_enumView _).bind fun v _ => follows_groups ?_
    exact .cons (follows_gtype _) (.cons (.mapM fun v _ => follows_value v) .nil)
  | struct =>
    refine (ha.follows_structView _).bind fun v hv => follows_groups ?_
    have hview : d.img.view offset .struct = .ok (.struct v) := by rw [Image.view, hv]; rfl
    exact .cons (follows_gtype _) <| .cons (follows_fields ha (member hview)) <|
      .cons (follows_methods ha (sig hview)) .nil
  | boxed =>
    refine (ha.follows_structView _).bind fun v hv => follows_groups ?_
    have hview : d.img.view offset .boxed = .ok (.struct v) := by rw [Image.view, hv]; rfl
    exact .cons (follows_gtype _) <| .cons (follows_fields ha (member hview)) <|
      .cons (follows_methods ha (sig hview)) .nil
  | union =>
    refine (ha.follows_unionView _).bind fun v hv => follows_groups ?_
    have hview : d.img.view offset .union = .ok (.union v) := by rw [Image.view, hv]; rfl
    have hmember := member hview
    simp only [EntryView.memberTypes, List.forall_mem_append] at hmember
    refine .cons (follows_gtype _) <| .cons (follows_fields ha hmember.2) <|
      .cons (follows_methods ha (sig hview)) <| .cons (.ite (fun hbit => ?_) fun _ => .pure _) <|
        .cons (follows_constants ha (const hview)) .nil
    rw [if_pos hbit] at hmember
    exact (follows_type ha (hmember.1 _ (List.mem_singleton_self _))).bind fun _ _ => .pure _
  | object =>
    refine (ha.follows_objectView _).bind fun v hv => follows_groups ?_
    have hview : d.img.view offset .object = .ok (.object v) := by rw [Image.view, hv]; rfl
    have hmember := member hview
    have hsig := sig hview
    simp only [EntryView.memberTypes, EntryView.signatures, List.forall_mem_append]
      at hmember hsig
    exact .cons (follows_gtype _) <| .cons (.pure _) <| .cons (.pure _) <|
      .cons (follows_fields ha hmember.1) <| .cons (follows_properties ha hmember.2) <|
        .cons (follows_methods ha hsig.1.1) <| .cons (follows_signals ha hsig.1.2) <|
          .cons (follows_vfuncs ha hsig.2) <| .cons (follows_constants ha (const hview)) .nil
  | interface =>
    refine (ha.follows_interfaceView _).bind fun v hv => follows_groups ?_
    have hview : d.img.view offset .interface = .ok (.interface v) := by rw [Image.view, hv]; rfl
    have hsig := sig hview
    simp only [EntryView.signatures, List.forall_mem_append] at hsig
    exact .cons (follows_gtype _) <| .cons (.pure _) <|
      .cons (follows_properties ha (member hview)) <| .cons (follows_methods ha hsig.1.1) <|
        .cons (follows_signals ha hsig.1.2) <| .cons (follows_vfuncs ha hsig.2) <|
          .cons (follows_constants ha (const hview)) .nil
  | constant =>
    refine (Guarded.follows_row d.img _).bind fun row hrow => ?_
    have hview : d.img.view offset .constant = .ok (.constant row) := by rw [Image.view, hrow]; rfl
    exact (follows_constant ha (const hview row (by simp [EntryView.constants]))).bind
      fun _ _ => .pure _
  | errorDomain =>
    exact (Guarded.follows_row d.img _).bind fun _ _ =>
      (Guarded.follows_string d.img _).bind fun _ _ => .pure _

/-! ### Sections -/

theorem follows_entryLines (h : ¬ d.img.SelfReferential) :
    Follows (entryLines d) d.entryLines := by
  refine .ok_bind ha.follows_entries ?_
  refine Follows.bind (.mapM fun (r, e) hmem => ?_) fun _ _ => .pure _
  simp only [localEntry, Dump.localEntry]
  cases hlocal : e.isLocal with
  | false => exact .pure _
  | true =>
    cases hkind : e.kind? with
    | none => exact .pure _
    | some kind =>
      refine (follows_entry ha fun view hview t hused => ?_).bind fun _ _ => .pure _
      by_contra hends
      exact h ⟨r, e, kind, view, t, hmem, hlocal, hkind, hview, hused, hends⟩

omit ha in
theorem follows_headerLines : Follows (headerLines d) d.headerLines :=
  (Guarded.follows_string d.img _).bind fun _ _ =>
    (Guarded.follows_optString d.img _).bind fun _ _ => .pure _

theorem follows_directoryLines : Follows (directoryLines d) (.ok d.directoryLines) :=
  .ok_bind ha.follows_entries (.pure _)

end GuardedDump

theorem Image.Accepted.follows_dump {img : Image} (ha : img.Accepted)
    (h : ¬ img.SelfReferential) (palette : Palette) :
    Follows (Guarded.dump img palette) (img.dump palette) := by
  refine .ok_bind ha.follows_entries ?_
  refine Follows.bind (.mapM fun _ _ => ha.follows_entryName _) fun names _ => ?_
  obtain ⟨d, hd⟩ : ∃ d : Dump, d = ⟨img, names.toArray, palette⟩ := ⟨_, rfl⟩
  have hd' : d.img.Accepted ∧ ¬ d.img.SelfReferential := by
    subst hd
    exact ⟨ha, h⟩
  simp only [← hd]
  exact GuardedDump.follows_headerLines.bind fun _ _ =>
    .ok_bind (GuardedDump.follows_directoryLines hd'.1) <|
      (GuardedDump.follows_entryLines hd'.1 hd'.2).bind fun _ _ => .pure _

/-! ### Safety -/

/-- No question about a file crashes, whatever is asked for; and no text of a file does, unless one
of its types leads back to itself. -/
structure Image.Safe (img : Image) : Prop where
  string : ∀ offset, Follows (Guarded.string img offset) (img.string offset)
  optString : ∀ offset, Follows (Guarded.optString img offset) (img.optString offset)
  entry? : ∀ r, Follows (Guarded.entry? img r) (.ok (img.entry? r))
  entries : Follows (Guarded.entries img) (.ok img.entries)
  findLocal? : ∀ name, Follows (Guarded.findLocal? img name) (.ok (img.findLocal? name))
  entryName : ∀ r, Follows (Guarded.entryName img r) (img.entryName r)
  row : ∀ (α : Type) [Row α] [ConfinedRow α] (offset : UInt32),
    Follows (Guarded.row img α offset) (img.row α offset)
  rows : ∀ (α : Type) [Row α] [ConfinedRow α] (offset : UInt32) (count : UInt16),
    Follows (Guarded.rows img α offset count) (img.rows α offset count)
  refs : ∀ offset count, Follows (Guarded.refs img offset count) (img.refs offset count)
  constantValue : ∀ c, Follows (Guarded.constantValue img c) (img.constantValue c)
  signatureView : ∀ offset, Follows (Guarded.signatureView img offset) (img.signatureView offset)
  enumView : ∀ offset, Follows (Guarded.enumView img offset) (img.enumView offset)
  structView : ∀ offset, Follows (Guarded.structView img offset) (img.structView offset)
  unionView : ∀ offset, Follows (Guarded.unionView img offset) (img.unionView offset)
  objectView : ∀ offset, Follows (Guarded.objectView img offset) (img.objectView offset)
  interfaceView : ∀ offset, Follows (Guarded.interfaceView img offset) (img.interfaceView offset)
  dump : ¬ img.SelfReferential → ∀ palette,
    Follows (Guarded.dump img palette) (img.dump palette)

/-! ### A small file -/

namespace Sample

/-- The type of a table: an array of numbers. -/
def tableType : TypeRef := { TypeRef.simple .array false with offset := 136 }

def numberType : TypeRef := .simple (.scalar .int32) false

def tableBody : ArrayTypeRow := ⟨TypeTag.array.code, 0, 0, numberType⟩

def tableRow : ConstantRow := ⟨EntryKind.constant.code, 0, 110, tableType, 4, 152⟩

def tableEntry : DirEntry := ⟨EntryKind.constant.code, true, 110, 112⟩

def tableHeader : Header :=
  { entryCount := 1, localCount := 1, directory := 96, size := 156, namespaceName := 108,
    sharedLibrary := 0 }

/-- The file of one constant, which is a table. -/
def tableFile : Image where
  bytes := (Header.record.encode tableHeader ++ DirEntry.record.encode tableEntry ++
    nulTerminated "T" ++ nulTerminated "T" ++ Row.record.encode tableRow ++
    Row.record.encode tableBody ++ leBytes 4 7).toArray
  header := tableHeader

theorem load_tableFile : Image.load tableFile.bytes = .ok tableFile :=
  Image.load_of_header (by decide +kernel)

theorem leads_tableType {u : TypeRef} (h : tableFile.Leads tableType u) : u = numberType := by
  have hbody : tableFile.row ArrayTypeRow 136 = .ok tableBody := by decide +kernel
  cases h with
  | element _ hrow =>
    obtain rfl := Except.ok.inj (hbody.symm.trans hrow)
    rfl
  | param htag hmem =>
    cases htag
    simp at hmem

theorem not_leads_numberType (u : TypeRef) : ¬ tableFile.Leads numberType u := by
  intro h
  cases h with
  | element htag => cases htag
  | param htag hmem =>
    cases htag
    simp at hmem

theorem ends_tableType : tableFile.Ends tableType := by
  intro u hu hcycle
  have last : ∀ v, Relation.ReflTransGen tableFile.Leads numberType v → v = numberType := by
    intro v hv
    obtain rfl | ⟨w, hw, -⟩ := hv.cases_head
    · rfl
    · exact absurd hw (not_leads_numberType w)
  obtain ⟨v, huv, hvu⟩ := Relation.TransGen.head'_iff.1 hcycle
  obtain rfl | ⟨w, hw, hwu⟩ := hu.cases_head
  · obtain rfl := leads_tableType huv
    cases last _ hvu
  · obtain rfl := leads_tableType hw
    obtain rfl := last u hwu
    exact not_leads_numberType v huv

theorem not_selfReferential_tableFile : ¬ tableFile.SelfReferential := by
  rintro ⟨r, e, kind, view, t, hmem, -, hkind, hview, hused, hends⟩
  have hentries : tableFile.entries = [(⟨1⟩, tableEntry)] := by decide +kernel
  have hrow : tableFile.row ConstantRow 112 = .ok tableRow := by decide +kernel
  rw [hentries, List.mem_singleton] at hmem
  cases hmem
  obtain rfl : EntryKind.constant = kind := Option.some.inj hkind
  obtain rfl : EntryView.constant tableRow = view := by
    have hconstant : tableFile.view 112 .constant = .ok (.constant tableRow) := by
      rw [Image.view, hrow]
      rfl
    exact Except.ok.inj (hconstant.symm.trans hview)
  -- the only type is that of the constant
  obtain ht | ht | ⟨_, ho, -⟩ := hused
  · cases ht
  · obtain rfl := List.mem_singleton.1 ht
    exact hends ends_tableType
  · cases ho

end Sample

/-! ### All files -/

/-- No byte string crashes: it is loaded or refused, and questions are answered or refused. -/
theorem load_safe (bytes : Bytes) :
    Follows (Guarded.load bytes) (Image.load bytes) ∧
      ∀ img, Image.load bytes = .ok img → img.Safe := by
  refine ⟨Guarded.follows_load bytes, fun img h => ?_⟩
  have ha := (Image.accepted_of_load h).2
  exact {
    string := Guarded.follows_string img
    optString := Guarded.follows_optString img
    entry? := ha.follows_entry?
    entries := ha.follows_entries
    findLocal? := ha.follows_findLocal?
    entryName := ha.follows_entryName
    row := fun α _ _ => Guarded.follows_row img
    rows := fun α _ _ => Guarded.follows_rows img
    refs := Guarded.follows_refs img
    constantValue := Guarded.follows_constantValue img
    signatureView := ha.follows_signatureView
    enumView := ha.follows_enumView
    structView := ha.follows_structView
    unionView := ha.follows_unionView
    objectView := ha.follows_objectView
    interfaceView := ha.follows_interfaceView
    dump := ha.follows_dump }

theorem load_safe_sample : Image.load Sample.tableFile.bytes = .ok Sample.tableFile ∧
    Sample.tableFile.Safe ∧ ¬ Sample.tableFile.SelfReferential ∧
    Follows (Guarded.dump Sample.tableFile .plain) (Sample.tableFile.dump .plain) :=
  have hsafe := (load_safe Sample.tableFile.bytes).2 _ Sample.load_tableFile
  ⟨Sample.load_tableFile, hsafe, Sample.not_selfReferential_tableFile,
    hsafe.dump Sample.not_selfReferential_tableFile .plain⟩

end Typelib
