import Typelib.Proofs.Reading.Names

/-!
# Types, signatures and values of an entry

An entry uses types in the rows of its members and in its signatures, and it refers to the bodies
of signatures and of values. What is found in the rows goes with what the node describes, one by one
and in the same order.

* `Node.types`, `Node.signatures`, `Node.constants`: what a node describes;
* `Image.typeRefs?`, `EntryView.signatures`, `EntryView.constants`: what is found in a file.
-/

namespace Typelib

/-! ### Descriptions -/

/-- The type of what is returned, and those of the parameters. Nothing is returned as `void`. -/
def Signature.types (s : Signature) : List Ty :=
  (s.result.map ReturnDecl.type).getD (.scalar .void false) :: s.params.map ParamDecl.type

namespace Node

def signatures : Node → List Signature
  | function f => [f.signature]
  | callback c => [c.signature]
  | struct s | boxed s => s.methods.map FunctionDecl.signature
  | union u => u.methods.map FunctionDecl.signature
  | object o =>
    o.methods.map FunctionDecl.signature ++ o.signals.map SignalDecl.signature ++
      o.vfuncs.map VFuncDecl.signature
  | interface i =>
    i.methods.map FunctionDecl.signature ++ i.signals.map SignalDecl.signature ++
      i.vfuncs.map VFuncDecl.signature
  | _ => []

def constants : Node → List ConstantDecl
  | constant c => [c]
  | union u => u.discriminators
  | object o => o.constants
  | interface i => i.constants
  | _ => []

/-- The types of fields and properties, after that of a discriminator. -/
def memberTypes : Node → List Ty
  | struct s | boxed s => s.fields.map FieldDecl.type
  | union u => (u.discriminator.map Discriminator.type).toList ++ u.fields.map FieldDecl.type
  | object o => o.fields.map FieldDecl.type ++ o.properties.map PropertyDecl.type
  | interface i => i.properties.map PropertyDecl.type
  | _ => []

/-- All types that a node uses. -/
def types (node : Node) : List Ty :=
  node.memberTypes ++ node.constants.map ConstantDecl.type ++
    node.signatures.flatMap Signature.types

/-- All types that a node uses, each followed by all types inside it. -/
def allTypes (node : Node) : List Ty := node.types.flatMap Ty.parts

end Node

/-! ### Files -/

namespace EntryView

/-- The offsets of signatures. -/
def signatures : EntryView → List UInt32
  | function row => [row.signature]
  | callback row => [row.signature]
  | struct view => view.methods.map FunctionRow.signature
  | union view => view.functions.map FunctionRow.signature
  | object view =>
    view.methods.map FunctionRow.signature ++ view.signals.map SignalRow.signature ++
      view.vfuncs.map VFuncRow.signature
  | interface view =>
    view.methods.map FunctionRow.signature ++ view.signals.map SignalRow.signature ++
      view.vfuncs.map VFuncRow.signature
  | _ => []

def constants : EntryView → List ConstantRow
  | constant row => [row]
  | union view => view.discriminators
  | object view => view.constants
  | interface view => view.constants
  | _ => []

/-- The types of fields and properties, after that of a discriminator. -/
def memberTypes : EntryView → List TypeRef
  | struct view => view.fields.map FieldRow.type
  | union view =>
    (if view.row.head.flags.toNat.testBit RegisteredHead.discriminatedBit then
      [view.row.discriminatorType] else []) ++ view.fields.map FieldRow.type
  | object view => view.fields.map FieldRow.type ++ view.properties.map PropertyRow.type
  | interface view => view.properties.map PropertyRow.type
  | _ => []

end EntryView

namespace Image

variable (img : Image)

/-- The types in a signature. -/
def signatureTypes? (offset : UInt32) : Option (List TypeRef) := do
  let view ← (img.signatureView offset).toOption
  return view.row.returnType :: view.args.map ArgRow.type

/-- The types in an entry and in its signatures. -/
def typeRefs? (view : EntryView) : Option (List TypeRef) := do
  let refs ← view.signatures.mapM img.signatureTypes?
  return view.memberTypes ++ view.constants.map ConstantRow.type ++ refs.flatten

/-- The types in an entry and in its signatures, each followed by all types inside it. -/
def allTypeRefs? (fuel : Nat) (view : EntryView) : Option (List TypeRef) := do
  let refs ← img.typeRefs? view
  return (← refs.mapM (img.parts? fuel)).flatten

/-- The local entry at a position of the directory, with its members. -/
def entryView? (i : Nat) : Option EntryView := do
  let ref ← DirRef.ofIndex? i
  let e ← img.entry? ref
  guard e.isLocal
  let kind ← e.kind?
  (img.view e.offset kind).toOption

end Image

/-! ### What is found goes with what is described -/

namespace Reading

variable {r : Reading} {view : EntryView} {node : Node}

/-- What holds of each row holds of what the rows lead to. -/
theorem forall₂_map {α β γ δ : Type} {R : α → β → Prop} {S : γ → δ → Prop} {f : α → γ} {g : β → δ}
    {as : List α} {bs : List β} (h : List.Forall₂ R as bs) (hRS : ∀ a b, R a b → S (f a) (g b)) :
    List.Forall₂ S (as.map f) (bs.map g) := by
  rw [List.forall₂_map_left_iff, List.forall₂_map_right_iff]
  exact h.imp hRS

/-- What is found for each of some members is found for all of them together. -/
theorem mapM_flatten {α β γ δ : Type} {R : α → β → Prop} {S : γ → δ → Prop}
    {f : α → Option (List γ)} {g : β → List δ} {as : List α} {bs : List β}
    (h : List.Forall₂ R as bs)
    (hf : ∀ a, ∀ b ∈ bs, R a b → ∃ cs, f a = some cs ∧ List.Forall₂ S cs (g b)) :
    ∃ css, as.mapM f = some css ∧ List.Forall₂ S css.flatten (bs.flatMap g) := by
  induction h with
  | nil => exact ⟨[], rfl, .nil⟩
  | cons hab _ ih =>
    obtain ⟨cs, hfound, hcs⟩ := hf _ _ List.mem_cons_self hab
    obtain ⟨css, hfounds, hcss⟩ := ih fun a b hb => hf a b (List.mem_cons_of_mem _ hb)
    refine ⟨cs :: css, ?_, ?_⟩
    · simp [hfound, hfounds]
    · rw [List.flatten_cons, List.flatMap_cons]
      exact List.rel_append hcs hcss

theorem ReadsEntry.signatures (h : r.ReadsEntry view node) :
    List.Forall₂ r.ReadsSignature view.signatures node.signatures := by
  have functions : ∀ {owner : Owner} {rows : List FunctionRow} {fs : List FunctionDecl},
      List.Forall₂ (r.ReadsFunction owner) rows fs → List.Forall₂ r.ReadsSignature
        (rows.map FunctionRow.signature) (fs.map FunctionDecl.signature) :=
    fun h => forall₂_map h fun _ _ hf => hf.signature
  have signals : ∀ {owner : Owner} {rows : List SignalRow} {ss : List SignalDecl},
      List.Forall₂ (r.ReadsSignal owner) rows ss → List.Forall₂ r.ReadsSignature
        (rows.map SignalRow.signature) (ss.map SignalDecl.signature) :=
    fun h => forall₂_map h fun _ _ hs => hs.signature
  have vfuncs : ∀ {owner : Owner} {rows : List VFuncRow} {vs : List VFuncDecl},
      List.Forall₂ (r.ReadsVFunc owner) rows vs → List.Forall₂ r.ReadsSignature
        (rows.map VFuncRow.signature) (vs.map VFuncDecl.signature) :=
    fun h => forall₂_map h fun _ _ hv => hv.signature
  cases node <;> cases view <;> first | exact h.elim | skip
  case function | callback => exact .cons h.signature .nil
  case struct | boxed => exact functions h.methods
  case union => exact functions h.methods
  case object | interface =>
    exact List.rel_append (List.rel_append (functions h.methods) (signals h.signals))
      (vfuncs h.vfuncs)
  all_goals exact .nil

theorem ReadsEntry.constants (h : r.ReadsEntry view node) :
    List.Forall₂ r.ReadsConstant view.constants node.constants := by
  cases node <;> cases view <;> first | exact h.elim | skip
  case constant => exact .cons h .nil
  case union => exact h.discriminators
  case object | interface => exact h.constants
  all_goals exact .nil

/-- The reference to a scalar is that of a type in any file. -/
theorem readsType_scalar (r : Reading) (kind : Scalar) (p : Bool) :
    r.ReadsType (.simple (.scalar kind) p) (.scalar kind p) := by
  have htag : (TypeRef.simple (.scalar kind) p).tag? = some (.scalar kind) :=
    TypeTag.ofCode?_code (.scalar kind)
  have hpointer : (TypeRef.simple (.scalar kind) p).isPointer = p :=
    TypeRef.isPointer_of_flags rfl
  have hlevel : r.img.level? (.simple (.scalar kind) p) = some (.scalar kind) := by
    simp only [Image.level?, htag]
    exact if_pos ⟨rfl, rfl⟩
  have href : r.ReadsRef (.simple (.scalar kind) p) (.scalar kind p) := by
    have hlen : [p].length ≤ 8 := by simp
    exact ⟨htag, flags_ofNat8 hlen, fun _ => rfl, fun _ => rfl, fun h => by cases h⟩
  refine ⟨href, fun fuel hf => ?_, fun fuel hf => ?_⟩
  · obtain ⟨fuel, rfl⟩ := Nat.exists_eq_succ_of_ne_zero (Nat.ne_zero_of_lt hf)
    refine ⟨[.simple (.scalar kind) p], ?_, .cons href .nil⟩
    simp [Image.parts?, hlevel, Level.refs]
  · obtain ⟨fuel, rfl⟩ := Nat.exists_eq_succ_of_ne_zero (Nat.ne_zero_of_lt hf)
    refine ⟨.scalar kind p, ?_, rfl, rfl⟩
    simp [Image.shape?, hlevel, hpointer]

/-- The types in a signature are found. -/
theorem ReadsSignature.types {offset : UInt32} {s : Signature} (h : r.ReadsSignature offset s) :
    ∃ refs, r.img.signatureTypes? offset = some refs ∧ List.Forall₂ r.ReadsType refs s.types := by
  obtain ⟨view, hview, hresult, hargs⟩ := h
  refine ⟨view.row.returnType :: view.args.map ArgRow.type, ?_, .cons ?_ ?_⟩
  · rw [Image.signatureTypes?, hview]
    rfl
  · cases hs : s.result with
    | none =>
      rw [hs] at hresult
      rw [hresult.1]
      exact readsType_scalar r .void false
    | some result =>
      rw [hs] at hresult
      exact hresult.1
  · exact forall₂_map hargs fun _ _ ha => ha.type

theorem ReadsEntry.memberTypes (h : r.ReadsEntry view node) :
    List.Forall₂ r.ReadsType view.memberTypes node.memberTypes := by
  have fields : ∀ {rows : List FieldRow} {fs : List FieldDecl}, List.Forall₂ r.ReadsField rows fs →
      List.Forall₂ r.ReadsType (rows.map FieldRow.type) (fs.map FieldDecl.type) :=
    fun h => forall₂_map h fun _ _ hf => hf.type
  have properties : ∀ {rows : List PropertyRow} {ps : List PropertyDecl},
      List.Forall₂ r.ReadsProperty rows ps →
      List.Forall₂ r.ReadsType (rows.map PropertyRow.type) (ps.map PropertyDecl.type) :=
    fun h => forall₂_map h fun _ _ hp => hp.type
  cases node <;> cases view <;> first | exact h.elim | skip
  case struct | boxed => exact fields h.fields
  case object => exact List.rel_append (fields h.fields) (properties h.properties)
  case interface => exact properties h.properties
  case union u view =>
    refine List.rel_append ?_ (fields h.fields)
    have hflag : view.row.head.flags.toNat.testBit RegisteredHead.discriminatedBit =
        u.discriminator.isSome := h.head.flags RegisteredHead.discriminatedBit
    rw [hflag]
    have hdisc := h.discriminator
    cases hd : u.discriminator with
    | none =>
      exact .nil
    | some disc =>
      rw [hd] at hdisc
      exact .cons hdisc.2 .nil
  all_goals exact .nil

/-- The types in an entry and in its signatures are those that the node uses. -/
theorem ReadsEntry.types (h : r.ReadsEntry view node) :
    ∃ refs, r.img.typeRefs? view = some refs ∧ List.Forall₂ r.ReadsType refs node.types := by
  obtain ⟨refs, hread, hrefs⟩ := mapM_flatten h.signatures fun _ _ _ hs => hs.types
  refine ⟨view.memberTypes ++ view.constants.map ConstantRow.type ++ refs.flatten, ?_, ?_⟩
  · rw [Image.typeRefs?, hread]
    rfl
  · exact List.rel_append (List.rel_append h.memberTypes
      (forall₂_map h.constants fun _ _ hc => hc.type)) hrefs

/-- The types inside them are found as well. -/
theorem ReadsEntry.allTypes {fuel : Nat} (h : r.ReadsEntry view node)
    (hf : ∀ t ∈ node.types, t.depth < fuel) : ∃ refs, r.img.allTypeRefs? fuel view = some refs ∧
      List.Forall₂ r.ReadsRef refs node.allTypes := by
  obtain ⟨refs, hread, hrefs⟩ := h.types
  obtain ⟨parts, hreads, hparts⟩ := mapM_flatten hrefs fun _ t ht hr => hr.parts fuel (hf t ht)
  refine ⟨parts.flatten, ?_, hparts⟩
  simp [Image.allTypeRefs?, hread, hreads]

end Reading

end Typelib
