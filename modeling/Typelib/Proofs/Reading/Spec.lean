import Typelib.Proofs.Image.Types

/-!
# What a file says

When does a file say what a description says? A string is what is in front of the first NUL of a
text, a flag is a bit, a name is a directory slot, a type is a reference that leads to its shape,
and each member of an entry is a row. Nothing here depends on how files are made.

* `Reading`: a file that is compared with a description;
* `Reading.Refers`: what the slot of a name leads to;
* `Reading.ReadsType`, `Reading.ReadsSignature`: types and signatures;
* `EntryView`, `Reading.ReadsEntry`: whole entries.
-/

namespace Typelib

/-- A word holds flags at certain bits, and no others. -/
def Flags (word : Nat) (bits : List (Nat × Bool)) : Prop :=
  ∀ i, word.testBit i = (bits.lookup i).getD false

/-- A file that is compared with a description. -/
structure Reading where
  img : Image
  namespaceName : String
  /-- The names of the local entries, in the order of their slots. -/
  locals : List String
  /-- The slot that a name stands for. -/
  slot : String → DirRef
  /-- Where the body stands that all types of a shape share. -/
  place : Shape → Option UInt32

namespace Reading

variable (r : Reading)

/-! ### Strings and names -/

/-- The string at an offset is a text up to its first NUL. -/
def ReadsName (offset : UInt32) (s : String) : Prop := r.img.string offset = .ok (Text.cut s)

/-- The string at an offset is a text up to its first NUL, and absent if there is no text. -/
def ReadsOptName (offset : UInt32) (s : Option String) : Prop :=
  r.img.optString offset = .ok (s.map Text.cut)

/-- What a name stands for. -/
inductive Referent
  /-- The local entry at a position. -/
  | entry (i : Nat)
  | external (namespaceName symbol : String)
  deriving DecidableEq, Repr

/-- A name stands for the local entry of that name; else, if this namespace is in front of its last
dot, for the local entry of what comes after it; else for an entry of the namespace in front of its
last dot, or of this one. -/
def referent (name : String) : Referent :=
  match r.locals.idxOf? name with
  | some i => .entry i
  | none =>
    match SymbolTable.splitName name with
    | none => .external r.namespaceName name
    | some (ns, symbol) =>
      if ns = r.namespaceName then
        match r.locals.idxOf? symbol with
        | some i => .entry i
        | none => .external ns symbol
      else .external ns symbol

/-- The slot of a name leads to what the name stands for. -/
def Refers (name : String) : Prop :=
  match r.referent name with
  | .entry i => DirRef.ofIndex? i = some (r.slot name)
  | .external ns symbol => ∃ e, r.img.entry? (r.slot name) = some e ∧ e.isLocal = false ∧
      e.kind? = some .invalid ∧ r.ReadsName e.name symbol ∧ r.ReadsName e.offset ns

/-- The raw reference is that of a name. -/
def ReadsSlot (ref : DirRef) (name : String) : Prop := ref = r.slot name ∧ r.Refers name

/-! ### Types -/

/-- A shape is that of a type: names are replaced by their slots, error domains by the slots of all
of them in increasing order, and everything else is as it is, at every level. -/
def Shows : Shape → Ty → Prop
  | .scalar kind p, .scalar kind' p' => kind = kind' ∧ p = p'
  | .interface ref p, .interface name p' => r.ReadsSlot ref name ∧ p = p'
  | .array element z l p, .array element' z' l' p' =>
    Shows element element' ∧ z = z' ∧ l = l' ∧ p = p'
  | .list element p, .list element' p' => Shows element element' ∧ p = p'
  | .slist element p, .slist element' p' => Shows element element' ∧ p = p'
  | .hash key value p, .hash key' value' p' => Shows key key' ∧ Shows value value' ∧ p = p'
  | .error refs p, .error names p' =>
    (refs.Pairwise fun a b => a.raw < b.raw) ∧
      (∀ ref ∈ refs, ∃ name ∈ names, r.ReadsSlot ref name) ∧
      (∀ name ∈ names, ∃ ref ∈ refs, r.ReadsSlot ref name) ∧ p = p'
  | _, _ => False

/-- What a reference to a type holds in itself. A slot is stored for names only, and an offset for
complex types only, which have one place for each shape. -/
structure ReadsRef (ref : TypeRef) (t : Ty) : Prop where
  tag : ref.tag? = some t.tag
  flags : Flags ref.flags.toNat [(TypeRef.pointerBit, t.pointer)]
  interface : t.tag ≠ .interface → ref.interface = 0
  noOffset : t.tag.isComplex = false → ref.offset = 0
  offset : t.tag.isComplex = true →
    ref.offset ≠ 0 ∧ r.place (t.shape r.slot) = some ref.offset

/-- The reference is that of a type: followed to the end it leads to references to all types inside,
and gives the type back. -/
structure ReadsType (ref : TypeRef) (t : Ty) : Prop extends r.ReadsRef ref t where
  parts : ∀ fuel, t.depth < fuel →
    ∃ refs, r.img.parts? fuel ref = some refs ∧ List.Forall₂ r.ReadsRef refs t.parts
  shape : ∀ fuel, t.depth < fuel → ∃ s, r.img.shape? fuel ref = some s ∧ r.Shows s t

/-! ### Signatures -/

structure ReadsArg (row : ArgRow) (p : ParamDecl) : Prop where
  name : r.ReadsName row.name p.name
  flags : Flags row.flags.toNat
    [(ArgRow.inBit, p.direction != .output), (ArgRow.outBit, p.direction != .input),
      (ArgRow.dipperBit, p.dipper), (ArgRow.nullOkBit, p.nullOk), (ArgRow.optionalBit, p.optional),
      (ArgRow.transferBit, p.transfer == .full),
      (ArgRow.transferContainerBit, p.transfer == .container), (ArgRow.returnValueBit, p.retval)]
  type : r.ReadsType row.type p.type

/-- Nothing is returned as `void`, without flags. -/
def ReadsResult (row : SignatureRow) : Option ReturnDecl → Prop
  | some result => r.ReadsType row.returnType result.type ∧ Flags row.flags.toNat
      [(SignatureRow.mayReturnNullBit, result.mayReturnNull),
        (SignatureRow.callerOwnsReturnBit, result.transfer == .full),
        (SignatureRow.callerOwnsContainerBit, result.transfer == .container)]
  | none => row.returnType = .simple (.scalar .void) false ∧ Flags row.flags.toNat []

/-- The offset leads to a signature. -/
def ReadsSignature (offset : UInt32) (s : Signature) : Prop :=
  ∃ view, r.img.signatureView offset = .ok view ∧ r.ReadsResult view.row s.result ∧
    List.Forall₂ r.ReadsArg view.args s.params

/-! ### Callables -/

/-- The first position of a member, and 0 where none is referred to. -/
def memberIndex (members : List String) : Option String → Option Nat
  | some name => members.idxOf? name
  | none => some 0

/-- A function refers to the virtual function that it wraps, else to its property. -/
def functionIndex (owner : Owner) (f : FunctionDecl) : Option Nat :=
  if f.wrapsVFunc.isSome then memberIndex owner.vfuncs f.wrapsVFunc
  else memberIndex owner.properties f.property

structure ReadsFunction (owner : Owner) (row : FunctionRow) (f : FunctionDecl) : Prop where
  kind : row.kind = EntryKind.function.code
  flags : Flags row.flags.toNat
    [(FunctionRow.deprecatedBit, f.deprecated), (FunctionRow.setterBit, f.setter),
      (FunctionRow.getterBit, f.getter), (FunctionRow.constructorBit, f.constructor),
      (FunctionRow.wrapsVFuncBit, f.wrapsVFunc.isSome), (FunctionRow.methodBit, f.method)]
  index : functionIndex owner f = some row.index.toNat
  name : r.ReadsName row.name f.name
  symbol : r.ReadsName row.symbol f.symbol
  signature : r.ReadsSignature row.signature f.signature

structure ReadsCallback (row : CallbackRow) (c : CallbackDecl) : Prop where
  kind : row.kind = EntryKind.callback.code
  flags : Flags row.flags.toNat [(CallbackRow.deprecatedBit, c.deprecated)]
  name : r.ReadsName row.name c.name
  signature : r.ReadsSignature row.signature c.signature

structure ReadsSignal (owner : Owner) (row : SignalRow) (s : SignalDecl) : Prop where
  flags : Flags row.flags.toNat
    [(SignalRow.deprecatedBit, s.deprecated), (SignalRow.runFirstBit, s.run == .first),
      (SignalRow.runLastBit, s.run == .last), (SignalRow.runCleanupBit, s.run == .cleanup),
      (SignalRow.noRecurseBit, s.noRecurse), (SignalRow.detailedBit, s.detailed),
      (SignalRow.actionBit, s.action), (SignalRow.noHooksBit, s.noHooks),
      (SignalRow.hasClassClosureBit, s.classClosure.isSome),
      (SignalRow.trueStopsEmitBit, s.trueStopsEmit)]
  classClosure : memberIndex owner.vfuncs s.classClosure = some row.classClosure.toNat
  name : r.ReadsName row.name s.name
  signature : r.ReadsSignature row.signature s.signature

structure ReadsVFunc (owner : Owner) (row : VFuncRow) (v : VFuncDecl) : Prop where
  name : r.ReadsName row.name v.name
  flags : Flags row.flags.toNat
    [(VFuncRow.mustChainUpBit, v.mustChainUp),
      (VFuncRow.mustBeImplementedBit, v.mustBeImplemented),
      (VFuncRow.mustNotBeImplementedBit, v.mustNotBeImplemented),
      (VFuncRow.classClosureBit, v.classClosure), (VFuncRow.hasSignalBit, v.signal.isSome)]
  signal : memberIndex owner.signals v.signal = some row.signal.toNat
  structOffset : row.structOffset = v.structOffset
  signature : r.ReadsSignature row.signature v.signature

/-! ### Members -/

structure ReadsField (row : FieldRow) (f : FieldDecl) : Prop where
  name : r.ReadsName row.name f.name
  flags : Flags row.flags.toNat
    [(FieldRow.readableBit, f.readable), (FieldRow.writableBit, f.writable)]
  bits : row.bits = f.bits
  structOffset : row.structOffset = f.structOffset
  type : r.ReadsType row.type f.type

structure ReadsProperty (row : PropertyRow) (p : PropertyDecl) : Prop where
  name : r.ReadsName row.name p.name
  flags : Flags row.flags.toNat
    [(PropertyRow.deprecatedBit, p.deprecated), (PropertyRow.readableBit, p.readable),
      (PropertyRow.writableBit, p.writable), (PropertyRow.constructBit, p.construct),
      (PropertyRow.constructOnlyBit, p.constructOnly)]
  type : r.ReadsType row.type p.type

/-- A value that no signed word holds is marked as unsigned. -/
structure ReadsValue (row : ValueRow) (v : ValueDecl) : Prop where
  flags : Flags row.flags.toNat [(ValueRow.deprecatedBit, v.deprecated),
    (ValueRow.unsignedBit, decide (0x80000000 ≤ v.value.toInt))]
  name : r.ReadsName row.name v.name
  value : row.value = v.value.toInt

/-- The offset of a constant leads to the bytes of its value. -/
def ReadsConstantValue (row : ConstantRow) (c : ConstantDecl) : Prop :=
  ∃ bytes, c.encode = .ok bytes ∧ r.img.constantValue row = .ok bytes.toArray ∧
    row.size.toNat = bytes.length

structure ReadsConstant (row : ConstantRow) (c : ConstantDecl) : Prop where
  kind : row.kind = EntryKind.constant.code
  flags : Flags row.flags.toNat [(ConstantRow.deprecatedBit, c.deprecated)]
  name : r.ReadsName row.name c.name
  type : r.ReadsType row.type c.type
  value : r.ReadsConstantValue row c

/-! ### Entries -/

/-- What the rows of registered types begin with. -/
structure ReadsHead (head : RegisteredHead) (kind : EntryKind) (name : String) (deprecated : Bool)
    (gtypeName gtypeInit : Option String) (discriminated : Bool) : Prop where
  kind : head.kind = kind.code
  flags : Flags head.flags.toNat
    [(RegisteredHead.deprecatedBit, deprecated), (RegisteredHead.unregisteredBit, gtypeName.isNone),
      (RegisteredHead.discriminatedBit, discriminated)]
  name : r.ReadsName head.name name
  gtypeName : r.ReadsOptName head.gtypeName gtypeName
  gtypeInit : r.ReadsOptName head.gtypeInit gtypeInit

structure ReadsEnum (kind : EntryKind) (view : EnumView) (e : EnumDecl) : Prop where
  head : r.ReadsHead view.row.head kind e.name e.deprecated e.gtypeName e.gtypeInit false
  values : List.Forall₂ r.ReadsValue view.values e.values

structure ReadsStruct (kind : EntryKind) (view : StructView) (s : StructDecl) : Prop where
  head : r.ReadsHead view.row.head kind s.name s.deprecated s.gtypeName s.gtypeInit false
  fields : List.Forall₂ r.ReadsField view.fields s.fields
  methods : List.Forall₂ (r.ReadsFunction { name := s.name }) view.methods s.methods

/-- A union without a discriminator has nothing in its place. -/
def ReadsDiscriminator (row : UnionRow) : Option Discriminator → Prop
  | some d => row.discriminatorOffset = d.offset ∧ r.ReadsType row.discriminatorType d.type
  | none => row.discriminatorOffset = 0 ∧ row.discriminatorType = .none

structure ReadsUnion (view : UnionView) (u : UnionDecl) : Prop where
  head : r.ReadsHead view.row.head .union u.name u.deprecated u.gtypeName u.gtypeInit
    u.discriminator.isSome
  discriminator : r.ReadsDiscriminator view.row u.discriminator
  fields : List.Forall₂ r.ReadsField view.fields u.fields
  methods : List.Forall₂ (r.ReadsFunction { name := u.name }) view.functions u.methods
  discriminators : List.Forall₂ r.ReadsConstant view.discriminators u.discriminators

/-- The slot of a parent, if there is one. -/
def ReadsParent (ref : DirRef) : Option String → Prop
  | some name => r.ReadsSlot ref name
  | none => ref = .none

structure ReadsObject (view : ObjectView) (o : ObjectDecl) : Prop where
  head : r.ReadsHead view.row.head .object o.name o.deprecated o.gtypeName o.gtypeInit false
  parent : r.ReadsParent ⟨view.row.parent⟩ o.parent
  interfaces : List.Forall₂ r.ReadsSlot view.interfaces o.interfaces
  fields : List.Forall₂ r.ReadsField view.fields o.fields
  properties : List.Forall₂ r.ReadsProperty view.properties o.properties
  methods : List.Forall₂ (r.ReadsFunction o.owner) view.methods o.methods
  signals : List.Forall₂ (r.ReadsSignal o.owner) view.signals o.signals
  vfuncs : List.Forall₂ (r.ReadsVFunc o.owner) view.vfuncs o.vfuncs
  constants : List.Forall₂ r.ReadsConstant view.constants o.constants

structure ReadsInterface (view : InterfaceView) (i : InterfaceDecl) : Prop where
  head : r.ReadsHead view.row.head .interface i.name i.deprecated i.gtypeName i.gtypeInit false
  prerequisites : List.Forall₂ r.ReadsSlot view.prerequisites i.prerequisites
  properties : List.Forall₂ r.ReadsProperty view.properties i.properties
  methods : List.Forall₂ (r.ReadsFunction i.owner) view.methods i.methods
  signals : List.Forall₂ (r.ReadsSignal i.owner) view.signals i.signals
  vfuncs : List.Forall₂ (r.ReadsVFunc i.owner) view.vfuncs i.vfuncs
  constants : List.Forall₂ r.ReadsConstant view.constants i.constants

structure ReadsErrorDomain (row : ErrorDomainRow) (d : ErrorDomainDecl) : Prop where
  kind : row.kind = EntryKind.errorDomain.code
  flags : Flags row.flags.toNat [(ErrorDomainRow.deprecatedBit, d.deprecated)]
  name : r.ReadsName row.name d.name
  getQuark : r.ReadsName row.getQuark d.getQuark
  codes : r.ReadsSlot ⟨row.errorCodes⟩ d.codes

end Reading

/-- A local entry with its members. -/
inductive EntryView
  | function (row : FunctionRow)
  | callback (row : CallbackRow)
  | enum (view : EnumView)
  | struct (view : StructView)
  | union (view : UnionView)
  | object (view : ObjectView)
  | interface (view : InterfaceView)
  | errorDomain (row : ErrorDomainRow)
  | constant (row : ConstantRow)

/-- The entry of a kind at an offset. -/
def Image.view (img : Image) (offset : UInt32) : EntryKind → Except ReadError EntryView
  | .function => (img.row FunctionRow offset).map .function
  | .callback => (img.row CallbackRow offset).map .callback
  | .enum | .flags => (img.enumView offset).map .enum
  | .struct | .boxed => (img.structView offset).map .struct
  | .union => (img.unionView offset).map .union
  | .object => (img.objectView offset).map .object
  | .interface => (img.interfaceView offset).map .interface
  | .errorDomain => (img.row ErrorDomainRow offset).map .errorDomain
  | .constant => (img.row ConstantRow offset).map .constant
  | .invalid => .error (.outOfBounds offset 0)

/-- The entry holds what a node describes. -/
def Reading.ReadsEntry (r : Reading) : EntryView → Node → Prop
  | .function row, .function f => r.ReadsFunction { name := f.name } row f
  | .callback row, .callback c => r.ReadsCallback row c
  | .enum view, .enum e => r.ReadsEnum .enum view e
  | .enum view, .flags e => r.ReadsEnum .flags view e
  | .struct view, .struct s => r.ReadsStruct .struct view s
  | .struct view, .boxed s => r.ReadsStruct .boxed view s
  | .union view, .union u => r.ReadsUnion view u
  | .object view, .object o => r.ReadsObject view o
  | .interface view, .interface i => r.ReadsInterface view i
  | .errorDomain row, .errorDomain d => r.ReadsErrorDomain row d
  | .constant row, .constant c => r.ReadsConstant row c
  | _, _ => False

end Typelib
