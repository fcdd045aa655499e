import Typelib.Binary.Row.Callable
import Typelib.Binary.Row.Member
import Typelib.Binary.Row.Registered
import Typelib.Binary.Row.TypeBody
import Typelib.Build.Cell
import Typelib.Description.Node

/-!
# What bodies hold

The cells of each kind of body. An entry is a row of fixed size, followed by the rows of its members
in a fixed order. Whatever makes an entry impossible to write stands as a `Cell.reject` in the place
where it is noticed.

* `Node.cells`: the body of an entry;
* `Ty.cells`, `Signature.cells`: the bodies that rows point at.
-/

namespace Typelib

/-- The members that the rows of an entry may refer to, by name. -/
structure Owner where
  name : String
  properties : List String := []
  signals : List String := []
  vfuncs : List String := []

namespace Owner

/-- The first position of a name among the members of one kind. -/
def position (o : Owner) (kind : String) (members : List String) (name : String) :
    Except BuildError UInt16 :=
  match members.findIdx? (· == name) with
  | some i => if i < UInt16.size then .ok (.ofNat i) else .error (.unknownMember o.name kind name)
  | none => .error (.unknownMember o.name kind name)

def property (o : Owner) (name : String) : Except BuildError UInt16 :=
  o.position "property" o.properties name

def signal (o : Owner) (name : String) : Except BuildError UInt16 :=
  o.position "signal" o.signals name

def vfunc (o : Owner) (name : String) : Except BuildError UInt16 :=
  o.position "vfunc" o.vfuncs name

end Owner

namespace Cell

/-- The cells that a value calls for, or the reason why there is none. -/
def given {α : Type} (value : Except BuildError α) (cells : α → List Cell) : List Cell :=
  match value with
  | .ok a => cells a
  | .error e => [reject e]

/-- The cells, unless a list has more members than can be counted. -/
def counted (owner : String) (lists : List (String × Nat)) (cells : List Cell) : List Cell :=
  match lists.find? fun list => Build.maxCount < list.2 with
  | some (kind, n) => [reject (.tooManyMembers owner kind n)]
  | none => cells

/-- A count of members. -/
def count {α : Type} (members : List α) : Cell := word16 (.ofNat members.length)

/-- Flags in 16 bits. -/
def flags16 (bits : List Bool) : Cell := word16 (.ofNat (flagWord bits))

/-- Flags in 32 bits. -/
def flags32 (bits : List Bool) : Cell := word32 (.ofNat (flagWord bits))

/-- Flags in 8 bits. -/
def flags8 (bits : List Bool) : Cell := byte (.ofNat (flagWord bits))

end Cell

/-! ### Callables -/

/-- The position that the row of a function holds. -/
def FunctionDecl.index (f : FunctionDecl) (owner : Owner) : Except BuildError UInt16 :=
  match f.wrapsVFunc, f.property with
  | some vfunc, _ => owner.vfunc vfunc
  | none, some property => owner.property property
  | none, none => .ok 0

def FunctionDecl.cells (f : FunctionDecl) (owner : Owner) : List Cell :=
  Cell.given (f.index owner) fun index =>
    [.word16 EntryKind.function.code,
      .flags16 [f.deprecated, f.setter, f.getter, f.constructor, f.wrapsVFunc.isSome, f.method],
      .word16 index, .word16 0, .name f.name, .name f.symbol, .signature f.signature]

def CallbackDecl.cells (c : CallbackDecl) : List Cell :=
  [.word16 EntryKind.callback.code, .flags16 [c.deprecated], .name c.name, .signature c.signature]

def SignalDecl.cells (s : SignalDecl) (owner : Owner) : List Cell :=
  Cell.given ((s.classClosure.map owner.vfunc).getD (.ok 0)) fun classClosure =>
    [.flags16 [s.deprecated, s.run == .first, s.run == .last, s.run == .cleanup, s.noRecurse,
        s.detailed, s.action, s.noHooks, s.classClosure.isSome, s.trueStopsEmit],
      .word16 classClosure, .name s.name, .signature s.signature]

def VFuncDecl.cells (v : VFuncDecl) (owner : Owner) : List Cell :=
  Cell.given ((v.signal.map owner.signal).getD (.ok 0)) fun signal =>
    [.name v.name,
      .flags16 [v.mustChainUp, v.mustBeImplemented, v.mustNotBeImplemented, v.classClosure,
        v.signal.isSome],
      .word16 signal, .word16 v.structOffset, .word16 0, .signature v.signature]

def ParamDecl.cells (p : ParamDecl) : List Cell :=
  [.name p.name,
    .flags16 [p.direction != .output, p.direction != .input, p.dipper, p.nullOk, p.optional,
      p.transfer == .full, p.transfer == .container, p.retval],
    .word16 0, .type p.type]

/-- The row of a result: nothing is returned as `void`. -/
def Signature.resultCells (s : Signature) : List Cell :=
  match s.result with
  | some r =>
    [.type r.type,
      .flags16 [r.mayReturnNull, r.transfer == .full, r.transfer == .container]]
  | none => [.typeRef (.simple (.scalar .void) false), .word16 0]

/-- The body of a signature. -/
def Signature.cells (s : Signature) : List Cell :=
  s.resultCells ++ [.count s.params, .word32 0] ++ s.params.flatMap ParamDecl.cells

/-! ### Members -/

def FieldDecl.cells (f : FieldDecl) : List Cell :=
  [.name f.name, .flags8 [f.readable, f.writable], .byte f.bits, .word16 f.structOffset,
    .type f.type]

def PropertyDecl.cells (p : PropertyDecl) : List Cell :=
  [.name p.name, .flags32 [p.deprecated, p.readable, p.writable, p.construct, p.constructOnly],
    .type p.type]

/-- A value that fits a signed word is stored as one, and a larger one as an unsigned word. -/
def ValueDecl.cells (owner : String) (v : ValueDecl) : List Cell :=
  let n := v.value.toInt
  if -0x80000000 ≤ n ∧ n < 0x80000000 then
    [.flags32 [v.deprecated, false], .name v.name, .word32 (.ofNat (n % 0x100000000).toNat)]
  else if 0 ≤ n ∧ n < 0x100000000 then
    [.flags32 [v.deprecated, true], .name v.name, .word32 (.ofNat n.toNat)]
  else [.reject (.valueOutOfRange owner v.name n)]

def ConstantDecl.cells (c : ConstantDecl) : List Cell :=
  Cell.given c.encode fun bytes =>
    [.word16 EntryKind.constant.code, .flags16 [c.deprecated], .name c.name, .type c.type,
      .word32 (.ofNat bytes.length), .value c]

/-! ### Entries -/

/-- What the rows of all registered types begin with. -/
def headCells (kind : EntryKind) (name : String) (deprecated : Bool)
    (gtypeName gtypeInit : Option String) (discriminated : Bool := false) : List Cell :=
  [.word16 kind.code, .flags16 [deprecated, gtypeName.isNone, discriminated], .name name,
    .optName gtypeName, .optName gtypeInit]

/-- A list of directory slots. -/
def slotCells (names : List String) : List Cell := names.map .slot ++ [.align]

def EnumDecl.cells (e : EnumDecl) (kind : EntryKind) : List Cell :=
  Cell.counted e.name [("values", e.values.length)] <|
    headCells kind e.name e.deprecated e.gtypeName e.gtypeInit ++ [.count e.values, .word16 0] ++
      e.values.flatMap (ValueDecl.cells e.name)

def StructDecl.cells (s : StructDecl) (kind : EntryKind) : List Cell :=
  Cell.counted s.name [("fields", s.fields.length), ("methods", s.methods.length)] <|
    headCells kind s.name s.deprecated s.gtypeName s.gtypeInit ++
      [.count s.fields, .count s.methods] ++ s.fields.flatMap FieldDecl.cells ++
      s.methods.flatMap fun m => m.cells { name := s.name }

/-- The constants that tell the fields of a union apart. -/
def UnionDecl.discriminators (u : UnionDecl) : List ConstantDecl :=
  match u.discriminator with
  | some d => d.values
  | none => []

def UnionDecl.discriminatorCells (u : UnionDecl) : List Cell :=
  match u.discriminator with
  | some d => [.word32 d.offset.toUInt32, .type d.type]
  | none => [.word32 0, .typeRef .none]

def UnionDecl.cells (u : UnionDecl) : List Cell :=
  Cell.counted u.name
    [("fields", u.fields.length), ("methods", u.methods.length),
      ("discriminators", u.discriminators.length)] <|
    headCells .union u.name u.deprecated u.gtypeName u.gtypeInit u.discriminator.isSome ++
      [.count u.fields, .count u.methods, .count u.discriminators, .word16 0] ++
      u.discriminatorCells ++ u.fields.flatMap FieldDecl.cells ++
      u.methods.flatMap (fun m => m.cells { name := u.name }) ++
      u.discriminators.flatMap ConstantDecl.cells

def ObjectDecl.owner (o : ObjectDecl) : Owner where
  name := o.name
  properties := o.properties.map (·.name)
  signals := o.signals.map (·.name)
  vfuncs := o.vfuncs.map (·.name)

def ObjectDecl.cells (o : ObjectDecl) : List Cell :=
  let owner := o.owner
  Cell.counted o.name
    [("interfaces", o.interfaces.length), ("fields", o.fields.length),
      ("properties", o.properties.length), ("methods", o.methods.length),
      ("signals", o.signals.length), ("vfuncs", o.vfuncs.length),
      ("constants", o.constants.length)] <|
    headCells .object o.name o.deprecated o.gtypeName o.gtypeInit ++
      [match o.parent with
        | some parent => .slot parent
        | none => .word16 DirRef.none.raw,
        .count o.interfaces, .count o.fields, .count o.properties, .count o.methods,
        .count o.signals, .count o.vfuncs, .count o.constants, .word32 0] ++
      slotCells o.interfaces ++ o.fields.flatMap FieldDecl.cells ++
      o.properties.flatMap PropertyDecl.cells ++ o.methods.flatMap (·.cells owner) ++
      o.signals.flatMap (·.cells owner) ++ o.vfuncs.flatMap (·.cells owner) ++
      o.constants.flatMap ConstantDecl.cells

def InterfaceDecl.owner (i : InterfaceDecl) : Owner where
  name := i.name
  properties := i.properties.map (·.name)
  signals := i.signals.map (·.name)
  vfuncs := i.vfuncs.map (·.name)

def InterfaceDecl.cells (i : InterfaceDecl) : List Cell :=
  let owner := i.owner
  Cell.counted i.name
    [("prerequisites", i.prerequisites.length), ("properties", i.properties.length),
      ("methods", i.methods.length), ("signals", i.signals.length),
      ("vfuncs", i.vfuncs.length), ("constants", i.constants.length)] <|
    headCells .interface i.name i.deprecated i.gtypeName i.gtypeInit ++
      [.count i.prerequisites, .count i.properties, .count i.methods, .count i.signals,
        .count i.vfuncs, .count i.constants, .word32 0] ++
      slotCells i.prerequisites ++ i.properties.flatMap PropertyDecl.cells ++
      i.methods.flatMap (·.cells owner) ++ i.signals.flatMap (·.cells owner) ++
      i.vfuncs.flatMap (·.cells owner) ++ i.constants.flatMap ConstantDecl.cells

def ErrorDomainDecl.cells (d : ErrorDomainDecl) : List Cell :=
  [.word16 EntryKind.errorDomain.code, .flags16 [d.deprecated], .name d.name, .name d.getQuark,
    .slot d.codes, .word16 0]

/-- The node stands where only entries may stand. -/
def Node.misplaced (n : Node) : BuildError := .unexpectedNode n.kindName n.name

/-- The body of an entry. -/
def Node.cells : Node → List Cell
  | .function f => f.cells { name := f.name }
  | .callback c => c.cells
  | .struct s => s.cells .struct
  | .boxed s => s.cells .boxed
  | .union u => u.cells
  | .enum e => e.cells .enum
  | .flags e => e.cells .flags
  | .object o => o.cells
  | .interface i => i.cells
  | .errorDomain d => d.cells
  | .constant c => c.cells
  | n => [.reject n.misplaced]

/-! ### Types -/

/-- The row of a list, slist or hash. -/
def paramTypeCells (tag : TypeTag) (pointer : Bool) (types : List Ty) : List Cell :=
  [.byte tag.code, .flags8 [pointer], .count types, .word32 0] ++ types.map .type

/-- The body of a complex type. -/
def Ty.cells : Ty → List Cell
  | .array element zeroTerminated length p =>
    [.byte TypeTag.array.code, .flags8 [p, zeroTerminated, length.isSome],
      .word16 (length.getD 0), .word32 0, .type element]
  | .list element p => paramTypeCells .list p [element]
  | .slist element p => paramTypeCells .slist p [element]
  | .hash key value p => paramTypeCells .hash p [key, value]
  | .error domains p => [.errorType (TypeRef.flagsOf p) domains]
  | t => [.reject (.notComplex t.tag)]

end Typelib
