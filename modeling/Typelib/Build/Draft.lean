import Typelib.Build.Queues
import Typelib.Build.Section
import Typelib.Build.Shape
import Typelib.Build.SymbolTable

/-!
# Drafts

A `Draft` is a file under construction. A `Build` is a step on a draft that may fail; what it changed
before it failed stays changed.

Every use of a type becomes eight bytes. Scalars and interfaces need no more than that; a complex type
points at a body, which all uses of one shape share. `Build.typeUse` finds the body or promises one.
-/

namespace Typelib

/-- A file under construction. -/
structure Draft where
  options : Options
  symbols : SymbolTable
  queues : Queues := {}
  /-- The bodies of complex types, by the texts of their shapes. -/
  types : Std.TreeMap String BodyId := {}
  body : Section := {}
  /-- Pool offset of the name of the shared library. -/
  sharedLibrary : Option UInt32

/-- The draft of a namespace, with nothing but its names in it. -/
def Draft.new (namespaceName : String) (sharedLibrary : Option String) (options : Options) :
    Draft :=
  let symbols := SymbolTable.new namespaceName
  let (sharedLibrary, pool) := symbols.pool.internOpt sharedLibrary
  { options, symbols := { symbols with pool }, sharedLibrary }

/-- A step on a draft that may fail. -/
abbrev Build := ExceptT BuildError (StateM Draft)

/-- A type where it is used. -/
inductive TypeUse
  | scalar (kind : Scalar) (pointer : Bool)
  | symbol (slot : DirRef) (pointer : Bool)
  | complex (tag : TypeTag) (pointer : Bool) (body : BodyId)
  deriving DecidableEq, Repr

namespace TypeUse

/-- The bytes of the type; the offset of a body is left out. -/
def ref : TypeUse → TypeRef
  | scalar kind pointer => .simple (.scalar kind) pointer
  | symbol slot pointer => { TypeRef.simple .interface pointer with interface := slot.raw }
  | complex tag pointer _ => .simple tag pointer

/-- The body that the type points at. -/
def body? : TypeUse → Option BodyId
  | complex _ _ body => some body
  | _ => none

end TypeUse

namespace Build

/-- A step on the names that may fail. -/
def onSymbols {α : Type} (f : Options → SymbolTable → Except BuildError α × SymbolTable) : Build α :=
  ExceptT.mk fun d =>
    let (outcome, symbols) := f d.options d.symbols
    (outcome, { d with symbols })

/-- A step on the bodies. -/
def onBody (f : Section → Section) : Build Unit := modify fun d => { d with body := f d.body }

/-- A step on the queues. -/
def onQueues (f : Queues → Queues) : Build Unit := modify fun d => { d with queues := f d.queues }

/-- The directory slot that a name stands for. -/
def resolve (name : String) : Build DirRef := onSymbols fun options t => t.resolve options name

/-- A fresh identity. -/
def allocate : Build BodyId :=
  onSymbols fun _ t =>
    let (id, t) := t.allocate
    (.ok id, t)

/-- The pool offset of a string. -/
def intern (s : String) : Build UInt32 :=
  onSymbols fun _ t =>
    let (offset, t) := t.intern s
    (.ok offset, t)

/-- The pool offset of a string that may be absent. -/
def internOpt : Option String → Build (Option UInt32)
  | none => pure none
  | some s => do return some (← intern s)

/-- Begins a body. -/
def start (id : BodyId) : Build Nat :=
  ExceptT.mk fun d =>
    let (outcome, body) := d.body.start id
    (outcome, { d with body })

/-- The slots of error domains, in increasing order. -/
def domains (names : List String) : Build (List DirRef) := do
  return DirRef.sorted (← names.mapM resolve)

/-- The shape of a type. Names are resolved from left to right. -/
def shape : Ty → Build Shape
  | .scalar kind p => pure (.scalar kind p)
  | .interface name p => do return .interface (← resolve name) p
  | .array element zeroTerminated length p => do
    return .array (← shape element) zeroTerminated length p
  | .list element p => do return .list (← shape element) p
  | .slist element p => do return .slist (← shape element) p
  | .hash key value p => do
    let key ← shape key
    let value ← shape value
    return .hash key value p
  | .error names p => do return .error (← domains names) p

/-- The body for the shape of a complex type. The first type of a shape waits for its body to be
written; the others share it. -/
def typeBody (type : Ty) : Build BodyId := do
  let text := (← shape type).text
  match (← get).types[text]? with
  | some id => return id
  | none =>
    let id ← allocate
    modify fun d => { d with types := d.types.insert text id }
    onQueues fun q => q.pushType type id
    return id

/-- A type where it is used. -/
def typeUse (type : Ty) : Build TypeUse :=
  match type with
  | .scalar kind p => pure (.scalar kind p)
  | .interface name p => do return .symbol (← resolve name) p
  | type => do return .complex type.tag type.pointer (← typeBody type)

end Build

end Typelib
