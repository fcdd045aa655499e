import Typelib.Image.Basic

/-!
# Entries with their members

A view is a row together with the rows that follow it. The rows of each kind of member follow one
another without gaps; references to directory slots are filled up to the next boundary. What an entry
has none of takes no room.

* `Walk`: reads from a position on and moves it forward.
-/

namespace Typelib

/-- Reads from a position on and moves it forward. -/
abbrev Walk := StateT Nat (Except ReadError)

namespace Walk

variable (img : Image)

/-- The position as an offset: positions that no offset reaches become the last one. -/
def offset (pos : Nat) : UInt32 := .ofNat (min pos (UInt32.size - 1))

/-- The next rows of one kind. -/
def rows (α : Type) [Row α] (count : UInt16) : Walk (List α) := fun pos =>
  if count = 0 then .ok ([], pos)
  else do
    let rows ← img.rows α (offset pos) count
    .ok (rows, pos + Row.width α * count.toNat)

/-- The next references to directory slots. -/
def refs (count : UInt16) : Walk (List DirRef) := fun pos =>
  if count = 0 then .ok ([], pos)
  else do
    let refs ← img.refs (offset pos) count
    .ok (refs, alignUp (pos + count.toNat * 2))

/-- A row and what follows it. -/
def view {α β : Type} [Row α] (offset : UInt32) (members : α → Walk β) : Except ReadError β := do
  let head ← img.row α offset
  let (view, _) ← members head (offset.toNat + Row.width α)
  return view

end Walk

/-! ### Views -/

structure SignatureView where
  row : SignatureRow
  args : List ArgRow
  deriving DecidableEq

structure EnumView where
  row : EnumRow
  values : List ValueRow
  deriving DecidableEq

structure StructView where
  row : StructRow
  fields : List FieldRow
  methods : List FunctionRow
  deriving DecidableEq

structure UnionView where
  row : UnionRow
  fields : List FieldRow
  functions : List FunctionRow
  discriminators : List ConstantRow
  deriving DecidableEq

structure ObjectView where
  row : ObjectRow
  interfaces : List DirRef
  fields : List FieldRow
  properties : List PropertyRow
  methods : List FunctionRow
  signals : List SignalRow
  vfuncs : List VFuncRow
  constants : List ConstantRow
  deriving DecidableEq

structure InterfaceView where
  row : InterfaceRow
  prerequisites : List DirRef
  properties : List PropertyRow
  methods : List FunctionRow
  signals : List SignalRow
  vfuncs : List VFuncRow
  constants : List ConstantRow
  deriving DecidableEq

namespace Image

variable (img : Image) (offset : UInt32)

def signatureView : Except ReadError SignatureView :=
  Walk.view img offset fun row : SignatureRow => do
    let args ← Walk.rows img ArgRow row.argCount
    return { row, args }

def enumView : Except ReadError EnumView :=
  Walk.view img offset fun row : EnumRow => do
    let values ← Walk.rows img ValueRow row.valueCount
    return { row, values }

def structView : Except ReadError StructView :=
  Walk.view img offset fun row : StructRow => do
    let fields ← Walk.rows img FieldRow row.fieldCount
    let methods ← Walk.rows img FunctionRow row.methodCount
    return { row, fields, methods }

def unionView : Except ReadError UnionView :=
  Walk.view img offset fun row : UnionRow => do
    let fields ← Walk.rows img FieldRow row.fieldCount
    let functions ← Walk.rows img FunctionRow row.functionCount
    let discriminators ← Walk.rows img ConstantRow row.discriminatorCount
    return { row, fields, functions, discriminators }

def objectView : Except ReadError ObjectView :=
  Walk.view img offset fun row : ObjectRow => do
    let interfaces ← Walk.refs img row.interfaceCount
    let fields ← Walk.rows img FieldRow row.fieldCount
    let properties ← Walk.rows img PropertyRow row.propertyCount
    let methods ← Walk.rows img FunctionRow row.methodCount
    let signals ← Walk.rows img SignalRow row.signalCount
    let vfuncs ← Walk.rows img VFuncRow row.vfuncCount
    let constants ← Walk.rows img ConstantRow row.constantCount
    return { row, interfaces, fields, properties, methods, signals, vfuncs, constants }

def interfaceView : Except ReadError InterfaceView :=
  Walk.view img offset fun row : InterfaceRow => do
    let prerequisites ← Walk.refs img row.prerequisiteCount
    let properties ← Walk.rows img PropertyRow row.propertyCount
    let methods ← Walk.rows img FunctionRow row.methodCount
    let signals ← Walk.rows img SignalRow row.signalCount
    let vfuncs ← Walk.rows img VFuncRow row.vfuncCount
    let constants ← Walk.rows img ConstantRow row.constantCount
    return { row, prerequisites, properties, methods, signals, vfuncs, constants }

end Image

end Typelib
