import Typelib.Image.Value
import Typelib.Image.View
import Typelib.Palette
import Typelib.Text.Lines

/-!
# Files as text

A file is shown line by line: its header, its directory, and each local entry with its members. The
first part that cannot be read makes the whole text fail.

* `Image.dump`: the text of a file.
-/

namespace Typelib

/-- What the lines of a file share: the file, the name of each slot, and the colours. -/
structure Dump where
  img : Image
  names : Array String
  palette : Palette

namespace Dump

variable (d : Dump)

/-! ### Names and types -/

/-- The name of a slot that is referred to. -/
def nameOf (r : DirRef) : String := (r.index?.bind fun i => d.names[i]?).getD "?"

/-- Number of digits of the largest reference. -/
def refWidth : Nat := (toString (max d.names.size 1)).length

/-- A reference, filled up with zeros. -/
def refText (r : DirRef) : String :=
  let digits := toString r.raw.toNat
  "#" ++ String.ofList (List.replicate (d.refWidth - digits.length) '0') ++ digits

/-- A type as text. The fuel bounds the nesting, which ends only if no body leads to itself. -/
def typeName : Nat → TypeRef → Except ReadError String
  | 0, t => .error (.endlessType t.offset)
  | fuel + 1, t =>
    match t.tag? with
    | none => .ok s!"?{t.tag.toNat}"
    | some tag => do
      let base ← match tag with
        | .scalar kind => pure kind.name
        | .interface => pure (d.nameOf ⟨t.interface⟩)
        | .array => do
          let row ← d.img.row ArrayTypeRow t.offset
          let element ← typeName fuel row.element
          let bits := row.flags.toNat
          pure <| "array<" ++ element ++ ">" ++
            (if bits.testBit ArrayTypeRow.zeroTerminatedBit then "[zt]" else "") ++
            if bits.testBit ArrayTypeRow.hasLengthBit then s!"[len={row.length.toNat}]" else ""
        | .error => do
          let row ← d.img.row ErrorTypeRow t.offset
          let domains ← d.img.refs (t.offset + 8) row.domainCount
          pure <| if domains.isEmpty then "error"
            else "error<" ++ ", ".intercalate (domains.map d.nameOf) ++ ">"
        | tag => do
          let row ← d.img.row ParamTypeRow t.offset
          let types ← d.img.rows TypeRef (t.offset + 8) row.typeCount
          let types ← types.mapM (typeName fuel)
          pure <| tag.name ++ "<" ++ ", ".intercalate types ++ ">"
      return if t.isPointer then base ++ "*" else base

/-- The name of a type. No type without a cycle is nested deeper than the file is long. -/
def type (t : TypeRef) : Except ReadError String := d.typeName (d.img.bytes.size + 1) t

/-! ### Callables -/

/-- What stands before the name of a parameter. -/
def directionText (flags : UInt16) : String :=
  match flags.toNat.testBit ArgRow.inBit, flags.toNat.testBit ArgRow.outBit with
  | true, true => "inout "
  | false, true => "out "
  | _, false => ""

def arg (a : ArgRow) : Except ReadError String := do
  let name ← d.img.string a.name
  let type ← d.type a.type
  return directionText a.flags ++ name ++ ": " ++ type

/-- A callable with its parameters and its result. -/
def callable (name : UInt32) (signature : UInt32) : Except ReadError String := do
  let name ← d.img.string name
  let view ← d.img.signatureView signature
  let args ← view.args.mapM d.arg
  let result ← d.type view.row.returnType
  return name ++ "(" ++ ", ".intercalate args ++ ") -> " ++ result

/-! ### Members -/

def function (label : String) (f : FunctionRow) : Except ReadError String := do
  return "  " ++ label ++ " " ++ (← d.callable f.name f.signature)

def method : FunctionRow → Except ReadError String := d.function "method"

def signal (s : SignalRow) : Except ReadError String := do
  return "  signal " ++ (← d.callable s.name s.signature)

def vfunc (v : VFuncRow) : Except ReadError String := do
  return "  vfunc " ++ (← d.callable v.name v.signature)

def field (f : FieldRow) : Except ReadError String := do
  let name ← d.img.string f.name
  let type ← d.type f.type
  return "  field " ++ name ++ ": " ++ type ++
    if f.bits = 0 then "" else s!" [bits={f.bits.toNat}]"

/-- One letter for each way in which a property is used. -/
def modeText (flags : UInt32) : String :=
  let letter (bit : Nat) (c : String) := if flags.toNat.testBit bit then c else ""
  letter PropertyRow.readableBit "r" ++ letter PropertyRow.writableBit "w" ++
    letter PropertyRow.constructBit "c" ++ letter PropertyRow.constructOnlyBit "C"

def property (p : PropertyRow) : Except ReadError String := do
  let name ← d.img.string p.name
  let type ← d.type p.type
  return "  property " ++ name ++ ": " ++ type ++ " [" ++ modeText p.flags ++ "]"

def constant (c : ConstantRow) : Except ReadError String := do
  let bytes ← d.img.constantValue c
  let name ← d.img.string c.name
  let type ← d.type c.type
  return "  const " ++ name ++ ": " ++ type ++ " = " ++ Value.format c.type.tag? bytes.toList

def value (v : ValueRow) : Except ReadError String := do
  return "  value " ++ (← d.img.string v.name) ++ " = " ++ toString v.value

/-- The registered name of a type, if it has one. -/
def gtype (head : RegisteredHead) : Except ReadError (List String) := do
  match ← d.img.optString head.gtypeName with
  | none => return []
  | some name =>
    match ← d.img.optString head.gtypeInit with
    | some init => return ["  gtype " ++ name ++ " (" ++ init ++ ")"]
    | none => return ["  gtype " ++ name]

/-- A line for each slot of a list. -/
def slots (label : String) (refs : List DirRef) : List String :=
  refs.map fun r => "  " ++ label ++ " " ++ d.nameOf r

/-! ### Entries -/

/-- Groups of lines, one after another. -/
def groups (lines : List (Except ReadError (List String))) : Except ReadError (List String) := do
  return (← lines.mapM id).flatten

/-- The lines of an entry, below its name. -/
def entry (kind : EntryKind) (offset : UInt32) : Except ReadError (List String) :=
  match kind with
  | .invalid => .ok []
  | .function => do
    let row ← d.img.row FunctionRow offset
    let symbol ← d.img.string row.symbol
    return ["  symbol " ++ symbol, ← d.function "fn" row]
  | .callback => do
    let row ← d.img.row CallbackRow offset
    return ["  fn " ++ (← d.callable row.name row.signature)]
  | .enum | .flags => do
    let v ← d.img.enumView offset
    groups [d.gtype v.row.head, v.values.mapM d.value]
  | .struct | .boxed => do
    let v ← d.img.structView offset
    groups [d.gtype v.row.head, v.fields.mapM d.field, v.methods.mapM d.method]
  | .union => do
    let v ← d.img.unionView offset
    groups [d.gtype v.row.head, v.fields.mapM d.field, v.functions.mapM d.method,
      if v.row.head.flags.toNat.testBit RegisteredHead.discriminatedBit then do
        let type ← d.type v.row.discriminatorType
        return ["  discriminator " ++ type ++ " @ " ++ toString v.row.discriminatorOffset.toInt]
      else .ok [],
      v.discriminators.mapM d.constant]
  | .object => do
    let v ← d.img.objectView offset
    let parent : DirRef := ⟨v.row.parent⟩
    groups [d.gtype v.row.head, .ok (d.slots "parent" (if parent.isNone then [] else [parent])),
      .ok (d.slots "implements" v.interfaces), v.fields.mapM d.field,
      v.properties.mapM d.property, v.methods.mapM d.method, v.signals.mapM d.signal,
      v.vfuncs.mapM d.vfunc, v.constants.mapM d.constant]
  | .interface => do
    let v ← d.img.interfaceView offset
    groups [d.gtype v.row.head, .ok (d.slots "requires" v.prerequisites),
      v.properties.mapM d.property, v.methods.mapM d.method, v.signals.mapM d.signal,
      v.vfuncs.mapM d.vfunc, v.constants.mapM d.constant]
  | .constant => do
    let row ← d.img.row ConstantRow offset
    return [← d.constant row]
  | .errorDomain => do
    let row ← d.img.row ErrorDomainRow offset
    let quark ← d.img.string row.getQuark
    return ["  quark " ++ quark, "  codes " ++ d.nameOf ⟨row.errorCodes⟩]

/-- The lines of a local entry of a known kind; no others have any. -/
def localEntry (r : DirRef) (e : DirEntry) : Except ReadError (List String) :=
  match e.isLocal, e.kind? with
  | true, some kind => do
    let lines ← d.entry kind e.offset
    return (d.refText r ++ " " ++ kind.name ++ " " ++ d.palette.name ++ d.nameOf r ++
      d.palette.reset) :: lines
  | _, _ => .ok []

/-! ### Sections -/

/-- The heading of a section. -/
def heading (title : String) : String := d.palette.heading ++ "[" ++ title ++ "]" ++ d.palette.reset

def headerLines : Except ReadError (List String) := do
  let h := d.img.header
  let name ← d.img.namespaceName
  let library ← d.img.sharedLibrary
  return [d.heading "header",
    "namespace " ++ d.palette.name ++ name ++ d.palette.reset,
    "library   " ++ library.getD "-",
    s!"version   {h.major.toNat}.{h.minor.toNat}",
    s!"entries   {h.entryCount.toNat} ({h.localCount.toNat} local)",
    s!"size      {h.size.toNat}"]

/-- The kind of a slot, in a column of twelve. -/
def kindText (e : DirEntry) : String :=
  let kind := if e.isLocal then (e.kind?.map EntryKind.name).getD "?" else "extern"
  kind ++ String.ofList (List.replicate (12 - kind.length) ' ')

def directoryLines : List String :=
  d.heading "directory" :: d.img.entries.map fun (r, e) =>
    d.refText r ++ " " ++ d.palette.dim ++ kindText e ++ d.palette.reset ++ " " ++ d.nameOf r

def entryLines : Except ReadError (List String) := do
  let entries ← d.img.entries.mapM fun (r, e) => d.localEntry r e
  return d.heading "entries" :: entries.flatten

end Dump

/-- The text of a file. -/
def Image.dump (img : Image) (palette : Palette) : Except ReadError String := do
  let names ← img.entries.mapM fun (r, _) => img.entryName r
  let d : Dump := ⟨img, names.toArray, palette⟩
  let header ← d.headerLines
  let entries ← d.entryLines
  return Text.ofLines (header ++ "" :: d.directoryLines ++ "" :: entries)

end Typelib
