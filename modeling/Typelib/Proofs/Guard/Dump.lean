import Typelib.Image.Dump
import Typelib.Proofs.Guard.Endless

/-!
# Guarded dumps

The text of a file, made with guarded readers. What stands between the readers is the same; the one
position that a dump computes by itself is that of the members of a type, behind its row.

* `GuardedDump.typeName`: a type as text; running out of fuel is a crash;
* `Guarded.dump`: the text of a file.
-/

namespace Typelib

/-- The values of constants as text; a value is cut at its first zero byte. -/
def Guarded.valueText (bytes : Bytes) : Guarded String := do
  let stop := (bytes.toList.findIdx? (· == 0)).getD bytes.size
  return Text.ofBytes (← Guarded.cut bytes 0 stop).toList

def Guarded.formatValue (tag : Option TypeTag) (bytes : Bytes) : Guarded String :=
  match tag with
  | some (.scalar .utf8) | some (.scalar .filename) => Text.quoted <$> Guarded.valueText bytes
  | some (.scalar .void) => Guarded.valueText bytes
  | some (.scalar kind) =>
    pure ((Value.scalar? kind bytes.toList).getD (Value.byteList bytes.toList))
  | _ => Guarded.valueText bytes

namespace GuardedDump

variable (d : Dump)

/-! ### Types and callables -/

/-- The position of what follows the row of a type. -/
def behind (offset : UInt32) : Guarded UInt32 := do
  return .ofNat (← Guarded.word Guarded.offsetBits (offset.toNat + 8))

noncomputable def typeName : Nat → TypeRef → Guarded String
  | 0, _ => Guarded.crash .endless
  | fuel + 1, t =>
    match t.tag? with
    | none => pure s!"?{t.tag.toNat}"
    | some tag => do
      let base ← match tag with
        | .scalar kind => pure kind.name
        | .interface => pure (d.nameOf ⟨t.interface⟩)
        | .array => do
          let row ← Guarded.row d.img ArrayTypeRow t.offset
          let element ← typeName fuel row.element
          let bits := row.flags.toNat
          pure <| "array<" ++ element ++ ">" ++
            (if bits.testBit ArrayTypeRow.zeroTerminatedBit then "[zt]" else "") ++
            if bits.testBit ArrayTypeRow.hasLengthBit then s!"[len={row.length.toNat}]" else ""
        | .error => do
          let row ← Guarded.row d.img ErrorTypeRow t.offset
          let start ← behind t.offset
          let domains ← Guarded.refs d.img start row.domainCount
          pure <| if domains.isEmpty then "error"
            else "error<" ++ ", ".intercalate (domains.map d.nameOf) ++ ">"
        | tag => do
          let row ← Guarded.row d.img ParamTypeRow t.offset
          let start ← behind t.offset
          let types ← Guarded.rows d.img TypeRef start row.typeCount
          let types ← types.mapM (typeName fuel)
          pure <| tag.name ++ "<" ++ ", ".intercalate types ++ ">"
      return if t.isPointer then base ++ "*" else base

noncomputable def type (t : TypeRef) : Guarded String := typeName d (d.img.bytes.size + 1) t

noncomputable def arg (a : ArgRow) : Guarded String := do
  let name ← Guarded.string d.img a.name
  let type ← type d a.type
  return Dump.directionText a.flags ++ name ++ ": " ++ type

noncomputable def callable (name signature : UInt32) : Guarded String := do
  let name ← Guarded.string d.img name
  let view ← Guarded.signatureView d.img signature
  let args ← view.args.mapM (arg d)
  let result ← type d view.row.returnType
  return name ++ "(" ++ ", ".intercalate args ++ ") -> " ++ result

/-! ### Members -/

noncomputable def function (label : String) (f : FunctionRow) : Guarded String := do
  return "  " ++ label ++ " " ++ (← callable d f.name f.signature)

noncomputable def signal (s : SignalRow) : Guarded String := do
  return "  signal " ++ (← callable d s.name s.signature)

noncomputable def vfunc (v : VFuncRow) : Guarded String := do
  return "  vfunc " ++ (← callable d v.name v.signature)

noncomputable def field (f : FieldRow) : Guarded String := do
  let name ← Guarded.string d.img f.name
  let type ← type d f.type
  return "  field " ++ name ++ ": " ++ type ++
    if f.bits = 0 then "" else s!" [bits={f.bits.toNat}]"

noncomputable def property (p : PropertyRow) : Guarded String := do
  let name ← Guarded.string d.img p.name
  let type ← type d p.type
  return "  property " ++ name ++ ": " ++ type ++ " [" ++ Dump.modeText p.flags ++ "]"

noncomputable def constant (c : ConstantRow) : Guarded String := do
  let bytes ← Guarded.constantValue d.img c
  let value ← Guarded.formatValue c.type.tag? bytes
  let name ← Guarded.string d.img c.name
  let type ← type d c.type
  return "  const " ++ name ++ ": " ++ type ++ " = " ++ value

def value (v : ValueRow) : Guarded String := do
  return "  value " ++ (← Guarded.string d.img v.name) ++ " = " ++ toString v.value

def gtype (head : RegisteredHead) : Guarded (List String) := do
  match ← Guarded.optString d.img head.gtypeName with
  | none => return []
  | some name =>
    match ← Guarded.optString d.img head.gtypeInit with
    | some init => return ["  gtype " ++ name ++ " (" ++ init ++ ")"]
    | none => return ["  gtype " ++ name]

/-! ### Entries -/

def groups (lines : List (Guarded (List String))) : Guarded (List String) := do
  return (← lines.mapM id).flatten

noncomputable def entry (kind : EntryKind) (offset : UInt32) : Guarded (List String) :=
  match kind with
  | .invalid => pure []
  | .function => do
    let row ← Guarded.row d.img FunctionRow offset
    let symbol ← Guarded.string d.img row.symbol
    return ["  symbol " ++ symbol, ← function d "fn" row]
  | .callback => do
    let row ← Guarded.row d.img CallbackRow offset
    return ["  fn " ++ (← callable d row.name row.signature)]
  | .enum | .flags => do
    let v ← Guarded.enumView d.img offset
    groups [gtype d v.row.head, v.values.mapM (value d)]
  | .struct | .boxed => do
    let v ← Guarded.structView d.img offset
    groups [gtype d v.row.head, v.fields.mapM (field d), v.methods.mapM (function d "method")]
  | .union => do
    let v ← Guarded.unionView d.img offset
    groups [gtype d v.row.head, v.fields.mapM (field d), v.functions.mapM (function d "method"),
      if v.row.head.flags.toNat.testBit RegisteredHead.discriminatedBit then do
        let type ← type d v.row.discriminatorType
        return ["  discriminator " ++ type ++ " @ " ++ toString v.row.discriminatorOffset.toInt]
      else pure [],
      v.discriminators.mapM (constant d)]
  | .object => do
    let v ← Guarded.objectView d.img offset
    let parent : DirRef := ⟨v.row.parent⟩
    groups [gtype d v.row.head, pure (d.slots "parent" (if parent.isNone then [] else [parent])),
      pure (d.slots "implements" v.interfaces), v.fields.mapM (field d),
      v.properties.mapM (property d), v.methods.mapM (function d "method"),
      v.signals.mapM (signal d), v.vfuncs.mapM (vfunc d), v.constants.mapM (constant d)]
  | .interface => do
    let v ← Guarded.interfaceView d.img offset
    groups [gtype d v.row.head, pure (d.slots "requires" v.prerequisites),
      v.properties.mapM (property d), v.methods.mapM (function d "method"),
      v.signals.mapM (signal d), v.vfuncs.mapM (vfunc d), v.constants.mapM (constant d)]
  | .constant => do
    let row ← Guarded.row d.img ConstantRow offset
    return [← constant d row]
  | .errorDomain => do
    let row ← Guarded.row d.img ErrorDomainRow offset
    let quark ← Guarded.string d.img row.getQuark
    return ["  quark " ++ quark, "  codes " ++ d.nameOf ⟨row.errorCodes⟩]

noncomputable def localEntry (r : DirRef) (e : DirEntry) : Guarded (List String) :=
  match e.isLocal, e.kind? with
  | true, some kind => do
    let lines ← entry d kind e.offset
    return (d.refText r ++ " " ++ kind.name ++ " " ++ d.palette.name ++ d.nameOf r ++
      d.palette.reset) :: lines
  | _, _ => pure []

/-! ### Sections -/

def headerLines : Guarded (List String) := do
  let h := d.img.header
  let name ← Guarded.string d.img h.namespaceName
  let library ← Guarded.optString d.img h.sharedLibrary
  return [d.heading "header",
    "namespace " ++ d.palette.name ++ name ++ d.palette.reset,
    "library   " ++ library.getD "-",
    s!"version   {h.major.toNat}.{h.minor.toNat}",
    s!"entries   {h.entryCount.toNat} ({h.localCount.toNat} local)",
    s!"size      {h.size.toNat}"]

noncomputable def directoryLines : Guarded (List String) := do
  let entries ← Guarded.entries d.img
  return d.heading "directory" :: entries.map fun (r, e) =>
    d.refText r ++ " " ++ d.palette.dim ++ Dump.kindText e ++ d.palette.reset ++ " " ++ d.nameOf r

noncomputable def entryLines : Guarded (List String) := do
  let entries ← Guarded.entries d.img
  let lines ← entries.mapM fun (r, e) => localEntry d r e
  return d.heading "entries" :: lines.flatten

end GuardedDump

/-- The text of a file. -/
noncomputable def Guarded.dump (img : Image) (palette : Palette) : Guarded String := do
  let found ← Guarded.entries img
  let names ← found.mapM fun (r, _) => Guarded.entryName img r
  let d : Dump := ⟨img, names.toArray, palette⟩
  let header ← GuardedDump.headerLines d
  let directory ← GuardedDump.directoryLines d
  let entries ← GuardedDump.entryLines d
  return Text.ofLines (header ++ "" :: directory ++ "" :: entries)

end Typelib
