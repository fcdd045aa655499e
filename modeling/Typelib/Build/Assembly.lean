import Typelib.Artifact.Basic
import Typelib.Binary.Header
import Typelib.Build.Bodies
import Typelib.Description.Document

/-!
# Files from drafts

A finished draft is laid out as header, directory, string pool and bodies. Then it is known where
everything stands, and the references between the bodies are filled in.

* `Draft.assemble`: the bytes of a finished draft;
* `compile`: the file of a description.
-/

namespace Typelib

/-- Writes bytes over those from a position on. -/
def patch : Nat → List UInt8 → Bytes → Bytes
  | _, [], bytes => bytes
  | pos, b :: bs, bytes => patch (pos + 1) bs (bytes.setIfInBounds pos b)

/-- Where the parts of a file stand. -/
structure Placement where
  /-- Start of the string pool. -/
  strings : Nat
  /-- Start of the bodies. -/
  bodies : Nat
  /-- Length of the file. -/
  total : Nat
  deriving DecidableEq, Repr

namespace Placement

/-- Each part starts where the one before it ends; bodies start on a boundary, and so does what would
follow the file. -/
def of (slots poolSize bodySize : Nat) : Placement :=
  let strings := Header.width + slots * Row.width DirEntry
  let bodies := alignUp (strings + poolSize)
  ⟨strings, bodies, alignUp (bodies + bodySize)⟩

/-- The offset of a string. -/
def string (p : Placement) (offset : UInt32) : UInt32 := .ofNat (p.strings + offset.toNat)

/-- The offset of a body. -/
def body (p : Placement) (s : Section) (id : BodyId) : Except BuildError UInt32 :=
  match s.startOf? id with
  | some start => .ok (.ofNat (p.bodies + start))
  | none => .error (.danglingReference id)

/-- The offset that a reference leads to. -/
def target (p : Placement) (s : Section) : Target → Except BuildError UInt32
  | .string offset => .ok (p.string offset)
  | .body id => p.body s id

/-- The directory entry of a slot. -/
def entry (p : Placement) (s : Section) (slot : Slot) : Except BuildError DirEntry :=
  match slot.target with
  | .body id => do
    let offset ← p.body s id
    .ok ⟨slot.kind.code, true, p.string slot.name, offset⟩
  | .foreign namespaceName =>
    .ok ⟨slot.kind.code, false, p.string slot.name, p.string namespaceName⟩

end Placement

/-- The bodies with their references filled in. -/
def Section.link (s : Section) (p : Placement) : Except BuildError Bytes :=
  s.relocs.toList.foldlM (fun bytes reloc => do
    let offset ← p.target s reloc.target
    .ok (patch reloc.pos (leBytes 4 offset.toNat) bytes)) s.bytes

/-- Zero bytes from a length up to another. -/
def zeros (size goal : Nat) : List UInt8 := List.replicate (goal - size) 0

namespace Draft

/-- The placement of the parts of a draft. -/
def placement (d : Draft) : Placement :=
  .of d.symbols.slots.size d.symbols.pool.bytes.size d.body.size

/-- The header of the file of a draft. -/
def header (d : Draft) : Header :=
  let p := d.placement
  { entryCount := .ofNat d.symbols.slots.size
    localCount := .ofNat d.symbols.localCount
    directory := .ofNat Header.width
    size := .ofNat p.total
    namespaceName := p.string d.symbols.namespaceOffset
    sharedLibrary := (d.sharedLibrary.map p.string).getD 0 }

/-- The draft can be put together: everything that was promised is written, and nothing is too large
for the format. -/
def check (d : Draft) : Except BuildError Unit := do
  if !d.queues.isEmpty then .error (.bodiesWaiting d.queues.waiting)
  else if d.body.bodyCount ≠ d.symbols.allocated then
    .error (.bodiesMissing d.body.bodyCount d.symbols.allocated)
  else
    d.symbols.pool.validate
    if UInt16.size ≤ d.symbols.slots.size then .error (.tooManyEntries d.symbols.slots.size)
    else if maxWord32 < d.placement.total then .error (.tooLarge d.placement.total)
    else .ok ()

/-- The bytes of a finished draft. -/
def assemble (d : Draft) : Except BuildError Bytes := do
  d.check
  let p := d.placement
  let body ← d.body.link p
  let directory ← d.symbols.slots.toList.mapM (p.entry d.body)
  let pool := d.symbols.pool.bytes
  .ok ((Header.record.encode d.header).toArray ++ directory.flatMap DirEntry.record.encode ++ pool ++
    zeros (p.strings + pool.size) p.bodies ++ body ++ zeros (p.bodies + body.size) p.total)

end Draft

/-- The file of a namespace. -/
def compile (namespaceName : String) (nodes : List Node) (sharedLibrary : Option String)
    (options : Options) : Except BuildError Artifact :=
  match (Build.document nodes).run (.new namespaceName sharedLibrary options) with
  | (.error e, _) => .error e
  | (.ok _, draft) => do
    let bytes ← draft.assemble
    .ok ⟨namespaceName, bytes⟩

/-- The file of a document. -/
def Document.compile (d : Document) (options : Options) : Except BuildError Artifact :=
  Typelib.compile d.namespaceName d.nodes d.sharedLibrary options

end Typelib
