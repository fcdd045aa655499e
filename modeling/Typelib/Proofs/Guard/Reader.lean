import Typelib.Image.View
import Typelib.Proofs.Image.Rows

/-!
# Readers that could crash

The readers of a file never look where nothing is and never lose a carry. To say so, each is written
down once more with guards: a guarded reader takes bytes only from inside of what it reads, computes
positions only in words that hold them, and crashes with a `Crash` otherwise, which is not an answer.
Positions and lengths are words of 64 bits, and offsets words of 32.

* `Crash`: what brings a reader down;
* `Guarded`: readers that answer, refuse or crash;
* `Guarded.load`, `Guarded.string`, `Guarded.rows` and so on: the guarded readers.
-/

namespace Typelib

/-- The record looks at nothing beyond its width. -/
def Record.Confined {α : Type} (r : Record α) : Prop :=
  ∀ bs bs' : List UInt8, bs.take r.width = bs'.take r.width → r.decode bs = r.decode bs'

/-- What brings a reader down. -/
inductive Crash
  /-- Bytes are taken that are not there. -/
  | outside (start stop size : Nat)
  /-- A row looks beyond its width. -/
  | unconfined (width : Nat)
  /-- Bytes are divided into rows of no width. -/
  | noWidth
  /-- A number is too large for its word. -/
  | overflow (bits value : Nat)
  /-- A recursion does not end. -/
  | endless

/-- A reader that answers, refuses or crashes. -/
abbrev Guarded := ExceptT ReadError (Except Crash)

namespace Guarded

variable {α : Type}

def crash (c : Crash) : Guarded α := ExceptT.mk (.error c)

/-- The bits of a position. The target is taken to have words of 64 bits; where they have 32, the sum
of an offset and a length may be too large for a position. -/
def wordBits : Nat := 64

/-- The bits of an offset. -/
def offsetBits : Nat := 32

/-- A number that has to fit a word. -/
def word (bits n : Nat) : Guarded Nat :=
  if n < 2 ^ bits then pure n else crash (.overflow bits n)

/-- Bytes from one position up to another. -/
def cut (bytes : Bytes) (start stop : Nat) : Guarded Bytes :=
  if start ≤ stop ∧ stop ≤ bytes.size then pure (bytes.extract start stop)
  else crash (.outside start stop bytes.size)

open Classical in
/-- A record at the front of bytes. -/
noncomputable def decode (r : Record α) (bytes : Bytes) : Guarded α :=
  if bytes.size < r.width then crash (.outside 0 r.width bytes.size)
  else if r.Confined then pure (r.decode bytes.toList)
  else crash (.unconfined r.width)

/-- The image of a file, unless there is a reason to refuse it. -/
noncomputable def load (bytes : Bytes) : Guarded Image := do
  if bytes.size < Header.width then throw (.fileTooSmall bytes.size)
  else
    let h ← decode Header.record (← cut bytes 0 Header.width)
    if !h.magicOk then throw .invalidMagic
    else if !h.versionOk then throw (.unsupportedVersion h.major h.minor)
    else if h.size.toNat ≠ bytes.size then throw (.sizeMismatch h.size bytes.size)
    else
      match h.mismatch? with
      | some m => throw (.rowSizeMismatch m.kind m.expected m.found)
      | none =>
        if h.entryCount < h.localCount then throw (.localCountOverflow h.localCount h.entryCount)
        else
          let length ← word wordBits (h.entryCount.toNat * Row.width DirEntry)
          let stop ← word wordBits (h.directory.toNat + length)
          if h.directory.toNat < Header.width ∨ bytes.size < stop then
            throw (.directoryOutOfBounds h.directory h.entryCount)
          else return ⟨bytes, h⟩

variable (img : Image)

/-! ### Bytes and rows -/

def slice (offset : UInt32) (size : Nat) : Guarded Bytes := do
  if offset = 0 then throw (.outOfBounds offset size)
  else
    let stop ← word wordBits (offset.toNat + size)
    if img.bytes.size < stop then throw (.outOfBounds offset size)
    else cut img.bytes offset.toNat stop

noncomputable def row (α : Type) [Row α] (offset : UInt32) : Guarded α := do
  decode Row.record (← slice img offset (Row.width α))

/-- Consecutive records that fill the given bytes. -/
noncomputable def records (r : Record α) (count : Nat) (bytes : Bytes) : Guarded (List α) :=
  (List.range count).mapM fun i => do
    decode r (← cut bytes (i * r.width) (i * r.width + r.width))

noncomputable def rows (α : Type) [Row α] (offset : UInt32) (count : UInt16) :
    Guarded (List α) := do
  let size ← word wordBits (Row.width α * count.toNat)
  let bytes ← slice img offset size
  if Row.width α = 0 then crash .noWidth
  else records Row.record count.toNat bytes

noncomputable def refs (offset : UInt32) (count : UInt16) : Guarded (List DirRef) := do
  let size ← word wordBits (count.toNat * 2)
  let words ← records Record.word16 count.toNat (← slice img offset size)
  return words.map DirRef.mk

def constantValue (c : ConstantRow) : Guarded Bytes :=
  if c.size = 0 then pure #[] else slice img c.offset c.size.toNat

/-! ### Strings -/

def string (offset : UInt32) : Guarded String := do
  if offset = 0 ∨ img.bytes.size ≤ offset.toNat then throw (.invalidString offset)
  else
    let tail ← cut img.bytes offset.toNat img.bytes.size
    match tail.toList.findIdx? (· == 0) with
    | none => throw (.invalidString offset)
    | some length =>
      match Text.ofBytes? (← cut tail 0 length) with
      | some s => return s
      | none => throw (.invalidString offset)

def optString (offset : UInt32) : Guarded (Option String) :=
  if offset = 0 then pure none else some <$> string img offset

/-! ### Directory -/

noncomputable def entry? (r : DirRef) : Guarded (Option DirEntry) := do
  match r.index? with
  | none => return none
  | some i =>
    if i < img.header.entryCount.toNat then
      let before ← word wordBits (i * Row.width DirEntry)
      let start ← word wordBits (img.header.directory.toNat + before)
      return some (← decode Row.record (← cut img.bytes start img.bytes.size))
    else return none

noncomputable def entries : Guarded (List (DirRef × DirEntry)) := do
  let found ← (List.range img.header.entryCount.toNat).mapM fun i =>
    match DirRef.ofIndex? i with
    | none => pure none
    | some r => Option.map (fun e => (r, e)) <$> entry? img r
  return found.reduceOption

/-- Tells whether an entry has a name; an entry whose name cannot be read has none. -/
def isNamed (name : String) (e : DirEntry) : Guarded Bool :=
  ExceptT.mk <| (string img e.name).run.map fun
    | .ok s => .ok (s == name)
    | .error _ => .ok false

noncomputable def findLocal? (name : String) : Guarded (Option (DirRef × DirEntry)) := do
  ((← entries img).take img.header.localCount.toNat).findM? fun (_, e) => isNamed img name e

noncomputable def entryName (r : DirRef) : Guarded String := do
  match ← entry? img r with
  | none => throw (.outOfBounds r.raw.toUInt32 (Row.width DirEntry))
  | some e =>
    let name ← string img e.name
    if e.isLocal then return name
    else return (← string img e.offset) ++ "." ++ name

end Guarded

/-! ### Views -/

/-- Reads from a position on and moves it forward, and could crash. -/
abbrev GuardedWalk := StateT Nat Guarded

namespace GuardedWalk

variable (img : Image)

noncomputable def rows (α : Type) [Row α] (count : UInt16) : GuardedWalk (List α) := fun pos =>
  if count = 0 then pure ([], pos)
  else do
    let rows ← Guarded.rows img α (Walk.offset pos) count
    let size ← Guarded.word Guarded.wordBits (Row.width α * count.toNat)
    return (rows, ← Guarded.word Guarded.wordBits (pos + size))

noncomputable def refs (count : UInt16) : GuardedWalk (List DirRef) := fun pos =>
  if count = 0 then pure ([], pos)
  else do
    let refs ← Guarded.refs img (Walk.offset pos) count
    let size ← Guarded.word Guarded.wordBits (count.toNat * 2)
    let stop ← Guarded.word Guarded.wordBits (pos + size)
    return (refs, ← Guarded.word Guarded.wordBits (alignUp stop))

noncomputable def view {α β : Type} [Row α] (offset : UInt32) (members : α → GuardedWalk β) :
    Guarded β := do
  let head ← Guarded.row img α offset
  let start ← Guarded.word Guarded.wordBits (offset.toNat + Row.width α)
  let (view, _) ← members head start
  return view

end GuardedWalk

namespace Guarded

variable (img : Image) (offset : UInt32)

noncomputable def signatureView : Guarded SignatureView :=
  GuardedWalk.view img offset fun row : SignatureRow => do
    let args ← GuardedWalk.rows img ArgRow row.argCount
    return { row, args }

noncomputable def enumView : Guarded EnumView :=
  GuardedWalk.view img offset fun row : EnumRow => do
    let values ← GuardedWalk.rows img ValueRow row.valueCount
    return { row, values }

noncomputable def structView : Guarded StructView :=
  GuardedWalk.view img offset fun row : StructRow => do
    let fields ← GuardedWalk.rows img FieldRow row.fieldCount
    let methods ← GuardedWalk.rows img FunctionRow row.methodCount
    return { row, fields, methods }

noncomputable def unionView : Guarded UnionView :=
  GuardedWalk.view img offset fun row : UnionRow => do
    let fields ← GuardedWalk.rows img FieldRow row.fieldCount
    let functions ← GuardedWalk.rows img FunctionRow row.functionCount
    let discriminators ← GuardedWalk.rows img ConstantRow row.discriminatorCount
    return { row, fields, functions, discriminators }

noncomputable def objectView : Guarded ObjectView :=
  GuardedWalk.view img offset fun row : ObjectRow => do
    let interfaces ← GuardedWalk.refs img row.interfaceCount
    let fields ← GuardedWalk.rows img FieldRow row.fieldCount
    let properties ← GuardedWalk.rows img PropertyRow row.propertyCount
    let methods ← GuardedWalk.rows img FunctionRow row.methodCount
    let signals ← GuardedWalk.rows img SignalRow row.signalCount
    let vfuncs ← GuardedWalk.rows img VFuncRow row.vfuncCount
    let constants ← GuardedWalk.rows img ConstantRow row.constantCount
    return { row, interfaces, fields, properties, methods, signals, vfuncs, constants }

noncomputable def interfaceView : Guarded InterfaceView :=
  GuardedWalk.view img offset fun row : InterfaceRow => do
    let prerequisites ← GuardedWalk.refs img row.prerequisiteCount
    let properties ← GuardedWalk.rows img PropertyRow row.propertyCount
    let methods ← GuardedWalk.rows img FunctionRow row.methodCount
    let signals ← GuardedWalk.rows img SignalRow row.signalCount
    let vfuncs ← GuardedWalk.rows img VFuncRow row.vfuncCount
    let constants ← GuardedWalk.rows img ConstantRow row.constantCount
    return { row, prerequisites, properties, methods, signals, vfuncs, constants }

end Guarded

end Typelib
