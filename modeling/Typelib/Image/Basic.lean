import Typelib.Binary.Header
import Typelib.Image.Error
import Typelib.Text.Utf8

/-!
# Loaded files

An `Image` is a file whose header was checked. Everything else is checked when it is asked for: every
reader below answers or says why not, whatever the file holds.

* `Image.load`: checks a header;
* `Image.string`, `Image.entry?`, `Image.row`, `Image.rows`, `Image.refs`: parts of a file.
-/

namespace Typelib

/-- A file whose header was checked. -/
structure Image where
  bytes : Bytes
  header : Header

namespace Image

/-- The first reason to refuse a file with a given header. -/
def refusal? (bytes : Bytes) (h : Header) : Option ReadError :=
  if !h.magicOk then some .invalidMagic
  else if !h.versionOk then some (.unsupportedVersion h.major h.minor)
  else if h.size.toNat ≠ bytes.size then some (.sizeMismatch h.size bytes.size)
  else
    match h.mismatch? with
    | some m => some (.rowSizeMismatch m.kind m.expected m.found)
    | none =>
      if h.entryCount < h.localCount then some (.localCountOverflow h.localCount h.entryCount)
      else if h.directory.toNat < Header.width ∨
          bytes.size < h.directory.toNat + h.entryCount.toNat * Row.width DirEntry then
        some (.directoryOutOfBounds h.directory h.entryCount)
      else none

/-- The image of a file, unless there is a reason to refuse it. -/
def load (bytes : Bytes) : Except ReadError Image :=
  if bytes.size < Header.width then .error (.fileTooSmall bytes.size)
  else
    let h := Header.record.decode (bytes.extract 0 Header.width).toList
    match refusal? bytes h with
    | some e => .error e
    | none => .ok ⟨bytes, h⟩

variable (img : Image)

/-! ### Bytes and rows -/

/-- Bytes of the file. No offset 0 is ever meant: the header is there. -/
def slice (offset : UInt32) (size : Nat) : Except ReadError Bytes :=
  if offset = 0 ∨ img.bytes.size < offset.toNat + size then .error (.outOfBounds offset size)
  else .ok (img.bytes.extract offset.toNat (offset.toNat + size))

/-- The row at an offset. -/
def row (α : Type) [Row α] (offset : UInt32) : Except ReadError α := do
  let bytes ← img.slice offset (Row.width α)
  return Row.record.decode bytes.toList

/-- Consecutive records that fill the given bytes. -/
def records {α : Type} (r : Record α) (count : Nat) (bytes : Bytes) : List α :=
  (List.range count).map fun i =>
    r.decode (bytes.extract (i * r.width) (i * r.width + r.width)).toList

/-- Consecutive rows from an offset on. -/
def rows (α : Type) [Row α] (offset : UInt32) (count : UInt16) : Except ReadError (List α) := do
  let bytes ← img.slice offset (Row.width α * count.toNat)
  return records Row.record count.toNat bytes

/-- Consecutive references to directory slots from an offset on. -/
def refs (offset : UInt32) (count : UInt16) : Except ReadError (List DirRef) := do
  let bytes ← img.slice offset (count.toNat * 2)
  return (records Record.word16 count.toNat bytes).map DirRef.mk

/-- The bytes of the value of a constant. -/
def constantValue (c : ConstantRow) : Except ReadError Bytes :=
  if c.size = 0 then .ok #[] else img.slice c.offset c.size.toNat

/-! ### Strings -/

/-- The position of the first zero byte among the next `size` bytes. -/
def zeroFrom? (bytes : Bytes) : Nat → Nat → Option Nat
  | 0, _ => none
  | size + 1, pos => if bytes[pos]? = some 0 then some pos else zeroFrom? bytes size (pos + 1)

/-- The string at an offset, up to a zero byte. -/
def string (offset : UInt32) : Except ReadError String :=
  let start := offset.toNat
  if offset = 0 ∨ img.bytes.size ≤ start then .error (.invalidString offset)
  else
    match zeroFrom? img.bytes (img.bytes.size - start) start with
    | none => .error (.invalidString offset)
    | some stop =>
      match Text.ofBytes? (img.bytes.extract start stop) with
      | some s => .ok s
      | none => .error (.invalidString offset)

/-- The string at an offset; there is none at 0. -/
def optString (offset : UInt32) : Except ReadError (Option String) :=
  if offset = 0 then .ok none else (img.string offset).map some

/-- The name of the namespace. -/
def namespaceName : Except ReadError String := img.string img.header.namespaceName

/-- The name of the shared library. -/
def sharedLibrary : Except ReadError (Option String) := img.optString img.header.sharedLibrary

/-! ### Directory -/

/-- The directory entry that is referred to. -/
def entry? (r : DirRef) : Option DirEntry :=
  match r.index? with
  | none => none
  | some i =>
    if i < img.header.entryCount.toNat then
      let start := img.header.directory.toNat + i * Row.width DirEntry
      some (DirEntry.record.decode (img.bytes.extract start (start + Row.width DirEntry)).toList)
    else none

/-- All directory entries, in order. -/
def entries : List (DirRef × DirEntry) :=
  (List.range img.header.entryCount.toNat).filterMap fun i =>
    (DirRef.ofIndex? i).bind fun r => (img.entry? r).map fun e => (r, e)

/-- The first local entry with a name. -/
def findLocal? (name : String) : Option (DirRef × DirEntry) :=
  (img.entries.take img.header.localCount.toNat).find? fun (_, e) =>
    match img.string e.name with
    | .ok s => s == name
    | .error _ => false

/-- The name of an entry; the names of other namespaces' entries are qualified. -/
def entryName (r : DirRef) : Except ReadError String :=
  match img.entry? r with
  | none => .error (.outOfBounds r.raw.toUInt32 (Row.width DirEntry))
  | some e => do
    let name ← img.string e.name
    if e.isLocal then return name
    else return (← img.string e.offset) ++ "." ++ name

end Image

end Typelib
