import Typelib.Build.Draft
import Typelib.Build.Literal

/-!
# Cells

A body is described as a list of cells, each a word, a reference or filler, and written cell by cell.
So what a body holds is told apart from how it is written.

* `Build.cell`: writes one cell.
-/

namespace Typelib

/-- A part of a body. -/
inductive Cell
  | byte (n : UInt8)
  | word16 (n : UInt16)
  | word32 (n : UInt32)
  /-- A string. -/
  | name (s : String)
  /-- A string that may be absent. -/
  | optName (s : Option String)
  /-- The directory slot that a name stands for. -/
  | slot (name : String)
  /-- A type that needs neither a slot nor a body. -/
  | typeRef (ref : TypeRef)
  | type (type : Ty)
  /-- A signature, which waits to be written. -/
  | signature (signature : Signature)
  /-- The value of a constant, which waits to be written. -/
  | value (constant : ConstantDecl)
  /-- The body of an error type: its flags, and the slots of its domains. -/
  | errorType (flags : UInt8) (domains : List String)
  /-- Bytes as they are. -/
  | raw (bytes : List UInt8)
  /-- Filler up to the next place where a body may start. -/
  | align
  /-- The body cannot be written any further. -/
  | reject (error : BuildError)

namespace Build

/-- The largest count that a row holds. -/
def maxCount : Nat := 65535

/-- Writes the body of an error type. -/
def errorType (flags : UInt8) (names : List String) : Build Unit := do
  let refs ← domains names
  if maxCount < refs.length then throw (.tooManyMembers "error" "domains" refs.length)
  else
    onBody fun s => s.append <|
      TypeTag.error.code :: flags :: (leBytes 2 refs.length ++ leBytes 4 0 ++
        refs.flatMap fun ref => leBytes 2 ref.raw.toNat)
    onBody Section.align

/-- Writes a cell. -/
def cell : Cell → Build Unit
  | .byte n => onBody fun s => s.append [n]
  | .word16 n => onBody fun s => s.append (leBytes 2 n.toNat)
  | .word32 n => onBody fun s => s.append (leBytes 4 n.toNat)
  | .name name => do
    let offset ← intern name
    onBody fun s => s.stringRef (some offset)
  | .optName name => do
    let offset ← internOpt name
    onBody fun s => s.stringRef offset
  | .slot name => do
    let ref ← resolve name
    onBody fun s => s.append (leBytes 2 ref.raw.toNat)
  | .typeRef ref => onBody fun s => s.typeRef ref none
  | .type type => do
    let use ← typeUse type
    onBody fun s => s.typeRef use.ref use.body?
  | .signature signature => do
    let id ← allocate
    onQueues fun q => q.pushSignature signature id
    onBody fun s => s.bodyRef id
  | .value constant => do
    let id ← allocate
    onQueues fun q => q.pushConstant constant id
    onBody fun s => s.bodyRef id
  | .errorType flags names => errorType flags names
  | .raw bytes => onBody fun s => s.append bytes
  | .align => onBody Section.align
  | .reject error => throw error

/-- Writes cells one after another. -/
def cells : List Cell → Build Unit
  | [] => pure ()
  | c :: cs => do
    cell c
    cells cs

end Build

end Typelib
