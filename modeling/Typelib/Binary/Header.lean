import Typelib.Binary.Directory
import Typelib.Binary.Row.Callable
import Typelib.Binary.Row.Member
import Typelib.Binary.Row.Registered
import Typelib.Binary.Row.TypeBody

/-!
# The file header

The first 96 bytes of a file: what it is, where its directory and its two names stand, and how large
each kind of row is, so that a reader can tell that it would misread the rows.
-/

namespace Typelib

/-- The sixteen bytes that every file begins with. -/
def magic : Vector UInt8 16 :=
  #v[0x47, 0x4f, 0x42, 0x4a, 0x0a, 0x4d, 0x45, 0x54, 0x41, 0x44, 0x41, 0x54, 0x41, 0x0d, 0x0a, 0x1a]

/-- Files of another major version are refused. -/
def majorVersion : UInt8 := 1

def minorVersion : UInt8 := 0

/-- The kinds of rows, with the sizes that this version gives them, in header order. -/
def rowSizes : Vector (String × UInt16) 21 :=
  #v[("entry", .ofNat (Row.width DirEntry)),
    ("type_ref", .ofNat (Row.width TypeRef)),
    ("function", .ofNat (Row.width FunctionRow)),
    ("callback", .ofNat (Row.width CallbackRow)),
    ("signal", .ofNat (Row.width SignalRow)),
    ("vfunc", .ofNat (Row.width VFuncRow)),
    ("arg", .ofNat (Row.width ArgRow)),
    ("signature", .ofNat (Row.width SignatureRow)),
    ("property", .ofNat (Row.width PropertyRow)),
    ("field", .ofNat (Row.width FieldRow)),
    ("value", .ofNat (Row.width ValueRow)),
    ("constant", .ofNat (Row.width ConstantRow)),
    ("error_domain", .ofNat (Row.width ErrorDomainRow)),
    ("enum", .ofNat (Row.width EnumRow)),
    ("struct", .ofNat (Row.width StructRow)),
    ("union", .ofNat (Row.width UnionRow)),
    ("object", .ofNat (Row.width ObjectRow)),
    ("interface", .ofNat (Row.width InterfaceRow)),
    ("array_type", .ofNat (Row.width ArrayTypeRow)),
    ("param_type", .ofNat (Row.width ParamTypeRow)),
    ("error_type", .ofNat (Row.width ErrorTypeRow))]

/-- A row kind whose size differs from the one that this version gives it. -/
structure RowSizeMismatch where
  /-- Position of the row kind in `rowSizes`. -/
  index : Nat
  kind : String
  expected : UInt16
  found : UInt16
  deriving DecidableEq, Repr

/-- The header of a file. -/
structure Header where
  magic : Vector UInt8 16 := Typelib.magic
  major : UInt8 := majorVersion
  minor : UInt8 := minorVersion
  /-- Number of directory slots. -/
  entryCount : UInt16
  /-- Number of local slots, which come first. -/
  localCount : UInt16
  /-- Offset of the directory. -/
  directory : UInt32
  /-- Length of the file. -/
  size : UInt32
  /-- Offset of the name of the namespace. -/
  namespaceName : UInt32
  /-- Offset of the name of the shared library; 0 for none. -/
  sharedLibrary : UInt32
  rowSizes : Vector UInt16 21 := Typelib.rowSizes.map Prod.snd
  deriving DecidableEq, Repr

namespace Header

def record : Record Header :=
  ((Record.vector 16 .byte).seq <| .seq .byte <| .seq .byte <| .seq (.filler 2) <| .seq .word16 <|
    .seq .word16 <| .seq .word32 <| .seq .word32 <| .seq .word32 <| .seq .word32 <|
    .seq (.vector 21 .word16) (.filler 14)).imap
    (fun (magic, major, minor, _, entryCount, localCount, directory, size, namespaceName,
        sharedLibrary, rowSizes, _) =>
      { magic, major, minor, entryCount, localCount, directory, size, namespaceName, sharedLibrary,
        rowSizes })
    (fun h => (h.magic, h.major, h.minor, (), h.entryCount, h.localCount, h.directory, h.size,
      h.namespaceName, h.sharedLibrary, h.rowSizes, ()))

/-- Length of a header. -/
def width : Nat := record.width

/-- The header at the front of the bytes, if they are long enough to hold one. -/
def ofBytes? (bytes : List UInt8) : Option Header :=
  if bytes.length < width then none else some (record.decode bytes)

def magicOk (h : Header) : Bool := h.magic == Typelib.magic

/-- Minor versions only append fields, so the major version alone decides. -/
def versionOk (h : Header) : Bool := h.major == majorVersion

/-- The first row kind whose recorded size is not the expected one. -/
def mismatch? (h : Header) : Option RowSizeMismatch :=
  (List.zip Typelib.rowSizes.toList h.rowSizes.toList).zipIdx.findSome?
    fun (((kind, expected), found), index) =>
      if found == expected then none else some ⟨index, kind, expected, found⟩

theorem width_eq : width = 96 := rfl

end Header

end Typelib
