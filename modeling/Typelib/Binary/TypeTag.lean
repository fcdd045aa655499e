/-!
# Type tags

The kinds of types that the format knows. A `Scalar` is described by its tag alone; of the others,
an interface names a directory slot and the rest point at a body of their own.

* `TypeTag.ofCode?_code`: a tag is found again by its code.
-/

namespace Typelib

/-- Types that carry no further description: plain values and strings. -/
inductive Scalar
  | void | boolean | int8 | uint8 | int16 | uint16 | int32 | uint32 | int64 | uint64
  | int | uint | long | ulong | ssize | size | float | double | utf8 | filename
  deriving DecidableEq, Repr

namespace Scalar

/-- All scalars, in the order of their codes. -/
def all : List Scalar :=
  [void, boolean, int8, uint8, int16, uint16, int32, uint32, int64, uint64,
    int, uint, long, ulong, ssize, size, float, double, utf8, filename]

def name : Scalar → String
  | void => "void"
  | boolean => "boolean"
  | int8 => "int8"
  | uint8 => "uint8"
  | int16 => "int16"
  | uint16 => "uint16"
  | int32 => "int32"
  | uint32 => "uint32"
  | int64 => "int64"
  | uint64 => "uint64"
  | int => "int"
  | uint => "uint"
  | long => "long"
  | ulong => "ulong"
  | ssize => "ssize"
  | size => "size"
  | float => "float"
  | double => "double"
  | utf8 => "utf8"
  | filename => "filename"

/-- The position in `all`. -/
def code : Scalar → UInt8
  | void => 0
  | boolean => 1
  | int8 => 2
  | uint8 => 3
  | int16 => 4
  | uint16 => 5
  | int32 => 6
  | uint32 => 7
  | int64 => 8
  | uint64 => 9
  | int => 10
  | uint => 11
  | long => 12
  | ulong => 13
  | ssize => 14
  | size => 15
  | float => 16
  | double => 17
  | utf8 => 18
  | filename => 19

/-- Byte width of a constant of this type; strings have none. -/
def valueSize : Scalar → Option Nat
  | void => some 0
  | int8 | uint8 => some 1
  | int16 | uint16 => some 2
  | boolean | int32 | uint32 | int | uint | float => some 4
  | int64 | uint64 | long | ulong | ssize | size | double => some 8
  | utf8 | filename => none

end Scalar

/-- The kind of a type. -/
inductive TypeTag
  | scalar (s : Scalar)
  | array
  | interface
  | list
  | slist
  | hash
  | error
  deriving DecidableEq, Repr

namespace TypeTag

/-- All tags, in the order of their codes. -/
def all : List TypeTag := Scalar.all.map scalar ++ [array, interface, list, slist, hash, error]

def name : TypeTag → String
  | scalar s => s.name
  | array => "array"
  | interface => "interface"
  | list => "list"
  | slist => "slist"
  | hash => "hash"
  | error => "error"

/-- The byte that stands for the tag in a file. -/
def code : TypeTag → UInt8
  | scalar s => s.code
  | array => 20
  | interface => 21
  | list => 22
  | slist => 23
  | hash => 24
  | error => 25

/-- The tag that a byte stands for. -/
def ofCode? (c : UInt8) : Option TypeTag := all[c.toNat]?

/-- The type is described by its tag alone. -/
def isBasic : TypeTag → Bool
  | scalar _ => true
  | _ => false

/-- The type is described by a body of its own. -/
def isComplex : TypeTag → Bool
  | array | list | slist | hash | error => true
  | scalar _ | interface => false

/-- Byte width of a constant of this type, if it has one. -/
def valueSize : TypeTag → Option Nat
  | scalar s => s.valueSize
  | _ => none

theorem ofCode?_code (t : TypeTag) : ofCode? t.code = some t := by
  cases t with
  | scalar s => cases s <;> rfl
  | _ => rfl

end TypeTag

end Typelib
