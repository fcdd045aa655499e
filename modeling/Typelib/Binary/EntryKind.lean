/-!
# Entry kinds

What a directory entry describes. A file stores the kind as a number; `EntryKind.ofCode?` refuses
the numbers that stand for none.
-/

namespace Typelib

/-- What a directory entry describes. -/
inductive EntryKind
  /-- Not known: entries of other namespaces, which only their own file describes. -/
  | invalid
  | function
  | callback
  | struct
  | boxed
  | enum
  | flags
  | object
  | interface
  | constant
  | errorDomain
  | union
  deriving DecidableEq, Repr

namespace EntryKind

/-- All kinds, in the order of their codes. -/
def all : List EntryKind :=
  [invalid, function, callback, struct, boxed, enum, flags, object, interface, constant,
    errorDomain, union]

def name : EntryKind → String
  | invalid => "invalid"
  | function => "function"
  | callback => "callback"
  | struct => "struct"
  | boxed => "boxed"
  | enum => "enum"
  | flags => "flags"
  | object => "object"
  | interface => "interface"
  | constant => "constant"
  | errorDomain => "error-domain"
  | union => "union"

/-- The word that stands for the kind in a file. -/
def code : EntryKind → UInt16
  | invalid => 0
  | function => 1
  | callback => 2
  | struct => 3
  | boxed => 4
  | enum => 5
  | flags => 6
  | object => 7
  | interface => 8
  | constant => 9
  | errorDomain => 10
  | union => 11

/-- The kind that a word stands for. -/
def ofCode? (c : UInt16) : Option EntryKind := all[c.toNat]?

theorem ofCode?_code (k : EntryKind) : ofCode? k.code = some k := by cases k <;> rfl

end EntryKind

end Typelib
