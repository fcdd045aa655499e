import Typelib.Description.Callable

/-!
# Members of a description

Fields, properties, enumeration values and constants, and how each is read.
-/

namespace Typelib

structure FieldDecl where
  name : String
  type : Ty
  readable : Bool := true
  writable : Bool := false
  /-- Width of a bit field, 0 for a whole one. -/
  bits : UInt8 := 0
  structOffset : UInt16 := 0
  deriving DecidableEq, Repr

structure PropertyDecl where
  name : String
  deprecated : Bool := false
  type : Ty
  readable : Bool := true
  writable : Bool := false
  construct : Bool := false
  constructOnly : Bool := false
  deriving DecidableEq, Repr

/-- A value of an enumeration. Signed values and unsigned flag words share one number. -/
structure ValueDecl where
  name : String
  deprecated : Bool := false
  value : Int64
  deriving DecidableEq, Repr

/-- A constant, with its value as it is written. -/
structure ConstantDecl where
  name : String
  deprecated : Bool := false
  type : Ty
  value : String
  deriving DecidableEq, Repr

/-! ### Reading -/

def FieldDecl.ofJson? (j : Json) : Option FieldDecl := do
  let fs ← j.fields? ["name", "type", "readable", "writable", "bits", "struct_offset"]
  return {
    name := ← Field.required fs "name" Json.string?
    type := ← Field.required fs "type" Ty.ofJson?
    readable := ← Field.withDefault fs "readable" true Json.bool?
    writable := ← Field.flag fs "writable"
    bits := ← Field.withDefault fs "bits" 0 Json.uint8?
    structOffset := ← Field.withDefault fs "struct_offset" 0 Json.uint16? }

def PropertyDecl.ofJson? (j : Json) : Option PropertyDecl := do
  let fs ← j.fields?
    ["name", "deprecated", "type", "readable", "writable", "construct", "construct_only"]
  return {
    name := ← Field.required fs "name" Json.string?
    deprecated := ← Field.flag fs "deprecated"
    type := ← Field.required fs "type" Ty.ofJson?
    readable := ← Field.withDefault fs "readable" true Json.bool?
    writable := ← Field.flag fs "writable"
    construct := ← Field.flag fs "construct"
    constructOnly := ← Field.flag fs "construct_only" }

def ValueDecl.ofJson? (j : Json) : Option ValueDecl := do
  let fs ← j.fields? ["name", "deprecated", "value"]
  return {
    name := ← Field.required fs "name" Json.string?
    deprecated := ← Field.flag fs "deprecated"
    value := ← Field.required fs "value" Json.int64? }

def ConstantDecl.ofJson? (j : Json) : Option ConstantDecl := do
  let fs ← j.fields? ["name", "deprecated", "type", "value"]
  return {
    name := ← Field.required fs "name" Json.string?
    deprecated := ← Field.flag fs "deprecated"
    type := ← Field.required fs "type" Ty.ofJson?
    value := ← Field.required fs "value" Json.string? }

end Typelib
