import Typelib.Binary.TypeTag
import Typelib.Json.Decode
import Typelib.Json.Read

/-!
# Types of a description

A type as it is described: names are still names. Every level says whether it is passed by pointer.

* `Ty.ofFields?`: the type that the members of an object describe.
-/

namespace Typelib

/-- A type as it is described. -/
inductive Ty
  | scalar (kind : Scalar) (pointer : Bool)
  /-- An entry, by its name, which may be qualified by a namespace. -/
  | interface (name : String) (pointer : Bool)
  /-- `length` is the position of the parameter that holds the length. -/
  | array (element : Ty) (zeroTerminated : Bool) (length : Option UInt16) (pointer : Bool)
  | list (element : Ty) (pointer : Bool)
  | slist (element : Ty) (pointer : Bool)
  | hash (key value : Ty) (pointer : Bool)
  | error (domains : List String) (pointer : Bool)
  deriving DecidableEq, Repr

namespace Ty

def tag : Ty → TypeTag
  | scalar kind _ => .scalar kind
  | interface .. => .interface
  | array .. => .array
  | list .. => .list
  | slist .. => .slist
  | hash .. => .hash
  | error .. => .error

def pointer : Ty → Bool
  | scalar _ p | interface _ p | array _ _ _ p | list _ p | slist _ p | hash _ _ p | error _ p => p

/-! ### Reading -/

/-- The tags in the order in which a number may stand for them. -/
def tagOrder : List TypeTag :=
  Scalar.all.map .scalar ++ [.interface, .array, .list, .slist, .hash, .error]

/-- A tag, by its name or by its position in `tagOrder`. -/
def tag? : Json → Option TypeTag
  | .string s => tagOrder.find? fun tag => tag.name == s
  | .int n => if 0 ≤ n then tagOrder[n.toNat]? else none
  | _ => none

/-- The type with a tag, from the members of its object. The fuel bounds the nesting. -/
def ofFields? : Nat → Json.Fields → Option Ty
  | 0, _ => none
  | fuel + 1, members => do
    let nested (fields : Json.Fields) (name : String) : Option Ty :=
      Field.required fields name fun
        | .object members _ => ofFields? fuel members
        | _ => none
    let common ← (Json.object members none).fields? ["pointer", "tag"]
    let pointer ← Field.flag common "pointer"
    match ← Field.required common "tag" tag? with
    | .scalar kind => return .scalar kind pointer
    | .interface => do
      let fields ← (Json.object members none).fields? ["name"]
      return .interface (← Field.required fields "name" Json.string?) pointer
    | .array => do
      let fields ← (Json.object members none).fields? ["element", "zero_terminated", "length"]
      return .array (← nested fields "element") (← Field.flag fields "zero_terminated")
        (← Field.optional fields "length" Json.uint16?) pointer
    | .list => do
      let fields ← (Json.object members none).fields? ["element"]
      return .list (← nested fields "element") pointer
    | .slist => do
      let fields ← (Json.object members none).fields? ["element"]
      return .slist (← nested fields "element") pointer
    | .hash => do
      let fields ← (Json.object members none).fields? ["key", "value"]
      return .hash (← nested fields "key") (← nested fields "value") pointer
    | .error => do
      let fields ← (Json.object members none).fields? ["domains"]
      return .error (← Field.list fields "domains" Json.string?) pointer

/-- The type that a value describes. -/
def ofJson? : Json → Option Ty
  | .object members _ => ofFields? (Json.nestingLimit + 1) members
  | _ => none

end Ty

end Typelib
