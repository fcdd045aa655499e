import Typelib.Json.Basic

/-!
# Values with a meaning

Decoders take a value that was read whole to what it stands for, or to nothing. A record may be
written as an object, with members in any order, or as a list of its members in the declared order.
Members that the record does not know are ignored; a known one must not be repeated.

* `Json.fields?`: the known members of a record;
* `Field.required`, `Field.optional`, `Field.withDefault`: one member.
-/

namespace Typelib

namespace Json

def string? : Json → Option String
  | string s => some s
  | _ => none

def bool? : Json → Option Bool
  | bool b => some b
  | _ => none

/-- An integer from `lo` to `hi`. -/
def intIn? (lo hi : Int) : Json → Option Int
  | int n => if lo ≤ n ∧ n ≤ hi then some n else none
  | _ => none

def uint8? (j : Json) : Option UInt8 := (j.intIn? 0 255).map fun n => .ofNat n.toNat

def uint16? (j : Json) : Option UInt16 := (j.intIn? 0 65535).map fun n => .ofNat n.toNat

def int32? (j : Json) : Option Int32 := (j.intIn? (-0x80000000) 0x7fffffff).map .ofInt

def int64? (j : Json) : Option Int64 := (j.intIn? (-0x8000000000000000) 0x7fffffffffffffff).map .ofInt

/-- A list of values of one kind. -/
def list? {α : Type} (decode : Json → Option α) : Json → Option (List α)
  | array items _ => items.mapM decode
  | _ => none

/-- A value that may be null. -/
def nullable? {α : Type} (decode : Json → Option α) : Json → Option (Option α)
  | null => some none
  | j => (decode j).map some

/-- One of a few named values: the name alone, or an object with the name as its only key and nothing
behind it. -/
def choice? {α : Type} (choices : List (String × α)) : Json → Option α
  | string s => choices.lookup s
  | object [(key, null)] _ => choices.lookup key
  | object [(key, object [] _)] _ => choices.lookup key
  | _ => none

/-- The known members of a record. -/
abbrev Fields := List (String × Json)

/-- No key occurs twice among the known ones. -/
def noRepeats (known : List String) (members : Fields) : Bool :=
  known.all fun name => (members.filter fun member => member.1 == name).length ≤ 1

/-- The known members of a record that is written as an object or as a list. -/
def fields? (known : List String) : Json → Option Fields
  | object members _ => if noRepeats known members then some members else none
  | array items _ => if items.length ≤ known.length then some (known.zip items) else none
  | _ => none

end Json

namespace Field

variable {α : Type}

/-- A member that must be there. -/
def required (fields : Json.Fields) (name : String) (decode : Json → Option α) : Option α :=
  (fields.lookup name).bind decode

/-- A member that may be missing. -/
def withDefault (fields : Json.Fields) (name : String) (default : α) (decode : Json → Option α) :
    Option α :=
  match fields.lookup name with
  | none => some default
  | some j => decode j

/-- A member that may be missing or null. -/
def optional (fields : Json.Fields) (name : String) (decode : Json → Option α) :
    Option (Option α) :=
  withDefault fields name none (Json.nullable? decode)

/-- A flag, which is not set when it is missing. -/
def flag (fields : Json.Fields) (name : String) : Option Bool :=
  withDefault fields name false Json.bool?

/-- A list, which is empty when it is missing. -/
def list (fields : Json.Fields) (name : String) (decode : Json → Option α) : Option (List α) :=
  withDefault fields name [] (Json.list? decode)

end Field

end Typelib
