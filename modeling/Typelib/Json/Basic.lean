/-!
# JSON values, as far as they could be read

A document is read to a tree even if it is broken: where reading stopped, the tree tells why. So the
first problem of a document, in reading order, can be found after the fact, and problems of form and
problems of meaning are put in one order.

* `Fault`: why a document was refused;
* `Json.fault?`: the first problem inside a value.
-/

namespace Typelib

/-- Why a document was refused. -/
inductive Fault
  /-- The text ended early. -/
  | unfinished
  /-- The text is not JSON, or is nested too deeply. -/
  | malformed
  /-- The text is JSON, but does not say what it should. -/
  | mismatched
  deriving DecidableEq, Repr

/-- A value as it was read. -/
inductive Json
  | null
  | bool (b : Bool)
  | int (n : Int)
  /-- A number with a fraction or an exponent, or one that no 64-bit word holds. -/
  | fraction
  | string (s : String)
  /-- A list, and the problem that ended it early. -/
  | array (items : List Json) (cut : Option Fault)
  /-- The members in writing order, and the problem that ended them early. -/
  | object (members : List (String × Json)) (cut : Option Fault)
  /-- Reading stopped here. -/
  | broken (fault : Fault)

namespace Json

mutual

/-- The first problem inside a value, in reading order. -/
def fault? : Json → Option Fault
  | broken fault => some fault
  | array items cut => itemsFault? items cut
  | object members cut => membersFault? members cut
  | _ => none

/-- The first problem of a list with a given ending. -/
def itemsFault? : List Json → Option Fault → Option Fault
  | [], cut => cut
  | item :: items, cut =>
    match item.fault? with
    | some fault => some fault
    | none => itemsFault? items cut

/-- The first problem of a member list with a given ending. -/
def membersFault? : List (String × Json) → Option Fault → Option Fault
  | [], cut => cut
  | (_, value) :: members, cut =>
    match value.fault? with
    | some fault => some fault
    | none => membersFault? members cut

end

/-- The value, unless a problem is found inside it. -/
def whole (j : Json) : Except Fault Json :=
  match j.fault? with
  | some fault => .error fault
  | none => .ok j

end Json

end Typelib
