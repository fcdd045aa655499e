import Typelib.Json.Decode
import Typelib.Json.Read

/-!
# Meaning in reading order

A value that was read as far as possible is taken to its meaning part by part, so that the first
problem in reading order decides what is wrong with it, be it one of form or one of meaning.
-/

namespace Typelib.Json

/-- A value that says what it should, or the problem of it. -/
def meant {α : Type} (decode : Json → Option α) (j : Json) : Except Fault α :=
  match j with
  | broken fault => .error fault
  | j =>
    match decode j with
    | some a => .ok a
    | none => .error .mismatched

/-- The value, if nothing went wrong before it. -/
def unlessCut {α : Type} (cut : Option Fault) (a : α) : Except Fault α :=
  match cut with
  | some fault => .error fault
  | none => .ok a

/-- A list, item by item. -/
def meantList {α : Type} (decode : Json → Except Fault α) : Json → Except Fault (List α)
  | broken fault => .error fault
  | array items cut => do
    let values ← items.mapM decode
    unlessCut cut values
  | _ => .error .mismatched

/-- What a text says: the problems of its value come before what follows the value. -/
def ofText {α : Type} (keep : String → Bool) (decode : Json → Except Fault α) (text : String) :
    Except Fault α := do
  let (j, trailing) := read keep text
  let a ← decode j
  unlessCut trailing a

/-- All members of a text are read. -/
def keepAll : String → Bool := fun _ => true

end Typelib.Json
