import Typelib.Json.Skip

/-!
# Reading JSON texts

`Json.read` reads a text to a tree. Reading goes on until the end of the text or the first problem;
the tree holds what was read and says why it ends. A text is nested at most 127 brackets deep.

Of the members of the outermost object, only those that the caller keeps are read; the others are
passed over.
-/

namespace Typelib.Json

/-- At most this many brackets may be open at once. -/
def nestingLimit : Nat := 127

/-- A value, and the text after it; no text if reading stopped inside the value. -/
abbrev Reading := Json × Option (List Char)

/-- Reading stops at a problem. -/
def stop (fault : Fault) : Reading := (.broken fault, none)

/-- What was scanned, as a reading. -/
def ofScan {α : Type} (f : α → Json) : Except Fault (α × List Char) → Reading
  | .ok (a, rest) => (f a, some rest)
  | .error fault => stop fault

/-- A value that is no bracket, with its first character. -/
def atom (fuel : Nat) (c : Char) (cs : List Char) : Reading :=
  if c = 'n' then ofScan (fun _ => .null) (literal "ull".toList cs)
  else if c = 't' then ofScan (fun _ => .bool true) (literal "rue".toList cs)
  else if c = 'f' then ofScan (fun _ => .bool false) (literal "alse".toList cs)
  else if c = '"' then ofScan .string (stringLoop fuel [] cs)
  else if c = '-' then ofScan id (number true cs)
  else if isDigit c then ofScan id (number false (c :: cs))
  else stop .malformed

/-- A list that ends here. -/
def endItems (acc : List Json) (cut : Option Fault) (rest : Option (List Char)) : Reading :=
  (.array acc.reverse cut, rest)

/-- An object that ends here. -/
def endMembers (acc : List (String × Json)) (cut : Option Fault) (rest : Option (List Char)) :
    Reading :=
  (.object acc.reverse cut, rest)

/-- The key of a member and its colon, behind the opening quote. A problem after the key leaves the key
with a broken value. -/
def key (fuel : Nat) (cs : List Char) :
    Except Fault (String × Except Fault (List Char)) := do
  let (k, cs) ← stringLoop fuel [] cs
  match dropBlanks cs with
  | [] => .ok (k, .error .unfinished)
  | c :: cs => .ok (k, if c = ':' then .ok cs else .error .malformed)

mutual

/-- A value inside brackets that leave room for `depth` more. -/
def value : Nat → Nat → List Char → Reading
  | 0, _, _ => stop .unfinished
  | fuel + 1, depth, cs =>
    match dropBlanks cs with
    | [] => stop .unfinished
    | c :: rest =>
      if c = '[' then
        match depth with
        | 0 => stop .malformed
        | depth + 1 => items fuel depth true [] rest
      else if c = '{' then
        match depth with
        | 0 => stop .malformed
        | depth + 1 => members fuel depth (fun _ => true) true [] rest
      else atom fuel c rest

/-- The items of a list from here on; those read so far come last first. -/
def items : Nat → Nat → Bool → List Json → List Char → Reading
  | 0, _, _, acc, _ => endItems acc (some .unfinished) none
  | fuel + 1, depth, first, acc, cs =>
    match nextItem first cs with
    | .error fault => endItems acc (some fault) none
    | .ok (false, rest) => endItems acc none (some rest)
    | .ok (true, cs) =>
      match value fuel depth cs with
      | (j, some rest) => items fuel depth false (j :: acc) rest
      | (j, none) => endItems (j :: acc) j.fault? none

/-- The members of an object from here on; those read so far come last first. Members with keys that
are not kept are passed over. -/
def members : Nat → Nat → (String → Bool) → Bool → List (String × Json) → List Char → Reading
  | 0, _, _, _, acc, _ => endMembers acc (some .unfinished) none
  | fuel + 1, depth, keep, first, acc, cs =>
    match nextMember first cs with
    | .error fault => endMembers acc (some fault) none
    | .ok (false, rest) => endMembers acc none (some rest)
    | .ok (true, cs) =>
      match key fuel cs with
      | .error fault => endMembers acc (some fault) none
      | .ok (k, .error fault) => endMembers ((k, .broken fault) :: acc) (some fault) none
      | .ok (k, .ok rest) =>
        if keep k then
          match value fuel depth rest with
          | (j, some rest) => members fuel depth keep false ((k, j) :: acc) rest
          | (j, none) => endMembers ((k, j) :: acc) j.fault? none
        else
          match skipValue fuel rest with
          | .ok (_, rest) => members fuel depth keep false acc rest
          | .error fault => endMembers acc (some fault) none

end

/-- Enough fuel for reading a text: nothing is read twice, and a bracket takes two steps. -/
def readingFuel (cs : List Char) : Nat := 2 * cs.length + 2

/-- A document: its value, and the problem behind it, if anything but blanks follows. Of an outermost
object, the members with kept keys are read. -/
def read (keep : String → Bool) (text : String) : Json × Option Fault :=
  let cs := text.toList
  let fuel := readingFuel cs
  let reading :=
    match dropBlanks cs with
    | '{' :: rest => members fuel (nestingLimit - 1) keep true [] rest
    | cs => value fuel nestingLimit cs
  match reading with
  | (j, none) => (j, none)
  | (j, some rest) => (j, if (dropBlanks rest).isEmpty then none else some .malformed)

end Typelib.Json
