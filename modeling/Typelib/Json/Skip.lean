import Typelib.Json.Scan

/-!
# Passing over a JSON value

Members of a document that nobody asks for are passed over. Their form is checked, but they may be
nested to any depth, their surrogates need not come in pairs, and their numbers may be of any size;
a number that breaks off is malformed wherever it does so.

Open brackets are kept in a list instead of the call stack, so that depth costs nothing.
-/

namespace Typelib.Json

/-- A bracket that is open. -/
inductive Bracket
  | list
  | object
  deriving DecidableEq, Repr

/-- What may stand next while a value is passed over. -/
inductive Expected
  /-- A value. -/
  | value
  /-- The first item or member of a bracket, or its end. -/
  | first
  /-- A comma, or the end of a bracket. -/
  | next
  deriving DecidableEq, Repr

/-- The characters of a string after its opening quote. -/
def skipString : Nat → Scan Unit
  | 0, _ => .error .unfinished
  | _ + 1, [] => .error .unfinished
  | fuel + 1, c :: cs =>
    if c = '"' then .ok ((), cs)
    else if c = '\\' then
      match cs with
      | [] => .error .unfinished
      | e :: cs =>
        if e = 'u' then
          match hex4 cs with
          | .ok (_, cs) => skipString fuel cs
          | .error fault => .error fault
        else if (escape? e).isSome then skipString fuel cs
        else .error .malformed
    else if c.toNat < 0x20 then .error .malformed
    else skipString fuel cs

/-- A number after its sign. -/
def skipNumber : Scan Unit := fun cs =>
  let scanned := do
    let (_, cs) ← integerDigits cs
    let (_, cs) ← fractionDigits? cs
    let (_, cs) ← exponentDigits? cs
    pure ((), cs)
  scanned.mapError fun _ => .malformed

/-- The key of a member and its colon. -/
def skipKey (fuel : Nat) : Scan Unit := fun cs =>
  match dropBlanks cs with
  | [] => .error .unfinished
  | c :: cs =>
    if c = '"' then do
      let (_, cs) ← skipString fuel cs
      match dropBlanks cs with
      | [] => .error .unfinished
      | c :: cs => if c = ':' then .ok ((), cs) else .error .malformed
    else .error .malformed

/-- A value that is no bracket, or the bracket that it opens. -/
def skipAtom (fuel : Nat) (c : Char) (cs : List Char) :
    Except Fault (Option Bracket × List Char) :=
  if c = '[' then .ok (some .list, cs)
  else if c = '{' then .ok (some .object, cs)
  else do
    let (_, cs) ←
      if c = 'n' then literal "ull".toList cs
      else if c = 't' then literal "rue".toList cs
      else if c = 'f' then literal "alse".toList cs
      else if c = '"' then skipString fuel cs
      else if c = '-' then skipNumber cs
      else if isDigit c then skipNumber (c :: cs)
      else .error .malformed
    .ok (none, cs)

/-- The character closes the bracket. -/
def Bracket.closedBy (b : Bracket) (c : Char) : Bool :=
  match b with
  | .list => c == ']'
  | .object => c == '}'

/-- Before a value inside a bracket: an object asks for a key. -/
def Bracket.lead (b : Bracket) (fuel : Nat) : Scan Unit := fun cs =>
  match b with
  | .list => .ok ((), cs)
  | .object => skipKey fuel cs

/-- Passes over the rest of a value inside the given open brackets, innermost first. -/
def skipLoop : Nat → Expected → List Bracket → List Char → Except Fault (List Char)
  | 0, _, _, _ => .error .unfinished
  | _ + 1, .next, [], cs => .ok cs
  | fuel + 1, expected, opened, cs =>
    match dropBlanks cs with
    | [] => .error .unfinished
    | c :: rest =>
      match expected, opened with
      | .first, b :: outer =>
        if b.closedBy c then skipLoop fuel .next outer rest
        else
          match b.lead fuel (c :: rest) with
          | .ok (_, cs) => skipLoop fuel .value (b :: outer) cs
          | .error fault => .error fault
      | .next, b :: outer =>
        if b.closedBy c then skipLoop fuel .next outer rest
        else if c = ',' then
          match b.lead fuel rest with
          | .ok (_, cs) => skipLoop fuel .value (b :: outer) cs
          | .error fault => .error fault
        else .error .malformed
      | _, opened =>
        match skipAtom fuel c rest with
        | .ok (none, cs) => skipLoop fuel .next opened cs
        | .ok (some b, cs) => skipLoop fuel .first (b :: opened) cs
        | .error fault => .error fault

/-- Passes over one value. -/
def skipValue (fuel : Nat) : Scan Unit := fun cs => do
  let rest ← skipLoop fuel .value [] cs
  pure ((), rest)

end Typelib.Json
