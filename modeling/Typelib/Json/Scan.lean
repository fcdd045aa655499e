import Typelib.Decimal.Power
import Typelib.Json.Basic

/-!
# Scanning the parts of a JSON text

A `Scan` takes characters off the front of a text, or refuses it. Blanks, literal names, strings and
numbers are scanned here; `Typelib.Json.Read` puts values together.

Strings and numbers are scanned in two ways. One yields the value; the other, in `Json.Skip`, only
passes over it, and is more lenient: surrogates need not come in pairs, and numbers may be of any
size.
-/

namespace Typelib.Json

/-- What is read off the front of a text, and the rest of it. -/
abbrev Scan (α : Type) := List Char → Except Fault (α × List Char)

/-- The blanks that may stand between the parts of a document. -/
def isBlank (c : Char) : Bool := c == ' ' || c == '\n' || c == '\t' || c == '\r'

def dropBlanks (cs : List Char) : List Char := cs.dropWhile isBlank

/-- The letters that are left of a literal name. -/
def literal : List Char → Scan Unit
  | [], cs => .ok ((), cs)
  | _ :: _, [] => .error .unfinished
  | l :: ls, c :: cs => if c = l then literal ls cs else .error .malformed

/-! ### Brackets -/

/-- Before an item of a list: whether there is one, or the list ends here. -/
def nextItem (first : Bool) : Scan Bool := fun cs =>
  match dropBlanks cs with
  | [] => .error .unfinished
  | c :: rest =>
    if c = ']' then .ok (false, rest)
    else if first then .ok (true, c :: rest)
    else if c = ',' then
      let rest := dropBlanks rest
      if rest.head? = some ']' then .error .malformed else .ok (true, rest)
    else .error .malformed

/-- Before a member of an object: whether there is one, or the object ends here. The opening quote
of its key is taken as well. -/
def nextMember (first : Bool) : Scan Bool := fun cs =>
  match dropBlanks cs with
  | [] => .error .unfinished
  | c :: rest =>
    if c = '}' then .ok (false, rest)
    else if first = false ∧ c ≠ ',' then .error .malformed
    else
      match if first then c :: rest else dropBlanks rest with
      | [] => .error .unfinished
      | q :: rest => if q = '"' then .ok (true, rest) else .error .malformed

/-! ### Strings -/

/-- The value of a hexadecimal digit. -/
def hexValue? (c : Char) : Option Nat :=
  if '0' ≤ c ∧ c ≤ '9' then some (c.toNat - '0'.toNat)
  else if 'a' ≤ c ∧ c ≤ 'f' then some (c.toNat - 'a'.toNat + 10)
  else if 'A' ≤ c ∧ c ≤ 'F' then some (c.toNat - 'A'.toNat + 10)
  else none

/-- The four hexadecimal digits of an escape. The text counts as unfinished if fewer than four bytes
are left of it. -/
def hex4 (cs : List Char) : Except Fault (Nat × List Char) :=
  match cs with
  | a :: b :: c :: d :: rest =>
    match hexValue? a, hexValue? b, hexValue? c, hexValue? d with
    | some a, some b, some c, some d => .ok (((a * 16 + b) * 16 + c) * 16 + d, rest)
    | _, _, _, _ => .error .malformed
  | _ => .error (if 4 ≤ (String.ofList cs).utf8ByteSize then .malformed else .unfinished)

/-- The character that a one-letter escape stands for. -/
def escape? : Char → Option Char
  | '"' => some '"'
  | '\\' => some '\\'
  | '/' => some '/'
  | 'b' => some '\x08'
  | 'f' => some '\x0c'
  | 'n' => some '\n'
  | 'r' => some '\r'
  | 't' => some '\t'
  | _ => none

def isHighSurrogate (n : Nat) : Bool := 0xD800 ≤ n && n ≤ 0xDBFF

def isLowSurrogate (n : Nat) : Bool := 0xDC00 ≤ n && n ≤ 0xDFFF

/-- The character that a numeric escape stands for, after its backslash and letter. A high surrogate
must be followed by the escape of a low one. -/
def unicodeEscape (cs : List Char) : Except Fault (Char × List Char) := do
  let (n, rest) ← hex4 cs
  if isLowSurrogate n then .error .malformed
  else if isHighSurrogate n then
    match rest with
    | [] => .error .unfinished
    | '\\' :: [] => .error .unfinished
    | '\\' :: 'u' :: rest => do
      let (m, rest) ← hex4 rest
      if isLowSurrogate m then
        .ok (Char.ofNat (0x10000 + (n - 0xD800) * 0x400 + (m - 0xDC00)), rest)
      else .error .malformed
    | _ => .error .malformed
  else .ok (Char.ofNat n, rest)

/-- The characters of a string after its opening quote; those read so far come last first. The fuel
bounds the number of characters. -/
def stringLoop : Nat → List Char → Scan String
  | 0, _, _ => .error .unfinished
  | _ + 1, _, [] => .error .unfinished
  | fuel + 1, acc, c :: cs =>
    if c = '"' then .ok (String.ofList acc.reverse, cs)
    else if c = '\\' then
      match cs with
      | [] => .error .unfinished
      | e :: cs =>
        if e = 'u' then
          match unicodeEscape cs with
          | .ok (e, cs) => stringLoop fuel (e :: acc) cs
          | .error fault => .error fault
        else
          match escape? e with
          | some e => stringLoop fuel (e :: acc) cs
          | none => .error .malformed
    else if c.toNat < 0x20 then .error .malformed
    else stringLoop fuel (c :: acc) cs

/-! ### Numbers -/

def isDigit (c : Char) : Bool := '0' ≤ c && c ≤ '9'

/-- The number that decimal digits spell. -/
def decimalValue (ds : List Char) : Nat :=
  ds.foldl (fun n d => n * 10 + (d.toNat - '0'.toNat)) 0

/-- The integer part of a number. A zero stands alone. -/
def integerDigits : Scan (List Char)
  | [] => .error .unfinished
  | c :: cs =>
    if c = '0' then
      match cs with
      | [] => .ok ([c], cs)
      | d :: _ => if isDigit d then .error .malformed else .ok ([c], cs)
    else if isDigit c then .ok (c :: cs.takeWhile isDigit, cs.dropWhile isDigit)
    else .error .malformed

/-- One digit or more. -/
def someDigits : Scan (List Char)
  | [] => .error .unfinished
  | c :: cs =>
    if isDigit c then .ok (c :: cs.takeWhile isDigit, cs.dropWhile isDigit) else .error .malformed

/-- The digits after a point, if there is one. -/
def fractionDigits? : Scan (Option (List Char))
  | '.' :: cs => do
    let (ds, cs) ← someDigits cs
    .ok (some ds, cs)
  | cs => .ok (none, cs)

/-- The sign and the digits of an exponent, if there is one. -/
def exponentDigits? (cs : List Char) : Except Fault (Option (Bool × List Char) × List Char) :=
  match cs with
  | [] => .ok (none, [])
  | c :: rest =>
    if c = 'e' ∨ c = 'E' then do
      let (negative, rest) := match rest with
        | '-' :: rest => (true, rest)
        | '+' :: rest => (false, rest)
        | _ => (false, rest)
      let (ds, rest) ← someDigits rest
      .ok (some (negative, ds), rest)
    else .ok (none, cs)

/-- The leading digits that a 64-bit word holds, as a number, and the digits after them. -/
def significand : Nat → List Char → Nat × List Char
  | n, [] => (n, [])
  | n, d :: ds =>
    let m := n * 10 + (d.toNat - '0'.toNat)
    if m < UInt64.size then significand m ds else (n, d :: ds)

/-- The nearest number of at most 53 significant bits; a half goes to the even neighbour. -/
def roundTo53 (n : Nat) : Nat :=
  let excess := n.log2 - 52
  let unit := 1 <<< excess
  let q := n / unit
  let r := n % unit
  (if 2 * r > unit ∨ (2 * r = unit ∧ q % 2 = 1) then q + 1 else q) * unit

/-- A number is too large if its double-precision value is infinite. It is formed from the leading
digits that a word holds and a power of ten, both rounded to double precision. -/
def tooLarge (whole fraction : List Char) (exponent : Int) : Bool :=
  let (n, dropped) := significand 0 whole
  let (n, lost) := significand n fraction
  let scale := exponent + dropped.length + lost.length - fraction.length
  n != 0 && decide (0 < scale) &&
    (decide (308 < scale) ||
      decide (1 <<< 1024 - 1 <<< 970 ≤ roundTo53 n * roundTo53 (Decimal.tenTo scale.toNat)))

/-- The integer with the given digits, if a 64-bit word holds it. Minus zero counts as a fraction. -/
def integer (negative : Bool) (digits : List Char) : Json :=
  let n := decimalValue digits
  if negative then if n = 0 ∨ UInt64.size / 2 < n then .fraction else .int (-n)
  else if n < UInt64.size then .int n else .fraction

/-- A number after its sign. -/
def number (negative : Bool) : Scan Json := fun cs => do
  let (whole, cs) ← integerDigits cs
  let (places, cs) ← fractionDigits? cs
  let (exponent, cs) ← exponentDigits? cs
  let scale : Int := match exponent with
    | none => 0
    | some (down, ds) => if down then -(decimalValue ds : Int) else decimalValue ds
  if tooLarge whole (places.getD []) scale then .error .malformed
  else if places.isSome || exponent.isSome then .ok (.fraction, cs)
  else .ok (integer negative whole, cs)

end Typelib.Json
