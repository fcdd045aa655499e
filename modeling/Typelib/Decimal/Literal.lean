import Typelib.Decimal.Format
import Typelib.Decimal.Power

/-!
# Decimal literals

A literal is a number with an optional sign, point and exponent, or the name of infinity or of the
value that is no number, in any case. `Format.ofLiteral?` rounds it to the nearest word.
-/

namespace Typelib.Decimal

def isDigit (c : Char) : Bool := '0' ≤ c && c ≤ '9'

/-- The number that decimal digits spell. -/
def digitsValue (ds : List Char) : Nat :=
  ds.foldl (fun n d => n * 10 + (d.toNat - '0'.toNat)) 0

/-- The sign and the text behind it; a plus may be left out. -/
def splitSign : List Char → Bool × List Char
  | '-' :: cs => (true, cs)
  | '+' :: cs => (false, cs)
  | cs => (false, cs)

/-- The number that the digits of an exponent spell. Digits are no longer taken in once it has
reached 65536. -/
def exponentValue (ds : List Char) : Nat :=
  ds.foldl (fun n d => if n < 65536 then n * 10 + (d.toNat - '0'.toNat) else n) 0

/-- The exponent behind the digits of a number, which may be left out. -/
def exponent? : List Char → Option Int
  | [] => some 0
  | c :: cs =>
    if c = 'e' ∨ c = 'E' then
      let (negative, ds) := splitSign cs
      if ds.isEmpty || !ds.all isDigit then none
      else some (if negative then -(exponentValue ds : Int) else exponentValue ds)
    else none

/-- The digits of a number without sign, as a whole number, and the power of ten that scales it. -/
def unsigned? (cs : List Char) : Option (Nat × Int) :=
  let whole := cs.takeWhile isDigit
  let (places, rest) := match cs.dropWhile isDigit with
    | '.' :: rest => (rest.takeWhile isDigit, rest.dropWhile isDigit)
    | rest => ([], rest)
  if whole.isEmpty && places.isEmpty then none
  else (exponent? rest).map fun e => (digitsValue (whole ++ places), e - places.length)

namespace Format

/-- The word nearest to a whole number times a power of ten. Numbers beyond all words are told by
their number of digits alone. -/
def ofScaled (f : Format) (n : Nat) (e : Int) : Nat :=
  if n = 0 then 0
  else
    let digits : Int := (Nat.toDigits 10 n).length
    if 400 < e + digits then f.infinity
    else if e + digits < -400 then 0
    else if 0 ≤ e then f.nearest (n * tenTo e.toNat) 1
    else f.nearest n (tenTo (-e).toNat)

/-- The word of a literal without sign. -/
def ofUnsigned? (f : Format) (cs : List Char) : Option Nat :=
  match unsigned? cs with
  | some (n, e) => some (f.ofScaled n e)
  | none =>
    let word := String.ofList (cs.map Char.toLower)
    if word = "inf" ∨ word = "infinity" then some f.infinity
    else if word = "nan" then some f.nan
    else none

/-- The word of a literal. -/
def ofLiteral? (f : Format) (text : String) : Option Nat :=
  let (negative, cs) := splitSign text.toList
  (f.ofUnsigned? cs).map fun word => if negative then f.signBit + word else word

end Format

end Typelib.Decimal
