import Typelib.Decimal.Format
import Typelib.Decimal.Power

/-!
# The shortest decimal of a floating-point word

A number is written with the fewest digits that read back as the same word, without an exponent. Of
two such texts the nearer one is taken, and the larger one if they are equally near.
-/

namespace Typelib.Decimal

/-- The numbers that round to a word, in units of a quarter of its last bit; all three are scaled by
`num / den`. -/
structure Interval where
  low : Nat
  value : Nat
  high : Nat
  num : Nat
  den : Nat
  /-- The ends belong to the interval. -/
  closed : Bool

namespace Interval

/-- The interval of a positive finite word. It is lopsided at a power of two, below which words lie
twice as dense. -/
def ofWord (f : Format) (word : Nat) : Interval :=
  let (m, e) := f.decode word
  let lopsided : Bool := m == 1 <<< (f.precision - 1) && decide (f.minExponent < e)
  { low := 4 * m - if lopsided then 1 else 2
    value := 4 * m
    high := 4 * m + 2
    num := if e < 2 then 1 else 1 <<< (e - 2).toNat
    den := if e < 2 then 1 <<< (2 - e).toNat else 1
    closed := m % 2 == 0 }

/-- `n` times ten to the `e` lies in the interval. -/
def contains (i : Interval) (n : Nat) (e : Int) : Bool :=
  let a := (if 0 ≤ e then n * tenTo e.toNat else n) * i.den
  let s := (if 0 ≤ e then 1 else tenTo (-e).toNat) * i.num
  if i.closed then i.low * s ≤ a && a ≤ i.high * s else i.low * s < a && a < i.high * s

/-- The largest whole number that, times ten to the `e`, is not above the value. -/
def floorAt (i : Interval) (e : Int) : Nat :=
  if 0 ≤ e then i.value * i.num / (i.den * tenTo e.toNat)
  else i.value * i.num * tenTo (-e).toNat / i.den

/-- `n + 1` is at least as near to the value as `n`, both times ten to the `e`. -/
def nearerAbove (i : Interval) (n : Nat) (e : Int) : Bool :=
  let a := (if 0 ≤ e then (2 * n + 1) * tenTo e.toNat else 2 * n + 1) * i.den
  let s := (if 0 ≤ e then 1 else tenTo (-e).toNat) * i.num
  a ≤ 2 * i.value * s

/-- A whole number that, times ten to the `e`, reads back as the word. -/
def digitsAt? (i : Interval) (e : Int) : Option Nat :=
  let n := i.floorAt e
  match i.contains n e, i.contains (n + 1) e with
  | true, true => some (if i.nearerAbove n e then n + 1 else n)
  | true, false => some n
  | false, true => some (n + 1)
  | false, false => none

/-- Tries coarser grids before finer ones. -/
def search (i : Interval) : Nat → Int → Nat × Int
  | 0, e => (i.floorAt e, e)
  | steps + 1, e =>
    match i.digitsAt? e with
    | some n => (n, e)
    | none => search i steps (e - 1)

/-- The number of digits before the point, of a number of at least one. -/
def wholeDigits (i : Interval) : Nat := (Nat.toDigits 10 (i.floorAt 0)).length

/-- A power of ten above the value: not further above it than a few digits. -/
def topExponent (i : Interval) : Int :=
  if i.floorAt 0 = 0 then
    let inverse := i.den / (i.value * i.num)
    2 - ((Nat.toDigits 10 inverse).length : Int)
  else i.wholeDigits

/-- The shortest whole number and power of ten. -/
def shortest (i : Interval) : Nat × Int := i.search 40 i.topExponent

end Interval

/-- A whole number times a power of ten, without an exponent. -/
def positional (n : Nat) (e : Int) : String :=
  let ds := Nat.toDigits 10 n
  if 0 ≤ e then String.ofList (ds ++ List.replicate e.toNat '0')
  else
    let places := (-e).toNat
    let ds := List.replicate (places + 1 - ds.length) '0' ++ ds
    let whole := ds.take (ds.length - places)
    String.ofList (whole ++ '.' :: ds.drop whole.length)

namespace Format

/-- The text of a word. -/
def text (f : Format) (word : Nat) : String :=
  let negative := word / f.signBit % 2 == 1
  let word := word % f.signBit
  if f.infinity < word then "NaN"
  else
    let body :=
      if word = f.infinity then "inf"
      else if word = 0 then "0"
      else
        let (n, e) := (Interval.ofWord f word).shortest
        positional n e
    if negative then "-" ++ body else body

end Format

end Typelib.Decimal
