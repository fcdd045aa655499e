/-!
# Binary floating-point formats

A format of sign, exponent and significand, described by three numbers. Words are natural numbers;
all arithmetic is exact.
-/

namespace Typelib.Decimal

/-- A binary floating-point format. -/
structure Format where
  /-- Number of significant bits. -/
  precision : Nat
  /-- Number of bits of the exponent. -/
  exponentBits : Nat
  deriving DecidableEq, Repr

namespace Format

def single : Format := ⟨24, 8⟩

def double : Format := ⟨53, 11⟩

/-- Number of bits of a word. -/
def width (f : Format) : Nat := f.precision + f.exponentBits

/-- The power of two that the last bit of the smallest numbers stands for. -/
def minExponent (f : Format) : Int := 3 - (1 <<< (f.exponentBits - 1) : Nat) - f.precision

/-- The word of infinity. -/
def infinity (f : Format) : Nat := (1 <<< f.exponentBits - 1) <<< (f.precision - 1)

/-- The word of the quiet value that is not a number. -/
def nan (f : Format) : Nat := f.infinity + 1 <<< (f.precision - 2)

/-- The bit of the sign. -/
def signBit (f : Format) : Nat := 1 <<< (f.width - 1)

/-- The significand and the exponent of a finite word without its sign: the number is the
significand times two to the exponent. -/
def decode (f : Format) (word : Nat) : Nat × Int :=
  let hidden := 1 <<< (f.precision - 1)
  let exponent := word / hidden
  let fraction := word % hidden
  if exponent = 0 then (fraction, f.minExponent)
  else (hidden + fraction, f.minExponent + (exponent - 1 : Nat))

/-- The word of the number nearest to a positive quotient; a half goes to the even neighbour. -/
def nearest (f : Format) (num den : Nat) : Nat :=
  let guess : Int := (num.log2 : Int) - den.log2
  let below : Bool :=
    if 0 ≤ guess then num < den <<< guess.toNat else num <<< (-guess).toNat < den
  let top := if below then guess - 1 else guess
  let exponent := max (top - (f.precision - 1 : Nat)) f.minExponent
  let num := if exponent < 0 then num <<< (-exponent).toNat else num
  let den := if exponent < 0 then den else den <<< exponent.toNat
  let q := num / den
  let r := num % den
  let m := if 2 * r > den ∨ (2 * r = den ∧ q % 2 = 1) then q + 1 else q
  min f.infinity ((exponent - f.minExponent).toNat <<< (f.precision - 1) + m)

end Format

end Typelib.Decimal
