import Mathlib.Algebra.Group.Int.Defs
import Mathlib.Algebra.Group.Nat.Defs
import Typelib.Build.Literal
import Typelib.Image.Value
import Typelib.Proofs.Decimal.Numeral

/-!
# Whole numbers as constants

A literal of an integer type is a numeral of a number in the range of the type. Its word is the number
in two's complement, and what is shown of the word is the number again.

* `Literal.integerBytes?_eq_some_iff`: the literals that are taken, and their bytes;
* `Value.scalar?_integer`: the bytes are shown as the number.
-/

namespace Typelib

/-- Whether the numbers of an integer type are signed, and the number of their bits. -/
def Scalar.integer? : Scalar → Option (Bool × Nat)
  | int8 => some (true, 8)
  | uint8 => some (false, 8)
  | int16 => some (true, 16)
  | uint16 => some (false, 16)
  | int32 | int => some (true, 32)
  | uint32 | uint => some (false, 32)
  | int64 | long | ssize => some (true, 64)
  | uint64 | ulong | size => some (false, 64)
  | void | boolean | float | double | utf8 | filename => none

/-- The numbers of so many bits. -/
def InRange (signed : Bool) (bits : Nat) (n : Int) : Prop :=
  if signed then -2 ^ (bits - 1) ≤ n ∧ n < 2 ^ (bits - 1) else 0 ≤ n ∧ n < 2 ^ bits

instance (signed : Bool) (bits : Nat) (n : Int) : Decidable (InRange signed bits n) :=
  inferInstanceAs (Decidable (if signed then _ else _))

variable {signed : Bool} {width bits : Nat} {n : Int} {kind : Scalar}

/-! ### Words -/

theorem byteSpan_eq_two_pow (width : Nat) : byteSpan width = 2 ^ (8 * width) :=
  (Nat.pow_mul 2 8 width).symm

theorem byteSpan_eq_double (h : 0 < width) :
    byteSpan width = 2 * 2 ^ (8 * width - 1) := by
  rw [byteSpan_eq_two_pow, ← Nat.pow_succ']
  congr 1
  omega

theorem inRange_signed (h : 0 < width) : InRange true (8 * width) n ↔
    -((byteSpan width : Int) / 2) ≤ n ∧ n < -((byteSpan width : Int) / 2) + byteSpan width := by
  have hspan := byteSpan_eq_double h
  have hhalf : ((2 ^ (8 * width - 1) : Nat) : Int) = 2 ^ (8 * width - 1) := by simp
  simp only [InRange, ↓reduceIte, ← hhalf]
  omega

theorem inRange_unsigned : InRange false (8 * width) n ↔ 0 ≤ n ∧ n < byteSpan width := by
  have hspan : ((byteSpan width : Nat) : Int) = 2 ^ (8 * width) := by
    simp [byteSpan_eq_two_pow]
  simp only [InRange, Bool.false_eq_true, ↓reduceIte, hspan]

/-- Numbers in range have words of their own. -/
theorem Value.signed_emod (h : 0 < width) (hn : InRange true (8 * width) n) :
    Value.signed width (n % byteSpan width).toNat = n := by
  rw [inRange_signed h] at hn
  have hspan := byteSpan_eq_double h
  rw [Value.signed]
  obtain hneg | hpos := Int.lt_or_le n 0
  · have hword : n % byteSpan width = n + byteSpan width := by
      rw [← Int.add_emod_right]
      exact Int.emod_eq_of_lt (by omega) (by omega)
    rw [hword, if_neg (by omega)]
    omega
  · rw [Int.emod_eq_of_lt hpos (by omega), if_pos (by omega)]
    omega

/-! ### Literals -/

namespace Literal

theorem digits_eq_some_iff {ds : List Char} {f : Nat → Int} :
    (if ds.isEmpty || !ds.all Decimal.isDigit then none
      else some (f (Decimal.digitsValue ds))) = some n ↔ ∃ k, Decimal.Digits ds k ∧ n = f k := by
  rw [Decimal.exists_digits_iff]
  cases ds.isEmpty <;> cases ds.all Decimal.isDigit <;> simp [eq_comm]

/-- A literal is taken for a number if it is a numeral of it. -/
theorem integer?_eq_some_iff {text : String} :
    integer? signed text = some n ↔ Decimal.Numeral signed text.toList n := by
  unfold integer?
  generalize text.toList = cs
  split
  next negative ds hsign =>
    split at hsign
    next ds =>
      cases hsign
      exact digits_eq_some_iff.trans Decimal.numeral_plus_iff.symm
    next ds =>
      rw [Decimal.numeral_minus_iff]
      cases signed <;> cases hsign
      · have hminus : Decimal.isDigit '-' = false := by decide
        simp [hminus]
      · rw [and_iff_right rfl]
        exact digits_eq_some_iff (f := fun k => -(k : Int))
    next hplus hminus =>
      cases hsign
      exact digits_eq_some_iff.trans (Decimal.numeral_bare_iff hplus hminus).symm

/-- A literal of an integer type is a numeral of a number in range, and its bytes are a word. -/
theorem integerBytes?_eq_some_iff {text : String} {bytes : List UInt8} (h : 0 < width) :
    integerBytes? signed width text = some bytes ↔
      ∃ n, Decimal.Numeral signed text.toList n ∧ InRange signed (8 * width) n ∧
        bytes = leBytes width (n % byteSpan width).toNat := by
  have hrange : ∀ n : Int, InRange signed (8 * width) n ↔
      (if signed then -((byteSpan width : Int) / 2) else 0) ≤ n ∧
        n < (if signed then -((byteSpan width : Int) / 2) else 0) + byteSpan width := by
    intro n
    cases signed
    · simpa using inRange_unsigned
    · exact inRange_signed h
  simp only [integerBytes?, Option.bind_eq_bind, Option.bind_eq_some_iff, integer?_eq_some_iff,
    hrange, Option.ite_none_right_eq_some, Option.some.injEq, eq_comm (a := bytes)]

end Literal

/-! ### Constants -/

/-- The number of a word, as text. -/
def Value.integerText (signed : Bool) (width m : Nat) : String :=
  if signed then toString (Value.signed width m) else toString m

/-- Constants of the type are words of a width. -/
structure Scalar.Words (kind : Scalar) (signed : Bool) (width : Nat) : Prop where
  pos : 0 < width
  bytes : ∀ value,
    Literal.bytes? kind value = Literal.integerBytes? signed width (Text.trim value)
  text : ∀ bytes,
    Value.scalar? kind bytes = Value.word? width (Value.integerText signed width) bytes

theorem Scalar.words (h : kind.integer? = some (signed, bits)) :
    ∃ width, bits = 8 * width ∧ kind.Words signed width := by
  refine ⟨bits / 8, ?_⟩
  cases kind <;> cases h <;> exact ⟨rfl, by decide, fun _ => rfl, fun _ => rfl⟩

theorem Value.word?_leBytes (text : Nat → String) (m : Nat) :
    word? width text (leBytes width m) = some (text (m % byteSpan width)) := by
  have htake : (leBytes width m).take width = leBytes width m :=
    List.take_of_length_le (Nat.le_of_eq (length_leBytes width m))
  rw [word?, length_leBytes, if_neg (Nat.lt_irrefl width), htake, leNat_leBytes]

/-- The word of a number in range is shown as the number. -/
theorem Scalar.Words.shown (h : kind.Words signed width) (hn : InRange signed (8 * width) n) :
    Value.scalar? kind (leBytes width (n % byteSpan width).toNat) = some (toString n) := by
  have hspan := byteSpan_eq_double h.pos
  have hpos : 0 < 2 ^ (8 * width - 1) := Nat.two_pow_pos _
  have hword : (n % byteSpan width).toNat % byteSpan width = (n % byteSpan width).toNat := by
    have hlt := Int.emod_lt_of_pos n (show (0 : Int) < byteSpan width by omega)
    exact Nat.mod_eq_of_lt (by omega)
  rw [h.text, Value.word?_leBytes, hword, Value.integerText]
  cases signed with
  | true => rw [if_pos rfl, Value.signed_emod h.pos hn]
  | false =>
    rw [inRange_unsigned] at hn
    obtain ⟨k, rfl⟩ := Int.eq_ofNat_of_zero_le hn.1
    rw [Int.emod_eq_of_lt hn.1 hn.2]
    rfl

end Typelib
