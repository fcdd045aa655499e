/-!
# Little-endian words

Every number of a typelib is stored least significant byte first. `leBytes w n` is the one encoder
and `leNat` the one decoder; the fixed widths are instances of them.

* `leNat_leBytes`: decoding what was encoded gives the number modulo `byteSpan w`;
* `leBytes_leNat`: encoding what was decoded gives the bytes back;
* `flagWord`: a word made of flags, one bit each, lowest first.
-/

namespace Typelib

/-- The bytes of a file. -/
abbrev Bytes := Array UInt8

/-- The `w` little-endian bytes of `n`; what does not fit is dropped. -/
def leBytes : Nat → Nat → List UInt8
  | 0, _ => []
  | w + 1, n => UInt8.ofNat n :: leBytes w (n / 256)

/-- The number with the given little-endian bytes. -/
def leNat : List UInt8 → Nat
  | [] => 0
  | b :: bs => b.toNat + 256 * leNat bs

@[simp] theorem length_leBytes (w n : Nat) : (leBytes w n).length = w := by
  induction w generalizing n with
  | zero => rfl
  | succ w ih => simp [leBytes, ih]

/-- How many numbers fit `w` bytes. -/
def byteSpan (w : Nat) : Nat := Nat.pow 256 w

theorem byteSpan_succ (w : Nat) : byteSpan (w + 1) = 256 * byteSpan w := Nat.pow_succ'

theorem leNat_leBytes (w n : Nat) : leNat (leBytes w n) = n % byteSpan w := by
  induction w generalizing n with
  | zero => exact (Nat.mod_one n).symm
  | succ w ih => simp only [leBytes, leNat, ih, UInt8.toNat_ofNat', byteSpan_succ, Nat.mod_mul]

theorem leNat_lt (bs : List UInt8) : leNat bs < byteSpan bs.length := by
  induction bs with
  | nil => exact Nat.zero_lt_one
  | cons b bs ih =>
    have := b.toNat_lt
    simp only [leNat, List.length_cons, byteSpan_succ]
    omega

theorem leBytes_leNat (bs : List UInt8) : leBytes bs.length (leNat bs) = bs := by
  induction bs with
  | nil => rfl
  | cons b bs ih =>
    have hb : b.toNat < 256 := b.toNat_lt
    have hdiv : (b.toNat + 256 * leNat bs) / 256 = leNat bs := by omega
    have hmod : UInt8.ofNat (b.toNat + 256 * leNat bs) = b := by
      apply UInt8.toNat_inj.mp
      rw [UInt8.toNat_ofNat']
      omega
    simp only [List.length_cons, leBytes, leNat, hdiv, hmod, ih]

/-- Bodies start at multiples of this many bytes. -/
def bodyAlign : Nat := 4

/-- The least multiple of `bodyAlign` not below `n`. -/
def alignUp (n : Nat) : Nat := (n + (bodyAlign - 1)) / bodyAlign * bodyAlign

theorem le_alignUp (n : Nat) : n ≤ alignUp n := by simp only [alignUp, bodyAlign]; omega

theorem alignUp_lt (n : Nat) : alignUp n < n + bodyAlign := by
  simp only [alignUp, bodyAlign]; omega

theorem alignUp_mod (n : Nat) : alignUp n % bodyAlign = 0 := by
  simp only [alignUp, bodyAlign]; omega

/-- The word whose bit `i` is the `i`-th flag. -/
def flagWord : List Bool → Nat
  | [] => 0
  | b :: bs => b.toNat + 2 * flagWord bs

theorem testBit_flagWord (bs : List Bool) (i : Nat) :
    (flagWord bs).testBit i = bs.getD i false := by
  induction bs generalizing i with
  | nil => simp [flagWord]
  | cons b bs ih =>
    cases i with
    | zero => cases b <;> simp [flagWord, Nat.testBit_zero]
    | succ i =>
      have : (b.toNat + 2 * flagWord bs) / 2 = flagWord bs := by
        have := Bool.toNat_lt b
        omega
      rw [flagWord, Nat.testBit_succ, this, ih, List.getD_cons_succ]

end Typelib
