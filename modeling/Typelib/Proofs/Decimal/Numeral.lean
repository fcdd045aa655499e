import Typelib.Decimal.Literal

/-!
# Decimal numerals

The texts that stand for whole numbers: digits, with an optional sign in front. A number has many of
them, but only one without a plus and without zeros in front of its digits.

* `Decimal.Numeral`: the numerals of a number;
* `Decimal.standard_iff`: the one that is written.
-/

namespace Typelib.Decimal

variable {ds cs : List Char} {n : Nat}

/-- Decimal digits, at least one of them, and the number that they spell. -/
structure Digits (ds : List Char) (n : Nat) : Prop where
  ne_nil : ds ≠ []
  isDigit : ∀ d ∈ ds, d.isDigit = true
  value : Nat.ofDigitChars 10 ds 0 = n

/-- A numeral of a whole number. Only signed numbers know a minus. -/
inductive Numeral (signed : Bool) : List Char → Int → Prop
  | bare {ds : List Char} {n : Nat} : Digits ds n → Numeral signed ds n
  | plus {ds : List Char} {n : Nat} : Digits ds n → Numeral signed ('+' :: ds) n
  | minus {ds : List Char} {n : Nat} : signed = true → Digits ds n →
      Numeral signed ('-' :: ds) (-n)

/-- No zero stands in front of other digits. -/
def Leads (ds : List Char) : Prop := ds.head? = some '0' → ds = ['0']

/-- The numeral of a whole number without a plus and without zeros in front of its digits. -/
inductive Standard : List Char → Int → Prop
  | natural {ds : List Char} {n : Nat} : Digits ds n → Leads ds → Standard ds n
  | negative {ds : List Char} {n : Nat} : 0 < n → Digits ds n → Leads ds →
      Standard ('-' :: ds) (-n)

/-! ### Digits -/

theorem digitsValue_eq (ds : List Char) : digitsValue ds = Nat.ofDigitChars 10 ds 0 := by
  simp only [digitsValue, Nat.ofDigitChars_eq_foldl, Nat.mul_comm]

theorem digitChar_sub {c : Char} (h : c.isDigit = true) :
    c.toNat - 48 < 10 ∧ Nat.digitChar (c.toNat - 48) = c := by
  have hrange : 48 ≤ c.toNat ∧ c.toNat ≤ 57 := Char.isDigit_iff_toNat.1 h
  have hlt : c.toNat - 48 < 10 := by omega
  refine ⟨hlt, Char.toNat_inj.1 ?_⟩
  rw [Nat.toNat_digitChar_of_lt_ten hlt]
  omega

theorem digits_toDigits (n : Nat) : Digits (Nat.toDigits 10 n) n where
  ne_nil := Nat.toDigits_ne_nil
  isDigit _ h := Nat.isDigit_of_mem_toDigits (by decide) (by decide) h
  value := Nat.ofDigitChars_ten_toDigits

theorem leads_toDigits (n : Nat) : Leads (Nat.toDigits 10 n) := by
  induction n using Nat.strongRecOn with
  | ind n ih =>
    intro h
    by_cases hn : n < 10
    · rw [Nat.toDigits_of_lt_base hn] at h ⊢
      rw [List.head?_cons] at h
      rw [Option.some.inj h]
    · rw [Nat.toDigits_of_base_le (by decide) (by omega), List.head?_append,
        Option.or_of_isSome (by simp [Nat.toDigits_ne_nil])] at h
      -- the digits in front would be a zero, but the number is not that small
      have hzero := (digits_toDigits (n / 10)).value
      rw [ih (n / 10) (by omega) h] at hzero
      have hsmall : 0 = n / 10 := hzero
      omega

/-- Digits behind those of a number that is not zero make a larger number. -/
theorem toDigits_append (hds : ∀ d ∈ ds, d.isDigit = true) (hn : 0 < n) :
    Nat.toDigits 10 n ++ ds = Nat.toDigits 10 (Nat.ofDigitChars 10 ds n) := by
  induction ds generalizing n with
  | nil => simp
  | cons d ds ih =>
    rw [List.forall_mem_cons] at hds
    obtain ⟨hlt, hchar⟩ := digitChar_sub hds.1
    have hstep : Nat.toDigits 10 n ++ [d] = Nat.toDigits 10 (10 * n + (d.toNat - 48)) := by
      rw [← Nat.toDigits_append_toDigits (by decide) hn hlt, Nat.toDigits_of_lt_base hlt, hchar]
    rw [← List.singleton_append, ← List.append_assoc, hstep, ih hds.2 (by omega)]
    rfl

/-- A number is written with these digits and no others. -/
theorem digits_iff : Digits ds n ∧ Leads ds ↔ ds = Nat.toDigits 10 n := by
  constructor
  · rintro ⟨⟨hnil, hds, rfl⟩, hleads⟩
    obtain ⟨d, ds, rfl⟩ := List.exists_cons_of_ne_nil hnil
    by_cases hzero : d = '0'
    · subst hzero
      rw [hleads rfl]
      rfl
    · rw [List.forall_mem_cons] at hds
      obtain ⟨hlt, hchar⟩ := digitChar_sub hds.1
      have hpos : 0 < d.toNat - 48 := by
        refine Nat.pos_of_ne_zero fun h => hzero ?_
        rw [← hchar, h]
        rfl
      have hall := toDigits_append hds.2 hpos
      rw [Nat.toDigits_of_lt_base hlt, hchar] at hall
      rw [← List.singleton_append, hall]
      simp
  · rintro rfl
    exact ⟨digits_toDigits n, leads_toDigits n⟩

/-! ### Numerals -/

theorem exists_digits_iff {f : Nat → Int} {n : Int} : (∃ k, Digits ds k ∧ n = f k) ↔
    (ds.isEmpty = false ∧ ds.all isDigit = true) ∧ n = f (digitsValue ds) := by
  rw [List.isEmpty_eq_false_iff, List.all_eq_true, digitsValue_eq]
  constructor
  · rintro ⟨k, h, rfl⟩
    exact ⟨⟨h.ne_nil, h.isDigit⟩, congrArg f h.value.symm⟩
  · rintro ⟨⟨hnil, hds⟩, rfl⟩
    exact ⟨_, ⟨hnil, hds, rfl⟩, rfl⟩

theorem numeral_plus_iff {signed : Bool} {n : Int} :
    Numeral signed ('+' :: ds) n ↔ ∃ k, Digits ds k ∧ n = k := by
  constructor
  · rintro (h | h)
    · exact absurd (h.isDigit '+' List.mem_cons_self) (by decide)
    · exact ⟨_, h, rfl⟩
  · rintro ⟨k, h, rfl⟩
    exact .plus h

theorem numeral_minus_iff {signed : Bool} {n : Int} :
    Numeral signed ('-' :: ds) n ↔ signed = true ∧ ∃ k, Digits ds k ∧ n = -k := by
  constructor
  · rintro (h | h | ⟨hs, h⟩)
    · exact absurd (h.isDigit '-' List.mem_cons_self) (by decide)
    · exact ⟨hs, _, h, rfl⟩
  · rintro ⟨hs, k, h, rfl⟩
    exact .minus hs h

theorem numeral_bare_iff {signed : Bool} {n : Int} (hplus : ∀ ds, cs ≠ '+' :: ds)
    (hminus : ∀ ds, cs ≠ '-' :: ds) : Numeral signed cs n ↔ ∃ k, Digits cs k ∧ n = k := by
  constructor
  · rintro (h | h | ⟨-, -⟩)
    · exact ⟨_, h, rfl⟩
    · exact absurd rfl (hplus _)
    · exact absurd rfl (hminus _)
  · rintro ⟨k, h, rfl⟩
    exact .bare h

theorem toList_toString_natCast (n : Nat) : (toString (n : Int)).toList = Nat.toDigits 10 n := by
  rw [Int.toString_eq_repr, Int.repr_eq_if, if_pos (Int.natCast_nonneg n), Int.toNat_natCast,
    Nat.toList_repr]

theorem toList_toString_neg (hn : 0 < n) :
    (toString (-(n : Int))).toList = '-' :: Nat.toDigits 10 n := by
  rw [Int.toString_eq_repr, Int.repr_eq_if, if_neg (by omega), Int.neg_neg, Int.toNat_natCast,
    String.toList_append, Nat.toList_repr]
  rfl

/-- A whole number is written as this numeral and as no other. -/
theorem standard_iff {n : Int} : Standard cs n ↔ cs = (toString n).toList := by
  constructor
  · rintro (⟨hd, hl⟩ | ⟨hpos, hd, hl⟩)
    · rw [toList_toString_natCast, digits_iff.1 ⟨hd, hl⟩]
    · rw [toList_toString_neg hpos, digits_iff.1 ⟨hd, hl⟩]
  · rintro rfl
    obtain ⟨k, rfl | rfl⟩ := n.eq_nat_or_neg
    · rw [toList_toString_natCast]
      exact .natural (digits_toDigits k) (leads_toDigits k)
    · obtain rfl | hk := Nat.eq_zero_or_pos k
      · exact .natural (digits_toDigits 0) (leads_toDigits 0)
      · rw [toList_toString_neg hk]
        exact .negative hk (digits_toDigits k) (leads_toDigits k)

end Typelib.Decimal
