import Typelib.Proofs.Json.Grammar

/-!
# Scanning strings and numbers

What the grammar spells is what the scanners take off the front of a text, whatever follows: a
string ends at its closing quote, and a number where a character follows that cannot continue it.

* `Json.stringLoop_quoted`, `Json.skipString_quoted`: a string is read and is passed over;
* `Json.number_natural`, `Json.number_negative`, `Json.skipNumber_digits`: so is a whole number.
-/

namespace Typelib.Json

variable {s text ws digits rest cs ds acc : List Char} {c : Char} {n fuel : Nat}

/-! ### Blanks -/

theorem isBlank_iff : isBlank c = true ↔ c = ' ' ∨ c = '\n' ∨ c = '\t' ∨ c = '\r' := by
  simp only [isBlank, Bool.or_eq_true, beq_iff_eq, or_assoc]

theorem dropBlanks_blank (h : Blank ws) : dropBlanks (ws ++ cs) = dropBlanks cs :=
  List.dropWhile_append_of_pos fun c hc => isBlank_iff.2 (h c hc)

theorem dropBlanks_solid (h : isBlank c = false) : dropBlanks (c :: cs) = c :: cs :=
  List.dropWhile_cons_of_neg (by simp [h])

/-! ### Strings -/

theorem hexValue?_digit : ∀ n < 16, hexValue? (Text.hexDigit n) = some n ∧
    hexValue? (Text.hexDigit n).toUpper = some n := by decide

theorem HexDigit.hexValue? (h : HexDigit c n) : hexValue? c = some n := by
  obtain ⟨hn, rfl | rfl⟩ := h
  · exact (hexValue?_digit n hn).1
  · exact (hexValue?_digit n hn).2

theorem FourDigits.hex4 (h : FourDigits n digits) : hex4 (digits ++ rest) = .ok (n, rest) := by
  cases h with
  | digits h₃ h₂ h₁ h₀ =>
    simp only [Json.hex4, List.cons_append, List.nil_append, h₃.hexValue?, h₂.hexValue?,
      h₁.hexValue?, h₀.hexValue?]

/-- No character is a surrogate. -/
theorem surrogate_char (c : Char) :
    isLowSurrogate c.toNat = false ∧ isHighSurrogate c.toNat = false := by
  have hc : c.toNat < 0xD800 ∨ 0xDFFF < c.toNat ∧ c.toNat < 0x110000 := c.valid
  simp only [isLowSurrogate, isHighSurrogate, Bool.and_eq_false_iff, decide_eq_false_iff_not]
  omega

theorem unicodeEscape_digits (h : FourDigits c.toNat digits) :
    unicodeEscape (digits ++ rest) = .ok (c, rest) := by
  obtain ⟨hlow, hhigh⟩ := surrogate_char c
  simp only [unicodeEscape, h.hex4, bind, Except.bind, hlow, hhigh, Bool.false_eq_true, if_false,
    Char.ofNat_toNat]

theorem unicodeEscape_pair {high low : List Char} (hc : 0x10000 ≤ c.toNat)
    (hhigh : FourDigits (0xD800 + (c.toNat - 0x10000) / 0x400) high)
    (hlow : FourDigits (0xDC00 + (c.toNat - 0x10000) % 0x400) low) :
    unicodeEscape (high ++ '\\' :: 'u' :: (low ++ rest)) = .ok (c, rest) := by
  have hvalid : c.toNat < 0xD800 ∨ 0xDFFF < c.toNat ∧ c.toNat < 0x110000 := c.valid
  have hfirst : isLowSurrogate (0xD800 + (c.toNat - 0x10000) / 0x400) = false ∧
      isHighSurrogate (0xD800 + (c.toNat - 0x10000) / 0x400) = true := by
    simp only [isLowSurrogate, isHighSurrogate, Bool.and_eq_false_iff, Bool.and_eq_true,
      decide_eq_false_iff_not, decide_eq_true_eq]
    omega
  have hsecond : isLowSurrogate (0xDC00 + (c.toNat - 0x10000) % 0x400) = true := by
    simp only [isLowSurrogate, Bool.and_eq_true, decide_eq_true_eq]
    omega
  have hsum : 0x10000 + (0xD800 + (c.toNat - 0x10000) / 0x400 - 0xD800) * 0x400 +
      (0xDC00 + (c.toNat - 0x10000) % 0x400 - 0xDC00) = c.toNat := by omega
  simp only [unicodeEscape, hhigh.hex4, hlow.hex4, bind, Except.bind, hfirst, hsecond,
    Bool.false_eq_true, if_false, if_true, hsum, Char.ofNat_toNat]

theorem escape?_short :
    ∀ p ∈ shortEscapes, p.1 ≠ 'u' ∧ escape? p.1 = some p.2 := by decide

theorem Piece.length_pos {piece : List Char} (h : Piece c piece) : 0 < piece.length := by
  cases h <;> exact Nat.zero_lt_succ _

theorem stringLoop_piece {piece : List Char} (h : Piece c piece) :
    stringLoop (fuel + 1) acc (piece ++ cs) = stringLoop fuel (c :: acc) cs := by
  cases h with
  | plain hquote hslash hcontrol =>
    rw [List.singleton_append, stringLoop.eq_def]
    simp only [hquote, hslash, Nat.not_lt.2 hcontrol, if_false]
  | @short e he =>
    obtain ⟨hu, hescape⟩ := escape?_short _ he
    rw [List.cons_append, List.singleton_append, stringLoop, if_neg (by decide), if_pos rfl]
    simp only [hu, hescape, if_false]
  | unicode hd =>
    rw [List.cons_append, List.cons_append, stringLoop, if_neg (by decide), if_pos rfl]
    simp only [if_true, unicodeEscape_digits hd]
  | pair hc hhigh hlow =>
    rw [List.cons_append, List.cons_append, List.append_assoc, List.cons_append, List.cons_append,
      stringLoop, if_neg (by decide), if_pos rfl]
    simp only [if_true, unicodeEscape_pair hc hhigh hlow]

/-- A string is read to its closing quote. -/
theorem stringLoop_quoted (h : Quoted s text) (hfuel : text.length < fuel) :
    stringLoop fuel acc (text ++ '"' :: rest) = .ok (String.ofList (acc.reverse ++ s), rest) := by
  induction h generalizing fuel acc with
  | nil =>
    obtain ⟨fuel, rfl⟩ := Nat.exists_eq_add_of_lt hfuel
    simp [stringLoop]
  | cons hc h ih =>
    have hpos := hc.length_pos
    rw [List.length_append] at hfuel
    obtain ⟨fuel, rfl⟩ := Nat.exists_eq_add_of_lt (Nat.zero_lt_of_lt hfuel)
    rw [List.append_assoc, stringLoop_piece hc, ih (by omega), List.reverse_cons,
      List.append_assoc, List.singleton_append]

theorem skipString_digits (h : FourDigits n digits) :
    skipString (fuel + 1) ('\\' :: 'u' :: (digits ++ cs)) = skipString fuel cs := by
  rw [skipString, if_neg (by decide), if_pos rfl]
  simp only [if_true, h.hex4]

/-- A pair of surrogates is passed over in two steps. -/
theorem skipString_piece {piece : List Char} (h : Piece c piece) (hfuel : piece.length ≤ fuel) :
    ∃ left, fuel ≤ left + piece.length ∧
      skipString fuel (piece ++ cs) = skipString left cs := by
  have hpos := h.length_pos
  obtain ⟨fuel, rfl⟩ := Nat.exists_eq_add_of_lt (Nat.lt_of_lt_of_le hpos hfuel)
  rw [Nat.zero_add] at hfuel ⊢
  cases h with
  | plain hquote hslash hcontrol =>
    refine ⟨fuel, Nat.le_refl _, ?_⟩
    rw [List.singleton_append, skipString.eq_def]
    simp only [hquote, hslash, Nat.not_lt.2 hcontrol, if_false]
  | @short e he =>
    obtain ⟨hu, hescape⟩ := escape?_short _ he
    refine ⟨fuel, Nat.le_succ _, ?_⟩
    rw [List.cons_append, List.singleton_append, skipString, if_neg (by decide), if_pos rfl]
    simp only [hu, hescape, if_false, Option.isSome_some, if_true]
  | unicode hd =>
    refine ⟨fuel, ?_, skipString_digits hd⟩
    simp only [List.length_cons]
    omega
  | pair hc hhigh hlow =>
    simp only [List.length_cons, List.length_append] at hfuel ⊢
    obtain ⟨left, rfl⟩ : ∃ left, fuel = left + 1 := ⟨fuel - 1, by omega⟩
    refine ⟨left, by omega, ?_⟩
    rw [List.cons_append, List.cons_append, List.append_assoc, skipString_digits hhigh,
      List.cons_append, List.cons_append, skipString_digits hlow]

/-- A string is passed over to its closing quote. -/
theorem skipString_quoted (h : Quoted s text) (hfuel : text.length < fuel) :
    skipString fuel (text ++ '"' :: rest) = .ok ((), rest) := by
  induction h generalizing fuel with
  | nil =>
    obtain ⟨fuel, rfl⟩ := Nat.exists_eq_add_of_lt hfuel
    simp [skipString]
  | cons hc h ih =>
    rw [List.length_append] at hfuel
    have hlen := Nat.le_of_lt (Nat.lt_of_le_of_lt (Nat.le_add_right ..) hfuel)
    obtain ⟨left, hleft, hskip⟩ := skipString_piece hc hlen
    rw [List.append_assoc, hskip]
    exact ih (by omega)

/-! ### Numbers -/

/-- What follows a number does not continue it. -/
def Ends (rest : List Char) : Prop :=
  ∀ c ∈ rest.head?, isDigit c = false ∧ c ≠ '.' ∧ c ≠ 'e' ∧ c ≠ 'E'

theorem isDigit_eq (c : Char) : isDigit c = c.isDigit := rfl

theorem ne_of_isDigit (h : isDigit c = true) : ∀ d, isDigit d = false → c ≠ d := by
  rintro d hd rfl
  rw [h] at hd
  cases hd

theorem Ends.of_cons (h : isDigit c = false ∧ c ≠ '.' ∧ c ≠ 'e' ∧ c ≠ 'E') : Ends (c :: rest) := by
  rintro _ ⟨⟩
  exact h

/-- A blank ends a number. -/
theorem Ends.blank (hws : Blank ws) (h : Ends rest) : Ends (ws ++ rest) := by
  cases ws with
  | nil => exact h
  | cons c ws =>
    rw [List.cons_append]
    refine .of_cons ?_
    obtain rfl | rfl | rfl | rfl := hws c List.mem_cons_self <;> decide

theorem Ends.takeWhile (h : Ends rest) (hds : ∀ d ∈ ds, isDigit d = true) :
    (ds ++ rest).takeWhile isDigit = ds ∧ (ds ++ rest).dropWhile isDigit = rest := by
  rw [List.takeWhile_append_of_pos hds, List.dropWhile_append_of_pos hds]
  cases rest with
  | nil => simp
  | cons c rest => simp [(h c rfl).1]

theorem integerDigits_digits (hds : Decimal.Digits ds n) (hleads : Decimal.Leads ds)
    (hrest : Ends rest) : integerDigits (ds ++ rest) = .ok (ds, rest) := by
  obtain ⟨d, ds, rfl⟩ := List.exists_cons_of_ne_nil hds.ne_nil
  have hdigits := hds.isDigit
  rw [List.forall_mem_cons] at hdigits
  rw [List.cons_append]
  by_cases hzero : d = '0'
  · subst hzero
    obtain rfl : ds = [] := List.tail_eq_of_cons_eq (hleads rfl)
    cases rest with
    | nil => rfl
    | cons c rest => simp [integerDigits, (hrest c rfl).1]
  · obtain ⟨htake, hdrop⟩ := hrest.takeWhile hdigits.2
    simp [integerDigits, hzero, isDigit_eq, hdigits.1, htake, hdrop]

theorem fractionDigits?_ends (h : Ends rest) : fractionDigits? rest = .ok (none, rest) := by
  cases rest with
  | nil => rfl
  | cons c rest => simp [fractionDigits?, (h c rfl).2.1]

theorem exponentDigits?_ends (h : Ends rest) : exponentDigits? rest = .ok (none, rest) := by
  cases rest with
  | nil => rfl
  | cons c rest => simp [exponentDigits?, (h c rfl).2.2]

theorem le_ofDigitChars (ds : List Char) (n : Nat) : n ≤ Nat.ofDigitChars 10 ds n := by
  induction ds generalizing n with
  | nil => exact Nat.le_refl n
  | cons d ds ih => exact Nat.le_trans (by omega) (ih (10 * n + (d.toNat - 48)))

/-- Digits that a word holds are taken together. -/
theorem significand_eq (h : Nat.ofDigitChars 10 ds n < UInt64.size) :
    significand n ds = (Nat.ofDigitChars 10 ds n, []) := by
  induction ds generalizing n with
  | nil => rfl
  | cons d ds ih =>
    have hstep : Nat.ofDigitChars 10 (d :: ds) n =
        Nat.ofDigitChars 10 ds (n * 10 + (d.toNat - 48)) := by
      rw [Nat.mul_comm]
      rfl
    rw [hstep] at h ⊢
    rw [← ih h]
    exact if_pos (Nat.lt_of_le_of_lt (le_ofDigitChars ..) h)

theorem tooLarge_digits (hds : Decimal.Digits ds n) (hn : n < UInt64.size) :
    tooLarge ds [] 0 = false := by
  have hvalue := hds.value
  subst hvalue
  rw [tooLarge, significand_eq hn]
  simp [significand]

theorem number_digits {negative : Bool} (hds : Decimal.Digits ds n) (hleads : Decimal.Leads ds)
    (hn : n < UInt64.size) (hrest : Ends rest) :
    number negative (ds ++ rest) = .ok (integer negative ds, rest) := by
  simp only [number, integerDigits_digits hds hleads hrest, fractionDigits?_ends hrest,
    exponentDigits?_ends hrest, bind, Except.bind, Option.getD_none, tooLarge_digits hds hn,
    Option.isSome_none, Bool.or_self, Bool.false_eq_true, if_false]

theorem decimalValue_digits (hds : Decimal.Digits ds n) : decimalValue ds = n :=
  (Decimal.digitsValue_eq ds).trans hds.value

/-- A whole number is read, with a sign in front of it or without. -/
theorem number_natural (hds : Decimal.Digits ds n) (hleads : Decimal.Leads ds)
    (hn : n < UInt64.size) (hrest : Ends rest) :
    number false (ds ++ rest) = .ok (.int n, rest) := by
  rw [number_digits hds hleads hn hrest, integer, decimalValue_digits hds]
  simp [hn]

theorem number_negative (hds : Decimal.Digits ds n) (hleads : Decimal.Leads ds) (hpos : 0 < n)
    (hn : n ≤ UInt64.size / 2) (hrest : Ends rest) :
    number true (ds ++ rest) = .ok (.int (-n), rest) := by
  rw [number_digits hds hleads (Nat.lt_of_le_of_lt hn (by decide)) hrest, integer,
    decimalValue_digits hds]
  simp [Nat.pos_iff_ne_zero.1 hpos, Nat.not_lt.2 hn]

theorem skipNumber_digits (hds : Decimal.Digits ds n) (hleads : Decimal.Leads ds)
    (hrest : Ends rest) : skipNumber (ds ++ rest) = .ok ((), rest) := by
  simp only [skipNumber, integerDigits_digits hds hleads hrest, fractionDigits?_ends hrest,
    exponentDigits?_ends hrest, bind, Except.bind]
  rfl

end Typelib.Json
