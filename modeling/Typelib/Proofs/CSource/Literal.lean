import Typelib.CSource.Lexeme
import Typelib.Proofs.CSource.Reading

/-!
# String literals are read back

Each byte of a text is escaped by itself, and an escape is read as its byte whatever stands behind
it. Nothing in a literal begins a trigraph or a spliced line.

* `CSource.logical_escapes`: the first phases leave a literal as it is;
* `CSource.readString?_literal`: it is read as the bytes of the text;
* `CSource.printable_literal`: its characters are printable.
-/

namespace Typelib.CSource

/-! ### Escapes -/

theorem ofNat_toNat_char (b : UInt8) : UInt8.ofNat (Char.ofNat b.toNat).toNat = b := by
  have hvalid : b.toNat.isValidChar := Or.inl (by have := b.toNat_lt; omega)
  have hchar : (Char.ofNat b.toNat).toNat = b.toNat := by
    rw [Char.ofNat, dif_pos hvalid]
    rfl
  rw [hchar, UInt8.ofNat_toNat]

theorem octalDigit_spec (n : Nat) :
    isOctalDigit (octalDigit n) = true ∧ (octalDigit n).toNat = 48 + n % 8 ∧
      ' ' ≤ octalDigit n ∧ octalDigit n ≤ '~' ∧ octalDigit n ≠ '?' ∧ octalDigit n ≠ '\\' := by
  have hall : ∀ k < 8, isOctalDigit (Char.ofNat (48 + k)) = true ∧
      (Char.ofNat (48 + k)).toNat = 48 + k ∧ ' ' ≤ Char.ofNat (48 + k) ∧
        Char.ofNat (48 + k) ≤ '~' ∧ Char.ofNat (48 + k) ≠ '?' ∧ Char.ofNat (48 + k) ≠ '\\' := by
    decide
  exact hall (n % 8) (Nat.mod_lt n (by decide))

/-- A byte is escaped as a backslash with a character, as the character that it is, or in octal
digits. -/
theorem escape_cases (b : UInt8) :
    (∃ c, escape b = ['\\', c] ∧ simpleEscape? c = some b ∧ (c = '"' ∨ c = '\\' ∨ c = '?')) ∨
      (∃ c, escape b = [c] ∧ UInt8.ofNat c.toNat = b ∧ c ≠ '"' ∧ c ≠ '\\' ∧ c ≠ '?' ∧ ' ' ≤ c ∧
        c ≤ '~') ∨
      escape b = octalEscape b := by
  have hchar := ofNat_toNat_char b
  simp only [escape]
  generalize Char.ofNat b.toNat = c at hchar ⊢
  split_ifs with hspecial hprint
  · refine .inl ⟨c, rfl, ?_, hspecial⟩
    rw [← hchar]
    obtain rfl | rfl | rfl := hspecial <;> rfl
  · obtain ⟨hquote, hslash, hmark⟩ := by simpa only [not_or] using hspecial
    exact .inr (.inl ⟨c, rfl, hchar, hquote, hslash, hmark, hprint⟩)
  · exact .inr (.inr rfl)

theorem printable_escape (b : UInt8) : ∀ c ∈ escape b, ' ' ≤ c ∧ c ≤ '~' := by
  have hslash : ' ' ≤ '\\' ∧ '\\' ≤ '~' := by decide
  obtain ⟨c, h, -, rfl | rfl | rfl⟩ | ⟨c, h, -, -, -, -, hprint⟩ | h := escape_cases b
  · rw [h, List.forall_mem_cons, List.forall_mem_singleton]; decide
  · rw [h, List.forall_mem_cons, List.forall_mem_singleton]; decide
  · rw [h, List.forall_mem_cons, List.forall_mem_singleton]; decide
  · rw [h, List.forall_mem_singleton]
    exact hprint
  · have hdigit (n : Nat) : ' ' ≤ octalDigit n ∧ octalDigit n ≤ '~' :=
      ⟨(octalDigit_spec n).2.2.1, (octalDigit_spec n).2.2.2.1⟩
    simp only [h, octalEscape, List.forall_mem_cons, hslash, hdigit, List.not_mem_nil,
      false_imp_iff, implies_true, and_self]

/-! ### The literal in the first phases -/

/-- An escape neither begins like a line feed nor like a trigraph. -/
theorem head_escape (b : UInt8) : ∃ c cs, escape b = c :: cs ∧ c ≠ '?' ∧ c ≠ '\n' := by
  obtain ⟨c, h, -, -⟩ | ⟨c, h, -, -, -, hmark, hprint⟩ | h := escape_cases b
  · exact ⟨'\\', [c], h, by decide⟩
  · refine ⟨c, [], h, hmark, ?_⟩
    rintro rfl
    exact absurd hprint.1 (by decide)
  · exact ⟨'\\', _, h, by decide⟩

/-- What follows an escape may not make a trigraph of it, or a spliced line. -/
theorem logical_escape (b : UInt8) {tail : List Char}
    (htail : tail.head? ≠ some '?' ∧ tail.head? ≠ some '\n') :
    logical (escape b ++ tail) = escape b ++ logical tail := by
  obtain ⟨c, h, -, hspecial⟩ | ⟨c, h, -, -, hslash, hmark, -⟩ | h := escape_cases b
  · have hslash : logical ('\\' :: c :: tail) = '\\' :: logical (c :: tail) := by
      refine logical_cons (absurd · (by decide)) fun _ => ?_
      obtain rfl | rfl | rfl := hspecial <;> simp
    rw [h, List.cons_append, List.cons_append, List.nil_append, hslash,
      logical_cons (fun _ => htail.1) fun _ => htail.2]
    rfl
  · exact logical_append (by simp [h, Plain, hslash, hmark]) tail
  · have hslash (n : Nat) (cs : List Char) :
        logical ('\\' :: octalDigit n :: cs) = '\\' :: logical (octalDigit n :: cs) := by
      refine logical_cons (absurd · (by decide)) fun _ hnewline => ?_
      have hprint := (octalDigit_spec n).2.2.1
      rw [Option.some.inj hnewline] at hprint
      exact absurd hprint (by decide)
    rw [h, octalEscape, List.cons_append, List.cons_append, hslash, ← List.cons_append,
      logical_append (by simp [Plain, octalDigit_spec])]
    rfl

theorem logical_escapes (bytes : List UInt8) (rest : List Char) :
    logical (bytes.flatMap escape ++ '"' :: rest) =
      bytes.flatMap escape ++ '"' :: logical rest := by
  induction bytes with
  | nil => exact logical_plain (by decide) rest
  | cons b bs ih =>
    have htail : (bs.flatMap escape ++ '"' :: rest).head? ≠ some '?' ∧
        (bs.flatMap escape ++ '"' :: rest).head? ≠ some '\n' := by
      cases bs with
      | nil => exact ⟨by simp, by simp⟩
      | cons b' bs =>
        obtain ⟨c, cs, h, hc⟩ := head_escape b'
        simp [h, hc]
    rw [List.flatMap_cons, List.append_assoc, logical_escape b htail, ih, List.append_assoc]

/-! ### Reading the literal -/

/-- The three digits are all that an escape can have, so they are read without what follows. -/
theorem readEscape?_octal (b : UInt8) (cs : List Char) :
    readEscape? (octalDigit (b.toNat / 64) :: octalDigit (b.toNat / 8) :: octalDigit b.toNat ::
      cs) = some (b, cs) := by
  have hdigits : octalDigits (octalDigit (b.toNat / 64) :: octalDigit (b.toNat / 8) ::
      octalDigit b.toNat :: cs) =
        [octalDigit (b.toNat / 64), octalDigit (b.toNat / 8), octalDigit b.toNat] := by
    simp [octalDigits, octalDigit_spec]
  have hvalue : Nat.ofDigitChars 8
      [octalDigit (b.toNat / 64), octalDigit (b.toNat / 8), octalDigit b.toNat] 0 = b.toNat := by
    have hlt := b.toNat_lt
    have hzero : '0'.toNat = 48 := rfl
    simp only [Nat.ofDigitChars_cons, Nat.ofDigitChars_nil, (octalDigit_spec _).2.1, hzero]
    omega
  rw [readEscape?, hdigits, hvalue, if_neg (List.cons_ne_nil _ _), if_pos b.toNat_lt,
    UInt8.ofNat_toNat]
  rfl

theorem readChars?_slash {b : UInt8} {cs rest : List Char} (h : readEscape? cs = some (b, rest)) :
    readChars? ('\\' :: cs) = (readChars? rest).map fun (bs, rest) => (b :: bs, rest) := by
  rw [readChars?, if_neg (by decide), if_pos rfl]
  split
  · rename_i hnone
    rw [h] at hnone
    cases hnone
  · rename_i hsome
    rw [h] at hsome
    cases hsome
    rfl

/-- An escape is read as the byte, whatever follows it. -/
theorem readChars?_escape (b : UInt8) (cs : List Char) :
    readChars? (escape b ++ cs) = (readChars? cs).map fun (bs, rest) => (b :: bs, rest) := by
  obtain ⟨c, h, hvalue, hspecial⟩ | ⟨c, h, rfl, hquote, hslash, -, hprint⟩ | h := escape_cases b
  · have hread : readEscape? (c :: cs) = some (b, cs) := by
      have hdigits : octalDigits (c :: cs) = [] := by
        obtain rfl | rfl | rfl := hspecial <;> rfl
      simp only [readEscape?, hdigits, ↓reduceIte, hvalue, Option.map_some]
    rw [h]
    exact readChars?_slash hread
  · rw [h, List.cons_append, List.nil_append, readChars?, if_neg hquote, if_neg hslash,
      if_pos hprint]
  · rw [h]
    exact readChars?_slash (readEscape?_octal b cs)

theorem readChars?_escapes (bytes : List UInt8) (rest : List Char) :
    readChars? (bytes.flatMap escape ++ '"' :: rest) = some (bytes, rest) := by
  induction bytes with
  | nil => rw [List.flatMap_nil, List.nil_append, readChars?, if_pos rfl]
  | cons b bs ih =>
    rw [List.flatMap_cons, List.append_assoc, readChars?_escape, ih]
    rfl

/-- The literal is one that can be read, and it stands for the bytes of the text. -/
theorem readString?_literal (s : String) (rest : List Char) :
    readString? (logical ((literal s).toList ++ rest)) = some (Text.toBytes s, logical rest) := by
  rw [literal, String.toList_ofList, literalChars, List.cons_append, List.cons_append,
    List.append_assoc, List.cons_append, List.nil_append,
    logical_plain (by decide), logical_escapes]
  exact readChars?_escapes _ _

theorem printable_literal (s : String) : ∀ c ∈ (literal s).toList, ' ' ≤ c ∧ c ≤ '~' := by
  have hquote : ' ' ≤ '"' ∧ '"' ≤ '~' := by decide
  rw [literal, String.toList_ofList, literalChars]
  simp only [List.cons_append, List.forall_mem_cons, List.forall_mem_append, List.forall_mem_flatMap,
    hquote, List.not_mem_nil, false_imp_iff, implies_true, and_true, true_and]
  exact fun b _ => printable_escape b

end Typelib.CSource
