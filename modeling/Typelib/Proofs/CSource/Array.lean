import Typelib.CSource.Unit
import Typelib.Proofs.CSource.Reading
import Typelib.Proofs.Decimal.Numeral

/-!
# Arrays are read back

An array is declared with its name and the number of its bytes, and its lines hold each byte as a word
of its own. Nothing in it begins a trigraph or a spliced line, so its words and marks are those that
were written.

* `CSource.byteLines_spec`: the lines are the bytes in pieces;
* `CSource.tokens_array`: the words and marks of a declaration;
* `CSource.readArray?_array`: it is read as an array of the bytes.
-/

namespace Typelib

namespace CSource

/-! ### Tokens -/

variable {c : Char} {cs w : List Char} {n : Nat}

theorem tokens_space (h : isSpace c = true) : tokens (c :: cs) = tokens cs := by
  rw [tokens, if_pos h]

theorem tokens_mark (hspace : isSpace c = false) (hword : isWordChar c = false) :
    tokens (c :: cs) = .mark c :: tokens cs := by
  rw [tokens, if_neg (by simp [hspace]), if_neg (by simp [hword])]

theorem isSpace_of_isWordChar (h : isWordChar c = true) : isSpace c = false := by
  refine Bool.eq_false_iff.2 fun hspace => ?_
  simp only [isSpace, Bool.or_eq_true, decide_eq_true_eq] at hspace
  obtain ((((rfl | rfl) | rfl) | rfl) | rfl) | rfl := hspace <;> exact absurd h (by decide)

/-- A word ends where another character stands behind it. -/
theorem tokens_word (hnil : w ≠ []) (hword : ∀ c ∈ w, isWordChar c = true)
    (hc : isWordChar c = false) : tokens (w ++ c :: cs) = .word w :: tokens (c :: cs) := by
  obtain ⟨d, w, rfl⟩ := List.exists_cons_of_ne_nil hnil
  rw [List.forall_mem_cons] at hword
  have htake : (w ++ c :: cs).takeWhile isWordChar = w := by
    rw [List.takeWhile_append_of_pos hword.2, List.takeWhile_cons_of_neg (by simp [hc]),
      List.append_nil]
  have hdrop : (w ++ c :: cs).dropWhile isWordChar = c :: cs := by
    rw [List.dropWhile_append_of_pos hword.2, List.dropWhile_cons_of_neg (by simp [hc])]
  rw [List.cons_append, tokens, if_neg (by simp [isSpace_of_isWordChar hword.1]), if_pos hword.1,
    htake, hdrop]

/-! ### Numbers -/

theorem isWordChar_of_isDigit (h : c.isDigit = true) : isWordChar c = true := by
  simp [isWordChar, Char.isAlphanum, h]

theorem isWordChar_toDigits (n : Nat) : ∀ c ∈ Nat.toDigits 10 n, isWordChar c = true :=
  fun c hc => isWordChar_of_isDigit ((Decimal.digits_toDigits n).isDigit c hc)

theorem readNumber?_toDigits (n : Nat) : readNumber? (Nat.toDigits 10 n) = some n := by
  obtain ⟨hnil, hdigits, hvalue⟩ := Decimal.digits_toDigits n
  have hleads := Decimal.leads_toDigits n
  generalize Nat.toDigits 10 n = ds at hnil hdigits hvalue hleads ⊢
  by_cases hzero : ds.head? = some '0'
  · rw [hleads hzero] at hvalue ⊢
    rw [← hvalue]
    rfl
  · rw [readNumber?, if_pos ⟨hnil, List.all_eq_true.2 hdigits⟩, hvalue]
    · rintro ds rfl
      exact hzero rfl
    · rintro ds rfl
      exact hzero rfl

theorem hexDigit?_hexDigit (h : n < 16) : hexDigit? (Text.hexDigit n) = some n := by
  have hall : ∀ k < 16, hexDigit? (Text.hexDigit k) = some k := by decide
  exact hall n h

theorem toList_byte (b : UInt8) : (byte b).toList =
    ['0', 'x', Text.hexDigit (b.toNat / 16), Text.hexDigit (b.toNat % 16)] := by
  simp [byte, Text.hexByte]

theorem readByte?_byte (b : UInt8) : readByte? (byte b).toList = some b := by
  have hlt := b.toNat_lt
  have hnumber : readNumber? (byte b).toList = some b.toNat := by
    simp only [toList_byte, readNumber?, List.cons_ne_nil, ↓reduceIte, List.mapM_cons,
      List.mapM_nil, hexDigit?_hexDigit (Nat.mod_lt b.toNat (by decide : 0 < 16)),
      hexDigit?_hexDigit (by omega : b.toNat / 16 < 16)]
    simp only [Option.bind_eq_bind, Option.bind_some, Option.pure_def, Option.map_some,
      List.foldl_cons, List.foldl_nil, Option.some.injEq]
    omega
  simp only [readByte?, hnumber, if_pos hlt, UInt8.ofNat_toNat]

theorem isWordChar_hexDigit (h : n < 16) : isWordChar (Text.hexDigit n) = true := by
  have hall : ∀ k < 16, isWordChar (Text.hexDigit k) = true := by decide
  exact hall n h

theorem word_byte (b : UInt8) : ∀ c ∈ (byte b).toList, isWordChar c = true := by
  have hlt := b.toNat_lt
  simp only [toList_byte, List.forall_mem_cons,
    isWordChar_hexDigit (Nat.mod_lt b.toNat (by decide : 0 < 16)),
    isWordChar_hexDigit (by omega : b.toNat / 16 < 16), List.not_mem_nil, false_imp_iff,
    implies_true, and_true]
  decide

/-! ### Names -/

theorem isWordChar_identifierChar (c : Char) : isWordChar (identifierChar c) = true := by
  have hall : ∀ n < 128, (Char.ofNat n).isAlphanum = true →
      isWordChar (Char.ofNat n).toLower = true := by
    decide
  unfold identifierChar
  split_ifs with h
  · have hlt : c.toNat < 128 := by
      have hbound {m : UInt32} (hle : c.val ≤ m) (hm : m.toNat < 128) : c.toNat < 128 :=
        Nat.lt_of_le_of_lt (UInt32.le_iff_toNat_le.1 hle) hm
      obtain halpha | hdigit := Bool.or_eq_true_iff.1 h
      · obtain hupper | hlower := Bool.or_eq_true_iff.1 halpha
        · exact hbound (of_decide_eq_true hupper).2 (by decide)
        · exact hbound (of_decide_eq_true (Bool.and_eq_true_iff.1 hlower).2) (by decide)
      · exact hbound (of_decide_eq_true (Bool.and_eq_true_iff.1 hdigit).2) (by decide)
    have hlower := hall c.toNat hlt
    rw [Char.ofNat_toNat] at hlower
    exact hlower h
  · decide

theorem isName_append (h : isName w = true) (cs : List Char) : isName (w ++ cs) = true := by
  cases w with
  | nil => exact absurd h (by decide)
  | cons c w => exact h

theorem word_identifier (s : String) :
    (∀ c ∈ (identifier s).toList, isWordChar c = true) ∧ isName (identifier s).toList = true := by
  have hmap : ∀ c ∈ s.toList.map identifierChar, isWordChar c = true :=
    List.forall_mem_map.2 fun c _ => isWordChar_identifierChar c
  rw [identifier, String.toList_ofList, identifierChars]
  split
  · exact ⟨List.all_eq_true.1 (by decide), rfl⟩
  · rename_i c rest heq
    rw [heq] at hmap
    split_ifs with hdigit
    · exact ⟨List.forall_mem_cons.2 ⟨by decide, hmap⟩, rfl⟩
    · exact ⟨hmap, by simpa [isName] using hdigit⟩

/-! ### Cells -/

/-- The tokens of cells, each of them with a comma behind it. -/
def cellTokens (bytes : List UInt8) : List Token :=
  bytes.flatMap fun b => [.word (byte b).toList, .mark ',']

theorem readCells?_cellTokens (bytes : List UInt8) (ts : List Token) :
    readCells? (cellTokens bytes ++ .mark '\x7d' :: ts) = some (bytes, ts) := by
  induction bytes with
  | nil => rfl
  | cons b bs ih =>
    have hstep : cellTokens (b :: bs) ++ .mark '\x7d' :: ts =
        .word (byte b).toList :: .mark ',' :: (cellTokens bs ++ .mark '\x7d' :: ts) := rfl
    rw [hstep, readCells?]
    simp only [readByte?_byte, ih]

theorem tokens_cell (b : UInt8) (cs : List Char) :
    tokens ((byte b).toList ++ ',' :: cs) = .word (byte b).toList :: .mark ',' :: tokens cs := by
  rw [tokens_word (by simp [toList_byte]) (word_byte b) (by decide),
    tokens_mark (by decide) (by decide)]

theorem tokens_arrayLine {bytes : List UInt8} (h : bytes ≠ []) (cs : List Char) :
    tokens ((arrayLine bytes).toList ++ cs) = cellTokens bytes ++ tokens cs := by
  have hcells : tokens ([',', ' '].intercalate (bytes.map fun b => (byte b).toList) ++ ',' :: cs) =
      cellTokens bytes ++ tokens cs := by
    induction bytes with
    | nil => exact absurd rfl h
    | cons b bs ih =>
      cases bs with
      | nil => rw [List.map_singleton, List.intercalate_singleton, tokens_cell]; rfl
      | cons b' bs =>
        simp only [List.map_cons] at ih ⊢
        rw [List.intercalate_cons_cons]
        simp only [List.append_assoc, List.cons_append, List.nil_append]
        rw [tokens_cell, tokens_space (by decide), ih (List.cons_ne_nil _ _)]
        rfl
  have hspaces (cs : List Char) : tokens (' ' :: ' ' :: cs) = tokens cs := by
    rw [tokens_space (by decide), tokens_space (by decide)]
  rw [← hcells, ← hspaces ([',', ' '].intercalate _ ++ _)]
  simp [arrayLine, Function.comp_def]

theorem tokens_arrayLines {lines : List (List UInt8)} (h : ∀ line ∈ lines, line ≠ [])
    (cs : List Char) : tokens ((Text.ofLines (lines.map arrayLine)).toList ++ cs) =
      cellTokens lines.flatten ++ tokens cs := by
  induction lines with
  | nil => rfl
  | cons line lines ih =>
    rw [List.forall_mem_cons] at h
    have hnewline (cs : List Char) : tokens ("\n".toList ++ cs) = tokens cs :=
      tokens_space (by decide)
    rw [List.map_cons, Text.ofLines_cons, String.toList_append, String.toList_append,
      List.append_assoc, List.append_assoc, tokens_arrayLine h.1, hnewline, ih h.2]
    simp [cellTokens]

/-- The lines are the bytes in pieces, and none of them is empty. -/
theorem byteLines_spec (bytes : Bytes) :
    (byteLines bytes).flatten = bytes.toList ∧ ∀ line ∈ byteLines bytes, line ≠ [] := by
  have hpieces (k : Nat) : ((List.range k).map fun i =>
      (bytes.extract (bytesPerLine * i) (bytesPerLine * i + bytesPerLine)).toList).flatten =
        bytes.toList.take (bytesPerLine * k) := by
    induction k with
    | zero => rfl
    | succ k ih =>
      rw [List.range_succ, List.map_append, List.flatten_append, ih, Nat.mul_succ, List.take_add]
      simp
  have hcount : bytes.size ≤ bytesPerLine * ((bytes.size + bytesPerLine - 1) / bytesPerLine) ∧
      ∀ i < (bytes.size + bytesPerLine - 1) / bytesPerLine, bytesPerLine * i < bytes.size := by
    unfold bytesPerLine
    exact ⟨by omega, fun i hi => by omega⟩
  refine ⟨(hpieces _).trans (List.take_of_length_le hcount.1), ?_⟩
  intro line hline
  obtain ⟨i, hi, rfl⟩ := List.mem_map.1 hline
  have hlt := hcount.2 i (List.mem_range.1 hi)
  refine List.ne_nil_of_length_pos ?_
  rw [Array.length_toList, Array.size_extract]
  unfold bytesPerLine at hlt ⊢
  omega

/-! ### The declaration -/

theorem plain_of_isWordChar (h : isWordChar c = true) : Plain c := by
  constructor <;> rintro rfl <;> exact absurd h (by decide)

/-- The text of the declaration, in the words and marks that it is made of. -/
theorem toList_array (name : String) (bytes : Bytes) :
    (Text.ofLines (array name bytes)).toList = "static".toList ++ ' ' :: ("const".toList ++
      ' ' :: ("guint8".toList ++ ' ' :: ((name ++ "_typelib_data").toList ++
      '[' :: (Nat.toDigits 10 bytes.size ++ ']' :: ' ' :: '=' :: ' ' :: '\x7b' :: '\n' ::
      ((Text.ofLines ((byteLines bytes).map arrayLine)).toList ++ ['\x7d', ';', '\n']))))) := by
  simp [array, Text.ofLines_append, Text.ofLines_cons, ← Nat.toList_repr]

theorem plain_arrayLine (bytes : List UInt8) : ∀ c ∈ (arrayLine bytes).toList, Plain c := by
  have hbyte (b : UInt8) : ∀ c ∈ (byte b).toList, Plain c := fun c hc =>
    plain_of_isWordChar (word_byte b c hc)
  have hcells : ∀ c ∈ [',', ' '].intercalate (bytes.map fun b => (byte b).toList), Plain c := by
    induction bytes with
    | nil => simp
    | cons b bs ih =>
      cases bs with
      | nil => simpa using hbyte b
      | cons b' bs =>
        rw [List.map_cons, List.map_cons, List.intercalate_cons_cons, List.forall_mem_append,
          List.forall_mem_append]
        exact ⟨⟨hbyte b, plain_of_all (by decide)⟩, ih⟩
  rw [arrayLine, String.toList_append, String.toList_append, String.toList_intercalate,
    List.map_map, List.forall_mem_append, List.forall_mem_append]
  exact ⟨⟨plain_of_all (by decide), hcells⟩, plain_of_all (by decide)⟩

/-- The declaration holds nothing that the first phases of reading look for. -/
theorem plain_array {name : String}
    (hname : ∀ c ∈ (name ++ "_typelib_data").toList, isWordChar c = true) (bytes : Bytes) :
    ∀ c ∈ (Text.ofLines (array name bytes)).toList, Plain c := by
  have hsize : ∀ c ∈ Nat.toDigits 10 bytes.size, Plain c := fun c hc =>
    plain_of_isWordChar (isWordChar_toDigits _ c hc)
  have hlines (lines : List (List UInt8)) :
      ∀ c ∈ (Text.ofLines (lines.map arrayLine)).toList, Plain c := by
    induction lines with
    | nil => simp
    | cons line lines ih =>
      rw [List.map_cons, Text.ofLines_cons, String.toList_append, String.toList_append,
        List.forall_mem_append, List.forall_mem_append]
      exact ⟨⟨plain_arrayLine line, plain_of_all (by decide)⟩, ih⟩
  have hend : ∀ c ∈ ['\x7d', ';', '\n'], Plain c := plain_of_all (by decide)
  simp only [toList_array, List.forall_mem_append, List.forall_mem_cons] at hend ⊢
  exact ⟨plain_of_all (by decide), by decide, plain_of_all (by decide), by decide,
    plain_of_all (by decide), by decide, fun c hc => plain_of_isWordChar (hname c hc), by decide,
    hsize, by decide, by decide, by decide, by decide, by decide, by decide, hlines _, hend⟩

theorem tokens_array {name : String}
    (hname : ∀ c ∈ (name ++ "_typelib_data").toList, isWordChar c = true) (bytes : Bytes)
    (cs : List Char) : tokens ((Text.ofLines (array name bytes)).toList ++ cs) =
      .word "static".toList :: .word "const".toList :: .word "guint8".toList ::
        .word (name ++ "_typelib_data").toList :: .mark '[' :: .word (Nat.toDigits 10 bytes.size) ::
        .mark ']' :: .mark '=' :: .mark '\x7b' ::
        (cellTokens bytes.toList ++ .mark '\x7d' :: .mark ';' :: tokens cs) := by
  obtain ⟨hflatten, hlines⟩ := byteLines_spec bytes
  have hnil : (name ++ "_typelib_data").toList ≠ [] := by simp
  simp only [toList_array, List.append_assoc, List.cons_append, List.nil_append]
  -- word by word and mark by mark, from left to right
  have hword {w : List Char} (h : w.all isWordChar = true) : ∀ c ∈ w, isWordChar c = true :=
    List.all_eq_true.1 h
  rw [tokens_word (by decide) (hword (by decide)) (by decide), tokens_space (by decide),
    tokens_word (by decide) (hword (by decide)) (by decide), tokens_space (by decide),
    tokens_word (by decide) (hword (by decide)) (by decide), tokens_space (by decide),
    tokens_word hnil hname (by decide), tokens_mark (by decide) (by decide),
    tokens_word Nat.toDigits_ne_nil (isWordChar_toDigits _) (by decide),
    tokens_mark (by decide) (by decide), tokens_space (by decide),
    tokens_mark (by decide) (by decide), tokens_space (by decide),
    tokens_mark (by decide) (by decide), tokens_space (by decide), tokens_arrayLines hlines,
    hflatten, tokens_mark (by decide) (by decide), tokens_mark (by decide) (by decide),
    tokens_space (by decide)]

/-- The declaration is read as an array of the bytes. -/
theorem readArray?_array (s : String) (bytes : Bytes) (cs : List Char) :
    readArray? (tokens (logical ((Text.ofLines (array (identifier s) bytes)).toList ++ cs))) =
      some (⟨(identifier s ++ "_typelib_data").toList, bytes.size, bytes.toList⟩,
        tokens (logical cs)) := by
  obtain ⟨hword, hname⟩ := word_identifier s
  have hdata : ∀ c ∈ (identifier s ++ "_typelib_data").toList, isWordChar c = true := by
    rw [String.toList_append]
    exact List.forall_mem_append.2 ⟨hword, List.all_eq_true.1 (by decide)⟩
  have hdataName : isName (identifier s ++ "_typelib_data").toList = true := by
    rw [String.toList_append]
    exact isName_append hname _
  rw [logical_append (plain_array hdata bytes), tokens_array hdata, readArray?]
  simp only [readNumber?_toDigits, readCells?_cellTokens]
  rw [if_pos ⟨trivial, trivial, trivial, hdataName⟩]

end CSource

end Typelib
