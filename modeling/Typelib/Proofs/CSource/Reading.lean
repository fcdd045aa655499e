import Mathlib.Tactic.SplitIfs

/-!
# How C is read

The text of a C file is read in phases. Trigraphs are replaced; then each backslash at the end of a
line is taken out with the line feed behind it; and in what is left, comments, names, numbers and
string literals are told apart.

* `CSource.logical`: the text that the first two phases leave;
* `CSource.afterComment?`: what follows a comment;
* `CSource.readString?`: the bytes that a string literal stands for;
* `CSource.tokens`, `CSource.readArray?`: the declaration of an array, with its length and its cells.
-/

namespace Typelib.CSource

/-! ### Characters -/

/-- The character that two question marks and this character stand for. -/
def trigraph? : Char → Option Char
  | '=' => some '#'
  | '/' => some '\\'
  | '\x27' => some '^'
  | '(' => some '['
  | ')' => some ']'
  | '!' => some '|'
  | '<' => some '\x7b'
  | '>' => some '\x7d'
  | '-' => some '~'
  | _ => none

def replaceTrigraphs : List Char → List Char
  | '?' :: '?' :: c :: cs =>
    match trigraph? c with
    | some d => d :: replaceTrigraphs cs
    | none => '?' :: replaceTrigraphs ('?' :: c :: cs)
  | c :: cs => c :: replaceTrigraphs cs
  | [] => []

/-- The text without the ends of lines that have a backslash in front. A line ends with a line feed
and nothing else; a carriage return is a character like any other. -/
def spliceLines : List Char → List Char
  | '\\' :: '\n' :: cs => spliceLines cs
  | c :: cs => c :: spliceLines cs
  | [] => []

/-- The text that is left to be told apart. -/
def logical (cs : List Char) : List Char := spliceLines (replaceTrigraphs cs)

/-- No trigraph stands for one of these. -/
theorem trigraph?_ne {c d : Char} (h : trigraph? c = some d) : d ≠ '\n' ∧ d ≠ '*' ∧ d ≠ '/' := by
  unfold trigraph? at h
  split at h <;> cases h <;> decide

theorem replaceTrigraphs_cons {c : Char} {cs : List Char} (h : c = '?' → cs.head? ≠ some '?') :
    replaceTrigraphs (c :: cs) = c :: replaceTrigraphs cs := by
  rw [replaceTrigraphs]
  rintro d ds hc rfl
  exact h hc rfl

theorem spliceLines_cons {c : Char} {cs : List Char} (h : c = '\\' → cs.head? ≠ some '\n') :
    spliceLines (c :: cs) = c :: spliceLines cs := by
  rw [spliceLines]
  rintro ds hc rfl
  exact h hc rfl

theorem head?_replaceTrigraphs {cs : List Char} (h : (replaceTrigraphs cs).head? = some '\n') :
    cs.head? = some '\n' := by
  unfold replaceTrigraphs at h
  split at h
  · split at h
    · rename_i htrigraph
      exact absurd (Option.some.inj h) (trigraph?_ne htrigraph).1
    · exact absurd (Option.some.inj h) (by decide)
  · exact h
  · exact h

/-- A character stays that begins neither a trigraph nor the end of a spliced line. -/
theorem logical_cons {c : Char} {cs : List Char} (htrigraph : c = '?' → cs.head? ≠ some '?')
    (hsplice : c = '\\' → cs.head? ≠ some '\n') : logical (c :: cs) = c :: logical cs := by
  rw [logical, replaceTrigraphs_cons htrigraph,
    spliceLines_cons fun hc hcs => hsplice hc (head?_replaceTrigraphs hcs), logical]

/-- The character begins neither a trigraph nor the end of a spliced line, whatever follows it. -/
def Plain (c : Char) : Prop := c ≠ '?' ∧ c ≠ '\\'

instance (c : Char) : Decidable (Plain c) := inferInstanceAs (Decidable (_ ∧ _))

theorem plain_of_all {xs : List Char} (h : xs.all (fun c => decide (Plain c)) = true) :
    ∀ c ∈ xs, Plain c := fun c hc => of_decide_eq_true (List.all_eq_true.1 h c hc)

theorem logical_plain {c : Char} (h : Plain c) (cs : List Char) :
    logical (c :: cs) = c :: logical cs :=
  logical_cons (absurd · h.1) (absurd · h.2)

theorem logical_append {xs : List Char} (h : ∀ c ∈ xs, Plain c) (ys : List Char) :
    logical (xs ++ ys) = xs ++ logical ys := by
  induction xs with
  | nil => rfl
  | cons c xs ih =>
    rw [List.forall_mem_cons] at h
    rw [List.cons_append, logical_plain h.1, ih h.2, List.cons_append]

theorem replaceTrigraphs_append_cons {c : Char} (hmark : c ≠ '?') (htrigraph : trigraph? c = none)
    (xs ys : List Char) :
    replaceTrigraphs (xs ++ c :: ys) = replaceTrigraphs xs ++ replaceTrigraphs (c :: ys) := by
  have hpair (d : Char) (hd : trigraph? d = none) (cs : List Char) :
      replaceTrigraphs ('?' :: '?' :: d :: cs) = '?' :: replaceTrigraphs ('?' :: d :: cs) := by
    rw [replaceTrigraphs, hd]
  induction xs using replaceTrigraphs.induct with
  | case1 d cs d' hd ih => simp only [List.cons_append, replaceTrigraphs, hd, ih]
  | case2 d cs hd ih =>
    simp only [List.cons_append] at ih ⊢
    rw [hpair d hd, hpair d hd, ih, List.cons_append]
  | case3 d cs h ih =>
    rw [List.cons_append]
    by_cases hd : d = '?' ∧ cs.head? = some '?'
    · -- two question marks are all that stands before the character
      obtain ⟨rfl, hcs⟩ := hd
      match cs with
      | [_] =>
        cases hcs
        rw [List.singleton_append] at ih ⊢
        rw [hpair c htrigraph, ih]
        rfl
      | _ :: _ :: _ =>
        cases hcs
        exact (h _ _ rfl rfl).elim
    · rw [replaceTrigraphs_cons, replaceTrigraphs_cons (not_and.1 hd), ih, List.cons_append]
      intro hmark'
      cases cs with
      | nil => exact fun hc => hmark (Option.some.inj hc)
      | cons e cs => exact not_and.1 hd hmark'
  | case4 => rfl

theorem spliceLines_append_cons {c : Char} (hnewline : c ≠ '\n') (xs ys : List Char) :
    spliceLines (xs ++ c :: ys) = spliceLines xs ++ spliceLines (c :: ys) := by
  induction xs using spliceLines.induct with
  | case1 cs ih => exact ih
  | case2 d cs h ih =>
    rw [List.cons_append, spliceLines_cons, spliceLines_cons, ih, List.cons_append]
    all_goals intro hslash hhead
    · match cs with
      | _ :: _ =>
        cases hhead
        exact h _ hslash rfl
    · match cs with
      | [] => exact hnewline (Option.some.inj hhead)
      | _ :: _ =>
        cases hhead
        exact h _ hslash rfl
  | case3 => rfl

/-- The texts before and behind a character are apart where it can end neither a trigraph nor a
spliced line. -/
theorem logical_append_cons {c : Char} (hmark : c ≠ '?') (hnewline : c ≠ '\n')
    (htrigraph : trigraph? c = none) (xs ys : List Char) :
    logical (xs ++ c :: ys) = logical xs ++ logical (c :: ys) := by
  rw [logical, replaceTrigraphs_append_cons hmark htrigraph,
    replaceTrigraphs_cons (absurd · hmark), spliceLines_append_cons hnewline, logical, logical,
    replaceTrigraphs_cons (absurd · hmark)]

/-! ### Comments -/

/-- What follows the first end of a comment. -/
def afterEnd? : List Char → Option (List Char)
  | '*' :: '/' :: rest => some rest
  | _ :: cs => afterEnd? cs
  | [] => none

/-- What follows the comment at the start of a text. -/
def afterComment? : List Char → Option (List Char)
  | '/' :: '*' :: cs => afterEnd? cs
  | _ => none

/-! ### String literals -/

def isOctalDigit (c : Char) : Bool := '0' ≤ c && c ≤ '7'

/-- The byte that a backslash and a character stand for. -/
def simpleEscape? : Char → Option UInt8
  | '"' => some 0x22
  | '\x27' => some 0x27
  | '?' => some 0x3F
  | '\\' => some 0x5C
  | 'a' => some 0x07
  | 'b' => some 0x08
  | 't' => some 0x09
  | 'n' => some 0x0A
  | 'v' => some 0x0B
  | 'f' => some 0x0C
  | 'r' => some 0x0D
  | _ => none

/-- The octal digits of an escape: as many as follow, but no more than three. -/
def octalDigits (cs : List Char) : List Char := (cs.take 3).takeWhile isOctalDigit

/-- Reads an escape behind its backslash: octal digits, or else one character. -/
def readEscape? (cs : List Char) : Option (UInt8 × List Char) :=
  if octalDigits cs = [] then
    match cs with
    | c :: rest => (simpleEscape? c).map fun b => (b, rest)
    | [] => none
  else if Nat.ofDigitChars 8 (octalDigits cs) 0 < 256 then
    some (.ofNat (Nat.ofDigitChars 8 (octalDigits cs) 0), cs.drop (octalDigits cs).length)
  else none

theorem length_of_readEscape? {cs rest : List Char} {b : UInt8}
    (h : readEscape? cs = some (b, rest)) : rest.length ≤ cs.length := by
  unfold readEscape? at h
  split_ifs at h
  · cases cs with
    | nil => cases h
    | cons c cs =>
      obtain ⟨_, -, hrest⟩ := Option.map_eq_some_iff.1 h
      cases hrest
      exact Nat.le_succ _
  · cases h
    simp

/-- Reads the characters of a string literal up to its closing quote. Only printable ASCII
characters stand for themselves. -/
def readChars? (cs : List Char) : Option (List UInt8 × List Char) :=
  match cs with
  | [] => none
  | c :: cs =>
    if c = '"' then some ([], cs)
    else if c = '\\' then
      match h : readEscape? cs with
      | none => none
      | some (b, rest) =>
        have := length_of_readEscape? h
        (readChars? rest).map fun (bs, rest) => (b :: bs, rest)
    else if ' ' ≤ c ∧ c ≤ '~' then
      (readChars? cs).map fun (bs, rest) => (.ofNat c.toNat :: bs, rest)
    else none
termination_by cs.length
decreasing_by all_goals simp only [List.length_cons]; omega

/-- Reads a string literal: the bytes that it stands for, and what follows it. -/
def readString? : List Char → Option (List UInt8 × List Char)
  | '"' :: cs => readChars? cs
  | _ => none

/-! ### Declarations -/

/-- The words of a text, which are names and numbers, and its other marks. -/
inductive Token
  | word (cs : List Char)
  | mark (c : Char)
  deriving DecidableEq, Repr

def isSpace (c : Char) : Bool :=
  c = ' ' || c = '\t' || c = '\n' || c = '\x0b' || c = '\x0c' || c = '\r'

def isWordChar (c : Char) : Bool := c.isAlphanum || c = '_'

/-- The tokens of a text. A word goes as far as it can. -/
def tokens (cs : List Char) : List Token :=
  match cs with
  | [] => []
  | c :: cs =>
    if isSpace c then tokens cs
    else if isWordChar c then
      .word (c :: cs.takeWhile isWordChar) :: tokens (cs.dropWhile isWordChar)
    else .mark c :: tokens cs
termination_by cs.length
decreasing_by
  all_goals
    have := (List.dropWhile_sublist isWordChar (l := cs)).length_le
    simp only [List.length_cons]
    omega

/-- The number that a hexadecimal digit stands for. -/
def hexDigit? (c : Char) : Option Nat :=
  if '0' ≤ c ∧ c ≤ '9' then some (c.toNat - 48)
  else if 'a' ≤ c ∧ c ≤ 'f' then some (c.toNat - 87)
  else if 'A' ≤ c ∧ c ≤ 'F' then some (c.toNat - 55)
  else none

/-- The number that a word stands for: a hexadecimal one behind `0x`, an octal one behind `0`, or
else a decimal one. -/
def readNumber? : List Char → Option Nat
  | '0' :: 'x' :: digits =>
    if digits = [] then none
    else (digits.mapM hexDigit?).map fun ns => ns.foldl (fun m n => 16 * m + n) 0
  | '0' :: digits =>
    if digits.all isOctalDigit then some (Nat.ofDigitChars 8 digits 0) else none
  | digits =>
    if digits ≠ [] ∧ digits.all Char.isDigit then some (Nat.ofDigitChars 10 digits 0) else none

/-- The byte that a word stands for. -/
def readByte? (word : List Char) : Option UInt8 :=
  match readNumber? word with
  | some n => if n < 256 then some (.ofNat n) else none
  | none => none

/-- Reads the cells of an array up to the closing brace. The last one may have a comma behind it. -/
def readCells? : List Token → Option (List UInt8 × List Token)
  | .mark '\x7d' :: ts => some ([], ts)
  | .word w :: .mark ',' :: ts =>
    match readByte? w, readCells? ts with
    | some b, some (bs, ts) => some (b :: bs, ts)
    | _, _ => none
  | .word w :: .mark '\x7d' :: ts => (readByte? w).map fun b => ([b], ts)
  | _ => none

/-- An array of bytes as it is declared. -/
structure ArrayDecl where
  name : List Char
  length : Nat
  cells : List UInt8
  deriving DecidableEq, Repr

/-- The word is a name and no number. -/
def isName (word : List Char) : Bool := word.head?.any fun c => !c.isDigit

/-- Reads the declaration of a constant array of bytes. -/
def readArray? : List Token → Option (ArrayDecl × List Token)
  | .word storage :: .word qualifier :: .word type :: .word name :: .mark '[' :: .word size ::
      .mark ']' :: .mark '=' :: .mark '\x7b' :: ts =>
    if storage = "static".toList ∧ qualifier = "const".toList ∧ type = "guint8".toList ∧
        isName name then
      match readNumber? size, readCells? ts with
      | some length, some (cells, .mark ';' :: ts) => some (⟨name, length, cells⟩, ts)
      | _, _ => none
    else none
  | _ => none

end Typelib.CSource
