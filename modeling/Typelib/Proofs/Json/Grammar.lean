import Typelib.Json.Read
import Typelib.Proofs.Decimal.Numeral
import Typelib.Text.Hex

/-!
# What JSON texts say

A grammar of JSON texts, which does not tell how they are read: blanks may stand between all parts,
a character of a string may be written as it is or escaped, and the items of a list and the members
of an object are divided by commas.

* `Json.Piece`, `Json.Quoted`: the spellings of a character and of a string;
* `Json.Listed`: parts that are divided by commas;
* `Json.Written`, `Json.WrittenMember`: the spellings of a value and of a member;
* `Json.depth`: how many brackets stand around the innermost part of a value;
* `Json.induct`: induction over the parts of a value.
-/

namespace Typelib.Json

/-! ### Strings -/

/-- Blanks that may stand between the parts of a text. -/
def Blank (ws : List Char) : Prop := ∀ c ∈ ws, c = ' ' ∨ c = '\n' ∨ c = '\t' ∨ c = '\r'

theorem blank_nil : Blank [] := fun c hc => by cases hc

/-- The letters that stand for a character behind a backslash. -/
def shortEscapes : List (Char × Char) :=
  [('"', '"'), ('\\', '\\'), ('/', '/'), ('b', '\x08'), ('f', '\x0c'), ('n', '\n'), ('r', '\r'),
    ('t', '\t')]

/-- A hexadecimal digit, small or capital. -/
def HexDigit (c : Char) (n : Nat) : Prop :=
  n < 16 ∧ (c = Text.hexDigit n ∨ c = (Text.hexDigit n).toUpper)

/-- Four hexadecimal digits. -/
inductive FourDigits : Nat → List Char → Prop
  | digits {c₃ c₂ c₁ c₀ : Char} {n₃ n₂ n₁ n₀ : Nat} (h₃ : HexDigit c₃ n₃) (h₂ : HexDigit c₂ n₂)
    (h₁ : HexDigit c₁ n₁) (h₀ : HexDigit c₀ n₀) :
    FourDigits (((n₃ * 16 + n₂) * 16 + n₁) * 16 + n₀) [c₃, c₂, c₁, c₀]

/-- The spellings of a character between quotes. -/
inductive Piece (c : Char) : List Char → Prop
  | plain (hquote : c ≠ '"') (hslash : c ≠ '\\') (hcontrol : 0x20 ≤ c.toNat) : Piece c [c]
  | short {e : Char} (he : (e, c) ∈ shortEscapes) : Piece c ['\\', e]
  | unicode {digits : List Char} (hd : FourDigits c.toNat digits) : Piece c ('\\' :: 'u' :: digits)
  /-- What four digits do not hold is written as two surrogates. -/
  | pair {high low : List Char} (hc : 0x10000 ≤ c.toNat)
    (hhigh : FourDigits (0xD800 + (c.toNat - 0x10000) / 0x400) high)
    (hlow : FourDigits (0xDC00 + (c.toNat - 0x10000) % 0x400) low) :
    Piece c ('\\' :: 'u' :: (high ++ '\\' :: 'u' :: low))

/-- The spellings of characters between quotes, one behind the other. -/
inductive Quoted : List Char → List Char → Prop
  | nil : Quoted [] []
  | cons {c : Char} {s piece text : List Char} (hc : Piece c piece) (h : Quoted s text) :
    Quoted (c :: s) (piece ++ text)

/-! ### Values -/

section Listed

variable {α : Type} (Part : α → List Char → Prop)

/-- More parts, behind one that stands in front of them. -/
inductive More : List α → List Char → Prop
  | nil {ws : List Char} (h : Blank ws) : More [] ws
  | cons {a : α} {as : List α} {before after text rest : List Char} (hb : Blank before)
    (ha : Blank after) (h : Part a text) (hrest : More as rest) :
    More (a :: as) (before ++ ',' :: (after ++ (text ++ rest)))

/-- Parts that are divided by commas. -/
inductive Listed : List α → List Char → Prop
  | nil {ws : List Char} (h : Blank ws) : Listed [] ws
  | cons {a : α} {as : List α} {before text rest : List Char} (hb : Blank before)
    (h : Part a text) (hrest : More Part as rest) : Listed (a :: as) (before ++ (text ++ rest))

end Listed

mutual

/-- The spellings of a value. Whole numbers are written in plain decimal form. -/
inductive Written : Json → List Char → Prop
  | null : Written .null ['n', 'u', 'l', 'l']
  | yes : Written (.bool true) ['t', 'r', 'u', 'e']
  | no : Written (.bool false) ['f', 'a', 'l', 's', 'e']
  | int {n : Int} {text : List Char} (h : Decimal.Standard text n) (hlo : -0x8000000000000000 ≤ n)
    (hhi : n ≤ 0xffffffffffffffff) : Written (.int n) text
  | string {s : String} {text : List Char} (h : Quoted s.toList text) :
    Written (.string s) ('"' :: (text ++ ['"']))
  | array {items : List Json} {text : List Char} (h : Listed Written items text) :
    Written (.array items none) ('[' :: (text ++ [']']))
  | object {members : List (String × Json)} {text : List Char}
    (h : Listed WrittenMember members text) :
    Written (.object members none) ('{' :: (text ++ ['}']))

/-- The spellings of a member of an object. -/
inductive WrittenMember : String × Json → List Char → Prop
  | member {key : String} {j : Json} {keyText text before after : List Char}
    (hkey : Quoted key.toList keyText) (hb : Blank before) (ha : Blank after) (h : Written j text) :
    WrittenMember (key, j) ('"' :: (keyText ++ '"' :: (before ++ ':' :: (after ++ text))))

end

/-- A text spells a value, with blanks in front of it and behind it. -/
def Spelled (j : Json) (text : String) : Prop :=
  ∃ before body after, Blank before ∧ Blank after ∧ Written j body ∧
    text.toList = before ++ (body ++ after)

/-! ### Parts of values -/

mutual

/-- How many brackets stand around the innermost part of a value. -/
def depth : Json → Nat
  | array items _ => itemsDepth items + 1
  | object members _ => membersDepth members + 1
  | _ => 0

def itemsDepth : List Json → Nat
  | [] => 0
  | item :: items => max item.depth (itemsDepth items)

def membersDepth : List (String × Json) → Nat
  | [] => 0
  | (_, value) :: members => max value.depth (membersDepth members)

end

theorem itemsDepth_le {items : List Json} {d : Nat} :
    itemsDepth items ≤ d ↔ ∀ item ∈ items, item.depth ≤ d := by
  induction items with
  | nil => simp [itemsDepth]
  | cons item items ih => rw [itemsDepth, Nat.max_le, ih, List.forall_mem_cons]

theorem membersDepth_le {members : List (String × Json)} {d : Nat} :
    membersDepth members ≤ d ↔ ∀ member ∈ members, member.2.depth ≤ d := by
  induction members with
  | nil => simp [membersDepth]
  | cons member members ih => rw [membersDepth, Nat.max_le, ih, List.forall_mem_cons]

/-- What holds of a value if it holds of its parts, holds of all values. -/
@[elab_as_elim]
theorem induct {motive : Json → Prop} (null : motive .null) (bool : ∀ b, motive (.bool b))
    (int : ∀ n, motive (.int n)) (fraction : motive .fraction) (string : ∀ s, motive (.string s))
    (array : ∀ items cut, (∀ item ∈ items, motive item) → motive (.array items cut))
    (object : ∀ members cut, (∀ member ∈ members, motive member.2) → motive (.object members cut))
    (broken : ∀ fault, motive (.broken fault)) (j : Json) : motive j :=
  @Json.rec motive (fun items => ∀ item ∈ items, motive item)
    (fun members => ∀ member ∈ members, motive member.2) (fun member => motive member.2)
    null bool int fraction string array object broken
    (fun _ h => by cases h) (fun _ _ hj hjs => List.forall_mem_cons.2 ⟨hj, hjs⟩)
    (fun _ h => by cases h) (fun _ _ hm hms => List.forall_mem_cons.2 ⟨hm, hms⟩)
    (fun _ _ h => h) j

/-- What holds of each part that is spelled, holds of all of them. -/
theorem Listed.forall_mem {α : Type} {Part : α → List Char → Prop} {P : α → Prop} {as : List α}
    {text : List Char} (h : Listed Part as text) (hP : ∀ a ∈ as, ∀ text, Part a text → P a) :
    ∀ a ∈ as, P a := by
  have more : ∀ {as : List α} {text : List Char}, More Part as text →
      (∀ a ∈ as, ∀ text, Part a text → P a) → ∀ a ∈ as, P a := by
    intro as text h
    induction h with
    | nil => exact fun _ a ha => by cases ha
    | cons _ _ h _ ih =>
      intro hP
      rw [List.forall_mem_cons] at hP ⊢
      exact ⟨hP.1 _ h, ih hP.2⟩
  cases h with
  | nil => exact fun a ha => by cases ha
  | cons _ h hrest =>
    rw [List.forall_mem_cons] at hP ⊢
    exact ⟨hP.1 _ h, more hrest hP.2⟩

theorem itemsFault?_eq_none {items : List Json} :
    itemsFault? items none = none ↔ ∀ item ∈ items, item.fault? = none := by
  induction items with
  | nil => simp [itemsFault?]
  | cons item items ih =>
    rw [itemsFault?, List.forall_mem_cons, ← ih]
    cases item.fault? <;> simp

theorem membersFault?_eq_none {members : List (String × Json)} :
    membersFault? members none = none ↔ ∀ member ∈ members, member.2.fault? = none := by
  induction members with
  | nil => simp [membersFault?]
  | cons member members ih =>
    rw [membersFault?, List.forall_mem_cons, ← ih]
    cases member.2.fault? <;> simp

/-- What is spelled is whole. -/
theorem Written.fault? (j : Json) : ∀ {text : List Char}, Written j text → j.fault? = none := by
  induction j using induct with
  | array items cut ih =>
    rintro _ ⟨⟩
    next h => exact itemsFault?_eq_none.2 (h.forall_mem fun item hitem _ => ih item hitem)
  | object members cut ih =>
    rintro _ ⟨⟩
    next h =>
      refine membersFault?_eq_none.2 (h.forall_mem fun member hmember _ hm => ?_)
      cases hm with
      | member _ _ _ h => exact ih _ hmember h
  | broken fault => rintro _ ⟨⟩
  | _ => exact fun _ => rfl

theorem Spelled.fault? {j : Json} {text : String} (h : Spelled j text) : j.fault? = none := by
  obtain ⟨_, _, _, -, -, h, -⟩ := h
  exact Written.fault? j h

/-! ### Every value has a spelling -/

theorem exists_fourDigits {n : Nat} (hn : n < 0x10000) : ∃ digits, FourDigits n digits := by
  have hdigit : ∀ m < 16, HexDigit (Text.hexDigit m) m := fun m hm => ⟨hm, .inl rfl⟩
  have h := FourDigits.digits (hdigit (n / 0x1000) (by omega))
    (hdigit (n / 0x100 % 0x10) (by omega)) (hdigit (n / 0x10 % 0x10) (by omega))
    (hdigit (n % 0x10) (by omega))
  have hsum :
      ((n / 0x1000 * 16 + n / 0x100 % 0x10) * 16 + n / 0x10 % 0x10) * 16 + n % 0x10 = n := by
    omega
  rw [hsum] at h
  exact ⟨_, h⟩

theorem exists_piece (c : Char) : ∃ piece, Piece c piece := by
  by_cases hquote : c = '"'
  · exact ⟨_, .short (e := '"') (by rw [hquote]; decide)⟩
  by_cases hslash : c = '\\'
  · exact ⟨_, .short (e := '\\') (by rw [hslash]; decide)⟩
  by_cases hcontrol : 0x20 ≤ c.toNat
  · exact ⟨_, .plain hquote hslash hcontrol⟩
  · obtain ⟨digits, hd⟩ := exists_fourDigits (show c.toNat < 0x10000 by omega)
    exact ⟨_, .unicode hd⟩

theorem exists_quoted (s : List Char) : ∃ text, Quoted s text := by
  induction s with
  | nil => exact ⟨[], .nil⟩
  | cons c s ih =>
    obtain ⟨piece, hc⟩ := exists_piece c
    obtain ⟨text, h⟩ := ih
    exact ⟨piece ++ text, .cons hc h⟩

/-- Most characters may be written as they are. -/
theorem Quoted.plain (s : List Char)
    (h : s.all (fun c => c != '"' && c != '\\' && decide (0x20 ≤ c.toNat)) = true) :
    Quoted s s := by
  induction s with
  | nil => exact .nil
  | cons c s ih =>
    simp only [List.all_cons, Bool.and_eq_true, bne_iff_ne, decide_eq_true_eq] at h
    obtain ⟨⟨⟨hquote, hslash⟩, hcontrol⟩, hs⟩ := h
    exact .cons (.plain hquote hslash hcontrol) (ih (by simpa using hs))

/-- Parts that can be spelled, can be spelled together. -/
theorem exists_listed {α : Type} {Part : α → List Char → Prop} {as : List α}
    (h : ∀ a ∈ as, ∃ text, Part a text) : ∃ text, Listed Part as text := by
  have more : ∀ {as : List α}, (∀ a ∈ as, ∃ text, Part a text) → ∃ text, More Part as text := by
    intro as
    induction as with
    | nil => exact fun _ => ⟨[], .nil blank_nil⟩
    | cons a as ih =>
      intro h
      rw [List.forall_mem_cons] at h
      obtain ⟨⟨text, ha⟩, h⟩ := h
      obtain ⟨rest, hrest⟩ := ih h
      exact ⟨_, .cons blank_nil blank_nil ha hrest⟩
  cases as with
  | nil => exact ⟨[], .nil blank_nil⟩
  | cons a as =>
    rw [List.forall_mem_cons] at h
    obtain ⟨⟨text, ha⟩, h⟩ := h
    obtain ⟨rest, hrest⟩ := more h
    exact ⟨_, .cons blank_nil ha hrest⟩

theorem exists_writtenMember {key : String} {j : Json} (h : ∃ text, Written j text) :
    ∃ text, WrittenMember (key, j) text := by
  obtain ⟨keyText, hkey⟩ := exists_quoted key.toList
  obtain ⟨text, h⟩ := h
  exact ⟨_, .member hkey blank_nil blank_nil h⟩

end Typelib.Json
