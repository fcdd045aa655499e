import Mathlib.Data.List.TakeWhile
import Std.Data.String.ToNat
import Typelib.Build.Shape

/-!
# The text of a shape tells the shape

Texts of shapes stand inside one another, so what is read back is a shape together with what
follows its text. Nothing that may follow can be mistaken for more of the text: neither a letter,
nor a digit, nor a star.

* `Shape.text_append_inj`: a text and what follows it tell the shape;
* `Shape.text_injective`: no two shapes have one text.
-/

namespace Typelib

/-! ### Words -/

/-- The text begins with no character of a class. -/
def Stops (p : Char → Bool) (s : List Char) : Prop := ∀ c ∈ s.head?, p c = false

/-- A word of a class of characters ends where the class ends. -/
theorem word_append_inj {p : Char → Bool} {u v s t : List Char} (hu : ∀ c ∈ u, p c = true)
    (hv : ∀ c ∈ v, p c = true) (hs : Stops p s) (ht : Stops p t) (h : u ++ s = v ++ t) :
    u = v ∧ s = t := by
  have takeWhile_stops : ∀ s, Stops p s → s.takeWhile p = [] := by
    intro s hs
    cases s with
    | nil => rfl
    | cons c s => rw [List.takeWhile_cons_of_neg]; simpa using hs c rfl
  -- both words are what is taken while the class lasts
  have htake := congrArg (List.takeWhile p) h
  rw [List.takeWhile_append_of_pos hu, List.takeWhile_append_of_pos hv, takeWhile_stops s hs,
    takeWhile_stops t ht, List.append_nil, List.append_nil] at htake
  subst htake
  exact ⟨rfl, List.append_cancel_left h⟩

theorem repr_append_inj {m n : Nat} {s t : List Char} (hs : Stops Char.isDigit s)
    (ht : Stops Char.isDigit t) (h : m.repr.toList ++ s = n.repr.toList ++ t) : m = n ∧ s = t := by
  have digits : ∀ k : Nat, ∀ c ∈ k.repr.toList, c.isDigit = true := by
    intro k c hc
    rw [Nat.toList_repr] at hc
    exact Nat.isDigit_of_mem_toDigits (by decide) (by decide) hc
  obtain ⟨hmn, hst⟩ := word_append_inj (digits m) (digits n) hs ht h
  exact ⟨Nat.repr_injective (String.toList_inj.1 hmn), hst⟩

namespace DirRef

theorem toList_text (r : DirRef) : r.text.toList = '#' :: r.raw.toNat.repr.toList := by
  simp only [text, String.toList_append, Nat.toString_eq_repr]
  rfl

theorem text_append_inj {r r' : DirRef} {s t : List Char} (hs : Stops Char.isDigit s)
    (ht : Stops Char.isDigit t) (h : r.text.toList ++ s = r'.text.toList ++ t) :
    r = r' ∧ s = t := by
  rw [toList_text, toList_text, List.cons_append, List.cons_append] at h
  obtain ⟨hr, hst⟩ := repr_append_inj hs ht (List.cons.inj h).2
  cases r
  cases r'
  exact ⟨congrArg mk (UInt16.toNat_inj.1 hr), hst⟩

/-- A list of references ends at its closing bracket. -/
theorem texts_append_inj : ∀ {rs rs' : List DirRef} {s t : List Char},
    (",".intercalate (rs.map text)).toList ++ ')' :: s =
      (",".intercalate (rs'.map text)).toList ++ ')' :: t → rs = rs' ∧ s = t := by
  intro rs
  induction rs with
  | nil =>
    intro rs' s t h
    cases rs' with
    | nil => simpa using h
    | cons r' rs' => cases rs' <;> simp [toList_text] at h
  | cons r rs ih =>
    intro rs' s t h
    cases rs' with
    | nil => cases rs <;> simp [toList_text] at h
    | cons r' rs' =>
      -- what follows the first reference is a comma if there are more, else the bracket
      have tail : ∀ (q : DirRef) (qs : List DirRef) (u : List Char), ∃ rest,
          (",".intercalate ((q :: qs).map text)).toList ++ ')' :: u = q.text.toList ++ rest ∧
          Stops Char.isDigit rest ∧
          rest = (if qs = [] then [] else [',']) ++
            ((",".intercalate (qs.map text)).toList ++ ')' :: u) := by
        intro q qs u
        cases qs with
        | nil => exact ⟨')' :: u, by simp, by simp [Stops], by simp⟩
        | cons q' qs =>
          exact ⟨',' :: ((",".intercalate ((q' :: qs).map text)).toList ++ ')' :: u), by simp,
            by simp [Stops], by simp⟩
      obtain ⟨w, hw, hstop, hweq⟩ := tail r rs s
      obtain ⟨w', hw', hstop', hweq'⟩ := tail r' rs' t
      rw [hw, hw'] at h
      obtain ⟨rfl, rfl⟩ := text_append_inj hstop hstop' h
      rw [hweq] at hweq'
      by_cases hnil : rs = [] <;> by_cases hnil' : rs' = [] <;>
        simp only [hnil, hnil', ↓reduceIte] at hweq' ⊢
      · simpa using hweq'
      · simp at hweq'
      · simp at hweq'
      · obtain ⟨rfl, rfl⟩ := ih (List.append_cancel_left hweq')
        exact ⟨rfl, rfl⟩

end DirRef

theorem TypeTag.mem_all (tag : TypeTag) : tag ∈ all := by
  cases tag with
  | scalar s => cases s <;> decide
  | _ => decide

/-- The names of the tags differ, and are words. -/
theorem TypeTag.name_injective {a b : TypeTag} (h : a.name = b.name) : a = b := by
  have tells : ∀ a ∈ all, ∀ b ∈ all, a.name = b.name → a = b := by decide +kernel
  exact tells a a.mem_all b b.mem_all h

theorem TypeTag.isAlphanum_of_mem_name {tag : TypeTag} {c : Char} (h : c ∈ tag.name.toList) :
    c.isAlphanum = true := by
  have letters : (all.all fun tag => tag.name.toList.all Char.isAlphanum) = true := by
    decide +kernel
  exact List.all_eq_true.1 (List.all_eq_true.1 letters tag tag.mem_all) c h

namespace Shape

/-! ### Shapes -/

/-- What may follow the text of a shape: nothing, or what separates or closes shapes. -/
def Ends (s : List Char) : Prop := ∀ c ∈ s.head?, c = ',' ∨ c = ')'

theorem ends_nil : Ends [] := by simp [Ends]

theorem ends_comma (s : List Char) : Ends (',' :: s) := by simp [Ends]

theorem ends_close (s : List Char) : Ends (')' :: s) := by simp [Ends]

/-- The mark of a pointer. -/
def star (pointer : Bool) : List Char := if pointer then ['*'] else []

theorem star_append_inj {p q : Bool} {s t : List Char} (hs : Ends s) (ht : Ends t)
    (h : star p ++ s = star q ++ t) : p = q ∧ s = t := by
  have not_star : ∀ u v : List Char, Ends u → u ≠ '*' :: v := by
    rintro u v hu rfl
    simpa using hu '*' rfl
  cases p <;> cases q
  · exact ⟨rfl, h⟩
  · exact absurd h (not_star s t hs)
  · exact absurd h.symm (not_star t s ht)
  · exact ⟨rfl, (List.cons.inj h).2⟩

theorem stops_star {p : Bool} {s : List Char} (hs : Ends s) : Stops Char.isDigit (star p ++ s) := by
  cases p with
  | true => simp [star, Stops]
  | false =>
    intro c hc
    rcases hs c hc with rfl | rfl <;> rfl

/-- The mark of a zero-terminated array. -/
def terminated (zeroTerminated : Bool) : List Char :=
  if zeroTerminated then ['[', 'z', 't', ']'] else []

/-- The mark of an array with a length. -/
def lengthMark : Option UInt16 → List Char
  | some n => ['[', 'l', 'e', 'n', '='] ++ n.toNat.repr.toList ++ [']']
  | none => []

/-- The marks of an array end at the bracket in front of its element. -/
theorem marks_append_inj {z z' : Bool} {l l' : Option UInt16} {s t : List Char}
    (h : terminated z ++ (lengthMark l ++ '(' :: s) =
      terminated z' ++ (lengthMark l' ++ '(' :: t)) : z = z' ∧ l = l' ∧ s = t := by
  have length_inj : ∀ {l l' : Option UInt16},
      lengthMark l ++ '(' :: s = lengthMark l' ++ '(' :: t → l = l' ∧ s = t := by
    intro l l' h
    cases l <;> cases l' <;> simp only [lengthMark, List.append_assoc, List.cons_append,
      List.nil_append, List.cons.injEq, Char.reduceEq, false_and, true_and] at h
    · exact ⟨rfl, h⟩
    · obtain ⟨hn, hrest⟩ := repr_append_inj (by simp [Stops]) (by simp [Stops]) h
      exact ⟨congrArg some (UInt16.toNat_inj.1 hn), by simpa using hrest⟩
  have mark_ne : ∀ (l : Option UInt16) (u v : List Char),
      '[' :: 'z' :: v ≠ lengthMark l ++ '(' :: u := by
    intro l u v
    cases l <;> simp [lengthMark]
  -- a length begins with another letter than the mark of a zero-terminated array
  cases z <;> cases z'
  · exact ⟨rfl, length_inj h⟩
  · exact absurd h.symm (mark_ne l s _)
  · exact absurd h (mark_ne l' t _)
  · exact ⟨rfl, length_inj (by simpa [terminated] using h)⟩

/-- The text of a shape behind the name of its tag. -/
def tail : Shape → List Char
  | scalar _ p => star p
  | interface slot p => slot.text.toList ++ star p
  | array element zeroTerminated length p =>
    terminated zeroTerminated ++
      (lengthMark length ++ '(' :: (element.text.toList ++ ')' :: star p))
  | list element p => '(' :: (element.text.toList ++ ')' :: star p)
  | slist element p => '(' :: (element.text.toList ++ ')' :: star p)
  | hash key value p => '(' :: (key.text.toList ++ ',' :: (value.text.toList ++ ')' :: star p))
  | error domains p => '(' :: ((",".intercalate (domains.map DirRef.text)).toList ++ ')' :: star p)

theorem toList_text (a : Shape) : a.text.toList = a.tag.name.toList ++ a.tail := by
  have hstar : ∀ p, (text.star p).toList = star p := by
    intro p
    cases p <;> rfl
  cases a with
  | array element z length p =>
    cases z <;> cases length <;> simp only [text, tag, tail, lengthMark, String.toList_append,
      Nat.toString_eq_repr, hstar, List.append_assoc] <;> rfl
  | _ => simp only [text, tag, tail, String.toList_append, hstar, List.append_assoc]; rfl

/-- Behind the name of the tag nothing can be taken for more of it. -/
theorem stops_tail (a : Shape) {s : List Char} (hs : Ends s) :
    Stops Char.isAlphanum (a.tail ++ s) := by
  cases a with
  | scalar kind p =>
    cases p with
    | true => simp [tail, star, Stops]
    | false =>
      intro c hc
      rcases hs c hc with rfl | rfl <;> rfl
  | interface slot p => simp [tail, DirRef.toList_text, Stops]
  | array element z length p =>
    cases z <;> cases length <;> simp [tail, terminated, lengthMark, Stops]
  | list element p => simp [tail, Stops]
  | slist element p => simp [tail, Stops]
  | hash key value p => simp [tail, Stops]
  | error domains p => simp [tail, Stops]

/-- A text tells the tag of its shape. -/
theorem tag_append_inj {a b : Shape} {s t : List Char} (hs : Ends s) (ht : Ends t)
    (h : a.text.toList ++ s = b.text.toList ++ t) : a.tag = b.tag ∧ a.tail ++ s = b.tail ++ t := by
  rw [toList_text, toList_text, List.append_assoc, List.append_assoc] at h
  obtain ⟨htag, htail⟩ := word_append_inj (fun _ => TypeTag.isAlphanum_of_mem_name)
    (fun _ => TypeTag.isAlphanum_of_mem_name) (a.stops_tail hs) (b.stops_tail ht) h
  exact ⟨TypeTag.name_injective (String.toList_inj.1 htag), htail⟩

/-- A text and what follows it tell the shape. -/
theorem text_append_inj : ∀ {a b : Shape} {s t : List Char}, Ends s → Ends t →
    a.text.toList ++ s = b.text.toList ++ t → a = b ∧ s = t := by
  intro a
  -- each part ends at the comma or the bracket behind it, so the hypotheses apply with a rest
  induction a <;> intro b s t hs ht h <;> obtain ⟨htag, htail⟩ := tag_append_inj hs ht h <;>
    cases b <;> simp only [tag, reduceCtorEq, TypeTag.scalar.injEq] at htag <;>
    simp only [tail, List.append_assoc, List.cons_append, List.cons.injEq, true_and] at htail
  case scalar.scalar =>
    subst htag
    obtain ⟨rfl, rfl⟩ := star_append_inj hs ht htail
    exact ⟨rfl, rfl⟩
  case interface.interface p slot' p' =>
    obtain ⟨rfl, hstar⟩ := DirRef.text_append_inj (stops_star hs) (stops_star ht) htail
    obtain ⟨rfl, rfl⟩ := star_append_inj hs ht hstar
    exact ⟨rfl, rfl⟩
  case array.array ih _ _ _ _ =>
    obtain ⟨rfl, rfl, hrest⟩ := marks_append_inj htail
    obtain ⟨rfl, hclose⟩ := ih (ends_close _) (ends_close _) hrest
    obtain ⟨rfl, rfl⟩ := star_append_inj hs ht (List.cons.inj hclose).2
    exact ⟨rfl, rfl⟩
  case list.list ih _ _ =>
    obtain ⟨rfl, hclose⟩ := ih (ends_close _) (ends_close _) htail
    obtain ⟨rfl, rfl⟩ := star_append_inj hs ht (List.cons.inj hclose).2
    exact ⟨rfl, rfl⟩
  case slist.slist ih _ _ =>
    obtain ⟨rfl, hclose⟩ := ih (ends_close _) (ends_close _) htail
    obtain ⟨rfl, rfl⟩ := star_append_inj hs ht (List.cons.inj hclose).2
    exact ⟨rfl, rfl⟩
  case hash.hash ihk ihv _ _ _ =>
    obtain ⟨rfl, hcomma⟩ := ihk (ends_comma _) (ends_comma _) htail
    obtain ⟨rfl, hclose⟩ := ihv (ends_close _) (ends_close _) (List.cons.inj hcomma).2
    obtain ⟨rfl, rfl⟩ := star_append_inj hs ht (List.cons.inj hclose).2
    exact ⟨rfl, rfl⟩
  case error.error =>
    obtain ⟨rfl, hstar⟩ := DirRef.texts_append_inj htail
    obtain ⟨rfl, rfl⟩ := star_append_inj hs ht hstar
    exact ⟨rfl, rfl⟩

/-- No two shapes have one text. -/
theorem text_injective {a b : Shape} (h : a.text = b.text) : a = b :=
  (text_append_inj ends_nil ends_nil (by rw [h])).1

end Shape

end Typelib
