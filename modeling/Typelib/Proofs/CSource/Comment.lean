import Typelib.CSource.Lexeme
import Typelib.Proofs.CSource.Reading

/-!
# Comments are read back

In a comment, a star and a slash are kept apart where they meet. They may still meet when the comment
is read: what stands between them may be nothing but ends of spliced lines.

* `CSource.Torn`: the texts that hold such a star and such a slash;
* `CSource.afterComment?_comment`: the comment ends where it should, but for these texts.
-/

namespace Typelib.CSource

variable {c : Char} {cs xs ys mid : List Char}

/-- Something stands between a star and a slash, and the first phases take all of it out. -/
def Torn (cs : List Char) : Prop :=
  ∃ front mid back, cs = front ++ '*' :: (mid ++ '/' :: back) ∧ logical mid = [] ∧ mid ≠ []

/-! ### What the first phases do -/

/-- The end of a spliced line, with its backslash or the trigraph for it. -/
def Splice (xs : List Char) : Prop := xs = ['\\', '\n'] ∨ xs = ['?', '?', '/', '\n']

theorem logical_splice (h : Splice xs) (cs : List Char) : logical (xs ++ cs) = logical cs := by
  obtain rfl | rfl := h <;> rfl

theorem replaceTrigraphs_cases (c : Char) (cs : List Char) :
    (∃ d e rest, c :: cs = '?' :: '?' :: d :: rest ∧ trigraph? d = some e ∧
      replaceTrigraphs (c :: cs) = e :: replaceTrigraphs rest) ∨
    replaceTrigraphs (c :: cs) = c :: replaceTrigraphs cs := by
  by_cases h : ∃ d e rest, c :: cs = '?' :: '?' :: d :: rest ∧ trigraph? d = some e
  · obtain ⟨d, e, rest, hcs, hd⟩ := h
    refine .inl ⟨d, e, rest, hcs, hd, ?_⟩
    rw [hcs, replaceTrigraphs, hd]
  · refine .inr ?_
    rw [replaceTrigraphs.eq_def]
    split
    · rename_i d rest heq
      split
      · rename_i e he
        exact (h ⟨d, e, rest, heq, he⟩).elim
      · cases heq
        rfl
    · rename_i heq
      cases heq
      rfl
    · rename_i heq
      cases heq

theorem eq_of_trigraph?_slash (h : trigraph? c = some '\\') : c = '/' := by
  unfold trigraph? at h
  split at h <;> cases h
  rfl

/-- The first phases take the end of a spliced line out, leave a character, or put one for a
trigraph. -/
theorem logical_cases (cs : List Char) : cs = [] ∨
    (∃ splice rest, cs = splice ++ rest ∧ Splice splice) ∨
    (∃ c rest, cs = c :: rest ∧ logical cs = c :: logical rest) ∨
    ∃ c d rest, cs = '?' :: '?' :: c :: rest ∧ trigraph? c = some d ∧
      logical cs = d :: logical rest := by
  cases cs with
  | nil => exact .inl rfl
  | cons c cs =>
    refine .inr ?_
    obtain ⟨d, e, rest, hcs, hd, hstep⟩ | hstep := replaceTrigraphs_cases c cs
    · by_cases hsplice : e = '\\' ∧ rest.head? = some '\n'
      · obtain ⟨rfl, hhead⟩ := hsplice
        obtain ⟨rest, rfl⟩ := List.head?_eq_some_iff.1 hhead
        rw [eq_of_trigraph?_slash hd] at hcs
        exact .inl ⟨['?', '?', '/', '\n'], rest, hcs, .inr rfl⟩
      · refine .inr (.inr ⟨d, e, rest, hcs, hd, ?_⟩)
        rw [logical, hstep, spliceLines_cons fun he hhead =>
          hsplice ⟨he, head?_replaceTrigraphs hhead⟩, logical]
    · by_cases hsplice : c = '\\' ∧ cs.head? = some '\n'
      · obtain ⟨rfl, hhead⟩ := hsplice
        obtain ⟨rest, rfl⟩ := List.head?_eq_some_iff.1 hhead
        exact .inl ⟨['\\', '\n'], rest, rfl, .inl rfl⟩
      · refine .inr (.inl ⟨c, cs, rfl, ?_⟩)
        rw [logical, hstep, spliceLines_cons fun hc hhead =>
          hsplice ⟨hc, head?_replaceTrigraphs hhead⟩, logical]

theorem Splice.length_pos (h : Splice xs) : 0 < xs.length := by
  obtain rfl | rfl := h <;> decide

/-- A character that no trigraph stands for was there before, and only ends of spliced lines were in
front of it if nothing is now. -/
theorem exists_of_logical_eq (hc : ∀ d, trigraph? d ≠ some c) (h : logical cs = xs ++ c :: ys) :
    ∃ front back, cs = front ++ c :: back ∧ logical back = ys ∧ (xs = [] → logical front = []) := by
  induction hn : cs.length using Nat.strongRecOn generalizing cs xs with
  | ind n ih =>
    obtain rfl | ⟨splice, rest, rfl, hsplice⟩ | ⟨d, rest, rfl, hstep⟩ |
      ⟨d, e, rest, rfl, hd, hstep⟩ := logical_cases cs
    · exact absurd h (by simp [logical, replaceTrigraphs, spliceLines])
    · have hpos := hsplice.length_pos
      rw [logical_splice hsplice] at h
      obtain ⟨front, back, rfl, hback, hfront⟩ :=
        ih rest.length (by rw [← hn, List.length_append]; omega) h rfl
      exact ⟨splice ++ front, back, (List.append_assoc ..).symm, hback, fun hxs =>
        (logical_splice hsplice front).trans (hfront hxs)⟩
    · rw [hstep] at h
      cases xs with
      | nil =>
        obtain ⟨rfl, hrest⟩ := List.cons.inj h
        exact ⟨[], rest, rfl, hrest, fun _ => rfl⟩
      | cons x xs =>
        obtain ⟨front, back, rfl, hback, -⟩ :=
          ih rest.length (by rw [← hn]; simp) (List.cons.inj h).2 rfl
        exact ⟨d :: front, back, rfl, hback, (absurd · (List.cons_ne_nil x xs))⟩
    · rw [hstep] at h
      cases xs with
      | nil => exact absurd ((List.cons.inj h).1 ▸ hd) (hc d)
      | cons x xs =>
        obtain ⟨front, back, rfl, hback, -⟩ :=
          ih rest.length (by rw [← hn]; simp only [List.length_cons]; omega) (List.cons.inj h).2 rfl
        exact ⟨'?' :: '?' :: d :: front, back, rfl, hback, (absurd · (List.cons_ne_nil x xs))⟩

/-- Texts of which nothing is left. -/
theorem logical_append_of_eq_nil (h : logical mid = []) (ys : List Char) :
    logical (mid ++ ys) = logical ys ∧ '*' ∉ mid ∧ mid.head? ≠ some ' ' ∧ mid.head? ≠ some '/' := by
  induction hn : mid.length using Nat.strongRecOn generalizing mid with
  | ind n ih =>
    obtain rfl | ⟨splice, rest, rfl, hsplice⟩ | ⟨c, rest, rfl, hstep⟩ |
      ⟨c, d, rest, rfl, -, hstep⟩ := logical_cases mid
    · exact ⟨rfl, by simp, by simp, by simp⟩
    · have hpos := hsplice.length_pos
      rw [logical_splice hsplice] at h
      obtain ⟨hrest, hstar, -⟩ := ih rest.length (by rw [← hn, List.length_append]; omega) h rfl
      rw [List.append_assoc, logical_splice hsplice]
      refine ⟨hrest, ?_, ?_⟩
      · rw [List.mem_append, not_or]
        refine ⟨?_, hstar⟩
        obtain rfl | rfl := hsplice <;> decide
      · obtain rfl | rfl := hsplice <;> simp
    · rw [hstep] at h
      cases h
    · rw [hstep] at h
      cases h

theorem trigraph?_ne_some (h : c = '*' ∨ c = '/') (d : Char) : trigraph? d ≠ some c := by
  rintro hd
  obtain rfl | rfl := h
  · exact (trigraph?_ne hd).2.1 rfl
  · exact (trigraph?_ne hd).2.2 rfl

/-- A star and a slash meet in what is left where nothing is left between them. -/
theorem logical_end_iff : (∃ front back, logical cs = front ++ '*' :: '/' :: back) ↔
    ∃ front mid back, cs = front ++ '*' :: (mid ++ '/' :: back) ∧ logical mid = [] := by
  constructor
  · rintro ⟨_, _, h⟩
    obtain ⟨front, rest, rfl, hrest, -⟩ := exists_of_logical_eq (trigraph?_ne_some (.inl rfl)) h
    obtain ⟨mid, back, rfl, -, hmid⟩ :=
      exists_of_logical_eq (trigraph?_ne_some (.inr rfl)) (hrest.trans (List.nil_append _).symm)
    exact ⟨front, mid, back, rfl, hmid rfl⟩
  · rintro ⟨front, mid, back, rfl, hmid⟩
    refine ⟨logical front, logical back, ?_⟩
    rw [logical_append_cons (by decide) (by decide) (by decide),
      logical_plain (by decide), (logical_append_of_eq_nil hmid _).1, logical_plain (by decide)]

/-! ### Kept apart -/

theorem commentChars_cons (h : c = '*' → cs.head? ≠ some '/') :
    commentChars (c :: cs) = c :: commentChars cs := by
  rw [commentChars]
  rintro rest hc rfl
  exact h hc rfl

theorem commentChars_append (h : '*' ∉ xs) (cs : List Char) :
    commentChars (xs ++ cs) = xs ++ commentChars cs := by
  induction xs with
  | nil => rfl
  | cons c xs ih =>
    rw [List.mem_cons, not_or] at h
    rw [List.cons_append, commentChars_cons (absurd ·.symm h.1), ih h.2, List.cons_append]

theorem commentChars_append_star (xs cs : List Char) :
    commentChars (xs ++ '*' :: cs) = commentChars xs ++ commentChars ('*' :: cs) := by
  induction xs using commentChars.induct with
  | case1 rest ih => simp only [List.cons_append, commentChars, ih]
  | case2 c rest h ih =>
    have hhead : c = '*' → rest.head? ≠ some '/' := by
      rintro hc hhead
      obtain ⟨tail, rfl⟩ := List.head?_eq_some_iff.1 hhead
      exact h tail hc rfl
    rw [List.cons_append, commentChars_cons, ih, commentChars_cons hhead, List.cons_append]
    intro hc
    cases rest with
    | nil => exact fun hstar => absurd (Option.some.inj hstar) (by decide)
    | cons d rest => exact hhead hc
  | case3 => rfl

theorem eq_append_of_commentChars (hmid : '*' ∉ mid) (h : commentChars cs = mid ++ '/' :: ys) :
    ∃ back, cs = mid ++ '/' :: back := by
  induction mid generalizing cs with
  | nil =>
    unfold commentChars at h
    split at h
    · exact absurd (List.cons.inj h).1 (by decide)
    · rw [(List.cons.inj h).1]
      exact ⟨_, rfl⟩
    · cases h
  | cons c mid ih =>
    rw [List.mem_cons, not_or] at hmid
    unfold commentChars at h
    split at h
    · exact absurd (List.cons.inj h).1 hmid.1
    · obtain ⟨rfl, hrest⟩ := List.cons.inj h
      obtain ⟨back, rfl⟩ := ih hmid.2 hrest
      exact ⟨back, rfl⟩
    · cases h

/-- A star and a slash that still meet were not side by side. -/
theorem torn_of_commentChars (hmid : logical mid = [])
    (h : commentChars cs = xs ++ '*' :: (mid ++ '/' :: ys)) : Torn cs := by
  obtain ⟨-, hstar, hspace, -⟩ := logical_append_of_eq_nil hmid []
  induction cs using commentChars.induct generalizing xs with
  | case1 rest ih =>
    rw [commentChars] at h
    -- the star of the pair has the space behind it, and nothing is left of what lies between
    match xs with
    | [] =>
      have hrest := (List.cons.inj h).2
      cases mid with
      | nil => exact absurd (List.cons.inj hrest).1 (by decide)
      | cons c mid => exact absurd (congrArg some (List.cons.inj hrest).1.symm) hspace
    | [_] => exact absurd (List.cons.inj (List.cons.inj h).2).1 (by decide)
    | [_, _] => exact absurd (List.cons.inj (List.cons.inj (List.cons.inj h).2).2).1 (by decide)
    | _ :: _ :: _ :: xs =>
      have hrest := (List.cons.inj (List.cons.inj (List.cons.inj h).2).2).2
      obtain ⟨front, mid, back, rfl, htorn⟩ := ih hrest
      exact ⟨'*' :: '/' :: front, mid, back, rfl, htorn⟩
  | case2 c rest hne ih =>
    rw [commentChars] at h
    · cases xs with
      | nil =>
        obtain ⟨rfl, hrest⟩ := List.cons.inj h
        obtain ⟨back, rfl⟩ := eq_append_of_commentChars hstar hrest
        refine ⟨[], mid, back, rfl, hmid, ?_⟩
        rintro rfl
        exact hne back rfl rfl
      | cons x xs =>
        obtain ⟨front, mid, back, rfl, htorn⟩ := ih (List.cons.inj h).2
        exact ⟨c :: front, mid, back, rfl, htorn⟩
    · exact hne
  | case3 => exact absurd h (by simp [commentChars])

theorem commentChars_end_iff :
    (∃ front mid back, commentChars cs = front ++ '*' :: (mid ++ '/' :: back) ∧ logical mid = []) ↔
      Torn cs := by
  constructor
  · rintro ⟨front, mid, back, h, hmid⟩
    exact torn_of_commentChars hmid h
  · rintro ⟨front, mid, back, rfl, hmid, hne⟩
    obtain ⟨-, hstar, -, hslash⟩ := logical_append_of_eq_nil hmid []
    refine ⟨commentChars front, mid, commentChars back, ?_, hmid⟩
    rw [commentChars_append_star, commentChars_cons, commentChars_append hstar,
      commentChars_cons (absurd · (by decide))]
    intro _ hhead
    cases mid with
    | nil => exact hne rfl
    | cons c mid => exact hslash hhead

theorem torn_append (h : '*' ∉ xs) : Torn (xs ++ cs) ↔ Torn cs := by
  constructor
  · rintro ⟨front, mid, back, hcs, htorn⟩
    obtain ⟨rest, -, rfl⟩ | ⟨rest, hxs, hrest⟩ := List.append_eq_append_iff.1 hcs
    · exact ⟨rest, mid, back, rfl, htorn⟩
    · cases rest with
      | nil => exact ⟨[], mid, back, hrest.symm, htorn⟩
      | cons c rest =>
        rw [← (List.cons.inj hrest).1] at hxs
        exact absurd (by simp [hxs]) h
  · rintro ⟨front, mid, back, rfl, htorn⟩
    exact ⟨xs ++ front, mid, back, (List.append_assoc ..).symm, htorn⟩

/-! ### The end of a comment -/

theorem afterEnd?_cons (h : c = '*' → cs.head? ≠ some '/') :
    afterEnd? (c :: cs) = afterEnd? cs := by
  rw [afterEnd?]
  rintro rest hc rfl
  exact h hc rfl

theorem afterEnd?_complete (h : ¬ ∃ front back, xs = front ++ '*' :: '/' :: back) (ys : List Char) :
    afterEnd? (xs ++ ' ' :: '*' :: '/' :: ys) = some ys := by
  induction xs with
  | nil => rfl
  | cons c xs ih =>
    rw [List.cons_append, afterEnd?_cons, ih]
    · rintro ⟨front, back, rfl⟩
      exact h ⟨c :: front, back, rfl⟩
    · rintro rfl hhead
      cases xs with
      | nil => exact absurd (Option.some.inj hhead) (by decide)
      | cons d xs =>
        cases hhead
        exact h ⟨[], xs, rfl⟩

theorem afterEnd?_early (front back : List Char) : ∃ rest,
    afterEnd? (front ++ '*' :: '/' :: back) = some (rest ++ back) := by
  induction front with
  | nil => exact ⟨[], rfl⟩
  | cons c front ih =>
    by_cases h : c = '*' ∧ (front ++ '*' :: '/' :: back).head? = some '/'
    · obtain ⟨rfl, hhead⟩ := h
      cases front with
      | nil => exact absurd (Option.some.inj hhead) (by decide)
      | cons d front =>
        cases hhead
        exact ⟨front ++ ['*', '/'], by simp [afterEnd?]⟩
    · rw [List.cons_append, afterEnd?_cons (not_and.1 h)]
      exact ih

/-- The comment for a text ends behind the text, unless the text tears an end of a comment apart. -/
theorem afterComment?_comment (s : String) (tail : List Char) :
    afterComment? (logical ((comment s).toList ++ tail)) = some (logical tail) ↔
      ¬ Torn s.toList := by
  have htext : (comment s).toList ++ tail =
      '/' :: '*' :: ((' ' :: commentChars s.toList) ++ ' ' :: '*' :: '/' :: tail) := by
    simp [comment]
  have hread : logical ((comment s).toList ++ tail) = '/' :: '*' ::
      (logical (' ' :: commentChars s.toList) ++ ' ' :: '*' :: '/' :: logical tail) := by
    rw [htext, logical_plain (by decide), logical_plain (by decide),
      logical_append_cons (by decide) (by decide) (by decide), logical_plain (by decide) ('*' :: _),
      logical_plain (by decide) ('/' :: _), logical_plain (by decide) tail]
  have hend : (∃ front back, logical (' ' :: commentChars s.toList) = front ++ '*' :: '/' :: back) ↔
      Torn s.toList := by
    have hspace : Torn ([' '] ++ s.toList) ↔ Torn s.toList := torn_append (by decide)
    rw [List.singleton_append] at hspace
    rw [logical_end_iff, ← hspace, ← commentChars_end_iff, commentChars_cons (absurd · (by decide))]
  rw [hread, ← hend]
  generalize logical (' ' :: commentChars s.toList) = text
  constructor
  · rintro h ⟨front, back, rfl⟩
    obtain ⟨rest, hrest⟩ := afterEnd?_early front (back ++ ' ' :: '*' :: '/' :: logical tail)
    -- an end before the last one leaves too much
    simp only [List.append_assoc, List.cons_append] at h
    have hlength := congrArg List.length (Option.some.inj (hrest.symm.trans h))
    simp only [List.length_append, List.length_cons] at hlength
    omega
  · exact fun h => afterEnd?_complete h _

end Typelib.CSource
