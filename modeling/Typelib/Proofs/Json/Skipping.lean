import Typelib.Proofs.Json.Lexemes

/-!
# Passing over spelled values

A value is passed over wherever it stands and however deep it is nested. Every character of it costs
two steps at most.

* `Json.Written.begins`: no spelling begins with a blank or with the end of a bracket;
* `Json.skipLoop_written`: what is passed over, from a value to what follows it;
* `Json.skipValue_written`: one value is passed over.
-/

namespace Typelib.Json

variable {α : Type} {Part : α → List Char → Prop} {as : List α} {b : Bracket}
  {outer : List Bracket} {expected : Expected} {text ws rest cs : List Char} {c close : Char}
  {fuel : Nat} {j : Json}

/-! ### The first character -/

/-- A text begins with a character that is no blank and ends no bracket. -/
def Begins (text : List Char) : Prop :=
  ∃ c cs, text = c :: cs ∧ isBlank c = false ∧ ∀ b : Bracket, b.closedBy c = false

theorem Begins.length_pos (h : Begins text) : 0 < text.length := by
  obtain ⟨c, cs, rfl, -⟩ := h
  exact Nat.zero_lt_succ _

theorem isDigit_solid (h : isDigit c = true) :
    isBlank c = false ∧ ∀ b : Bracket, b.closedBy c = false := by
  have hne := ne_of_isDigit h
  refine ⟨Bool.eq_false_iff.2 fun hblank => ?_, fun b => Bool.eq_false_iff.2 fun hclosed => ?_⟩
  · obtain hc | hc | hc | hc := isBlank_iff.1 hblank <;> exact hne _ (by decide) hc
  · cases b <;> exact hne _ (by decide) (eq_of_beq hclosed)

theorem Written.begins (h : Written j text) : Begins text := by
  cases h with
  | @int n text h _ _ =>
    cases h with
    | natural hds _ =>
      obtain ⟨d, ds, rfl⟩ := List.exists_cons_of_ne_nil hds.ne_nil
      exact ⟨d, ds, rfl, isDigit_solid (hds.isDigit d List.mem_cons_self)⟩
    | negative => exact ⟨_, _, rfl, by decide, fun b => by cases b <;> decide⟩
  | _ => exact ⟨_, _, rfl, by decide, fun b => by cases b <;> decide⟩

theorem WrittenMember.begins {member : String × Json} (h : WrittenMember member text) :
    Begins text := by
  cases h
  exact ⟨_, _, rfl, by decide, fun b => by cases b <;> decide⟩

/-- The end of a bracket ends a number. -/
theorem ends_close (h : b.closedBy close = true) : Ends (close :: rest) := by
  refine .of_cons ?_
  cases b <;> obtain rfl := eq_of_beq h <;> decide

theorem More.ends (h : More Part as text) (hrest : Ends rest) : Ends (text ++ rest) := by
  cases h with
  | nil h => exact hrest.blank h
  | cons hb _ _ _ =>
    rw [List.append_assoc, List.cons_append]
    exact Ends.blank hb (.of_cons (by decide))

/-! ### Steps -/

/-- The part of a bracket that comes next is passed over, and then what follows it. -/
def enter (b : Bracket) (outer : List Bracket) (fuel : Nat) (cs : List Char) :
    Except Fault (List Char) :=
  match b.lead fuel cs with
  | .ok (_, cs) => skipLoop fuel .value (b :: outer) cs
  | .error fault => .error fault

theorem skipLoop_value_blank (h : Blank ws) :
    skipLoop fuel .value outer (ws ++ cs) = skipLoop fuel .value outer cs := by
  cases fuel with
  | zero => rfl
  | succ fuel => rw [skipLoop.eq_def, skipLoop.eq_def]; simp only [dropBlanks_blank h]

theorem enter_blank (h : Blank ws) : enter b outer fuel (ws ++ cs) = enter b outer fuel cs := by
  cases b with
  | list => exact skipLoop_value_blank h
  | object => simp only [enter, Bracket.lead, skipKey, dropBlanks_blank h]

theorem skipLoop_first (h : Begins text) (hws : Blank ws) :
    skipLoop (fuel + 1) .first (b :: outer) (ws ++ (text ++ rest)) =
      enter b outer fuel (text ++ rest) := by
  obtain ⟨c, cs, rfl, hblank, hopen⟩ := h
  simp only [skipLoop, dropBlanks_blank hws, List.cons_append, dropBlanks_solid hblank, hopen b,
    Bool.false_eq_true, if_false]
  rfl

theorem skipLoop_comma (hws : Blank ws) :
    skipLoop (fuel + 1) .next (b :: outer) (ws ++ ',' :: cs) = enter b outer fuel cs := by
  have hcomma : b.closedBy ',' = false := by cases b <;> rfl
  have hsolid : isBlank ',' = false := rfl
  simp only [skipLoop, dropBlanks_blank hws, dropBlanks_solid hsolid, hcomma, Bool.false_eq_true,
    if_false, if_true]
  rfl

theorem skipLoop_close (hclose : b.closedBy close = true) (hws : Blank ws)
    (he : expected = .first ∨ expected = .next) :
    skipLoop (fuel + 1) expected (b :: outer) (ws ++ close :: rest) =
      skipLoop fuel .next outer rest := by
  have hsolid : isBlank close = false := by
    cases b <;> obtain rfl := eq_of_beq hclose <;> decide
  obtain rfl | rfl := he <;>
    simp only [skipLoop, dropBlanks_blank hws, dropBlanks_solid hsolid, hclose, if_true]

/-! ### Brackets -/

/-- A part of a bracket is passed over, wherever it stands. -/
def Passed (b : Bracket) (text : List Char) : Prop :=
  ∀ (outer : List Bracket) (rest : List Char) (fuel : Nat), Ends rest → 2 * text.length ≤ fuel →
    ∃ left, fuel < left + 2 * text.length ∧
      enter b outer fuel (text ++ rest) = skipLoop left .next (b :: outer) rest

theorem skipLoop_more (outer : List Bracket) (rest : List Char)
    (hparts : ∀ a ∈ as, ∀ text, Part a text → Passed b text)
    (h : More Part as text) (hclose : b.closedBy close = true) (hfuel : 2 * text.length < fuel) :
    ∃ left, fuel < left + 2 * text.length + 2 ∧
      skipLoop fuel .next (b :: outer) (text ++ close :: rest) =
        skipLoop left .next outer rest := by
  induction h generalizing fuel with
  | nil hws =>
    obtain ⟨fuel, rfl⟩ := Nat.exists_eq_add_of_lt (Nat.zero_lt_of_lt hfuel)
    exact ⟨0 + fuel, by omega, skipLoop_close hclose hws (.inr rfl)⟩
  | @cons a as before after text more hb ha h hrest ih =>
    rw [List.forall_mem_cons] at hparts
    simp only [List.length_append, List.length_cons] at hfuel ⊢
    obtain ⟨fuel, rfl⟩ := Nat.exists_eq_add_of_lt (Nat.zero_lt_of_lt hfuel)
    obtain ⟨mid, hmid, hpart⟩ := hparts.1 text h outer _ (0 + fuel) (hrest.ends (ends_close hclose))
      (by omega)
    obtain ⟨left, hleft, hall⟩ := ih hparts.2 (show 2 * more.length < mid by omega)
    refine ⟨left, by omega, ?_⟩
    rw [List.append_assoc, List.cons_append, skipLoop_comma hb, List.append_assoc,
      enter_blank ha, List.append_assoc, hpart, hall]

theorem skipLoop_listed (outer : List Bracket) (rest : List Char)
    (hbegins : ∀ a text, Part a text → Begins text)
    (hparts : ∀ a ∈ as, ∀ text, Part a text → Passed b text) (h : Listed Part as text)
    (hclose : b.closedBy close = true) (hfuel : 2 * text.length < fuel) :
    ∃ left, fuel < left + 2 * text.length + 2 ∧
      skipLoop fuel .first (b :: outer) (text ++ close :: rest) =
        skipLoop left .next outer rest := by
  obtain ⟨fuel, rfl⟩ := Nat.exists_eq_add_of_lt (Nat.zero_lt_of_lt hfuel)
  cases h with
  | nil hws => exact ⟨0 + fuel, by omega, skipLoop_close hclose hws (.inl rfl)⟩
  | @cons a as before text more hb h hrest =>
    rw [List.forall_mem_cons] at hparts
    simp only [List.length_append] at hfuel ⊢
    obtain ⟨mid, hmid, hpart⟩ := hparts.1 text h outer _ (0 + fuel) (hrest.ends (ends_close hclose))
      (by omega)
    obtain ⟨left, hleft, hall⟩ :=
      skipLoop_more outer rest hparts.2 hrest hclose (show 2 * more.length < mid by omega)
    refine ⟨left, by omega, ?_⟩
    rw [List.append_assoc, List.append_assoc, skipLoop_first (hbegins a text h) hb, hpart, hall]

/-! ### Values -/

/-- What opens no bracket is passed over in one step. -/
theorem skipLoop_atom (hblank : isBlank c = false)
    (h : skipAtom fuel c cs = .ok (none, rest)) :
    skipLoop (fuel + 1) .value outer (c :: cs) = skipLoop fuel .next outer rest := by
  simp only [skipLoop, dropBlanks_solid hblank, h]

theorem skipAtom_digits {ds : List Char} {n : Nat} (hds : Decimal.Digits (c :: ds) n)
    (hleads : Decimal.Leads (c :: ds)) (hrest : Ends rest) :
    skipAtom fuel c (ds ++ rest) = .ok (none, rest) := by
  have hc : isDigit c = true := hds.isDigit c List.mem_cons_self
  have hne := ne_of_isDigit hc
  have hskip : skipNumber (c :: (ds ++ rest)) = .ok ((), rest) :=
    skipNumber_digits hds hleads hrest
  simp only [skipAtom, hne '[' rfl, hne '{' rfl, hne 'n' rfl, hne 't' rfl, hne 'f' rfl, hne '"' rfl,
    hne '-' rfl, hc, if_false, if_true, hskip, bind, Except.bind]

/-- A value is passed over, wherever it stands. -/
def Skipped (text : List Char) : Prop :=
  ∀ (opened : List Bracket) (rest : List Char) (fuel : Nat), Ends rest → 2 * text.length ≤ fuel →
    ∃ left, fuel < left + 2 * text.length ∧
      skipLoop fuel .value opened (text ++ rest) = skipLoop left .next opened rest

theorem Skipped.of_atom (hblank : isBlank c = false)
    (h : ∀ rest fuel, Ends rest → cs.length < fuel →
      skipAtom fuel c (cs ++ rest) = .ok (none, rest)) : Skipped (c :: cs) := by
  intro opened rest fuel hrest hfuel
  rw [List.length_cons] at hfuel ⊢
  obtain ⟨fuel, rfl⟩ := Nat.exists_eq_add_of_lt (show 0 < fuel by omega)
  exact ⟨0 + fuel, by omega, skipLoop_atom hblank (h rest _ hrest (by omega))⟩

/-- What stands between the ends of a bracket is passed over, and the bracket as well. -/
theorem Skipped.of_bracket {opening : Char} (hblank : isBlank opening = false)
    (hopen : ∀ {fuel : Nat} {cs : List Char}, skipAtom fuel opening cs = .ok (some b, cs))
    (hclose : b.closedBy close = true) (hbegins : ∀ a text, Part a text → Begins text)
    (hparts : ∀ a ∈ as, ∀ text, Part a text → Passed b text) (h : Listed Part as text) :
    Skipped (opening :: (text ++ [close])) := by
  intro opened rest fuel hrest hfuel
  simp only [List.length_cons, List.length_append, List.length_nil] at hfuel ⊢
  obtain ⟨fuel, rfl⟩ := Nat.exists_eq_add_of_lt (show 0 < fuel by omega)
  obtain ⟨left, hleft, hall⟩ :=
    skipLoop_listed opened rest hbegins hparts h hclose (show 2 * text.length < 0 + fuel by omega)
  refine ⟨left, by omega, ?_⟩
  rw [← hall]
  simp only [skipLoop, List.cons_append, List.append_assoc, List.nil_append,
    dropBlanks_solid hblank, hopen]

/-- Behind its key, a member is passed over like its value. -/
theorem WrittenMember.passed {member : String × Json} (h : WrittenMember member text)
    (hvalue : ∀ text, Written member.2 text → Skipped text) : Passed .object text := by
  intro outer rest fuel hrest hfuel
  cases h with
  | @member key j keyText text before after hkey hb ha h =>
    simp only [List.length_append, List.length_cons] at hfuel ⊢
    have hlead : Bracket.object.lead fuel
        ('"' :: (keyText ++ '"' :: (before ++ ':' :: (after ++ text))) ++ rest) =
          .ok ((), after ++ (text ++ rest)) := by
      simp only [Bracket.lead, skipKey, List.cons_append, List.append_assoc,
        dropBlanks_solid (show isBlank '"' = false from rfl),
        skipString_quoted hkey (show keyText.length < fuel by omega), dropBlanks_blank hb,
        dropBlanks_solid (show isBlank ':' = false from rfl), bind, Except.bind, if_true]
    obtain ⟨left, hleft, hskip⟩ :=
      hvalue text h (.object :: outer) rest fuel hrest (by omega)
    refine ⟨left, by omega, ?_⟩
    rw [enter, hlead, ← hskip]
    exact skipLoop_value_blank ha

/-- A spelled value is passed over. -/
theorem Written.skipped (j : Json) : ∀ {text : List Char}, Written j text → Skipped text := by
  induction j using induct with
  | null =>
    rintro _ ⟨⟩
    exact .of_atom rfl fun _ _ _ _ => rfl
  | bool b =>
    rintro _ ⟨⟩ <;> exact .of_atom rfl fun _ _ _ _ => rfl
  | int n =>
    rintro text hj
    cases hj with
    | int h =>
      cases h with
      | natural hds hleads =>
        obtain ⟨d, ds, rfl⟩ := List.exists_cons_of_ne_nil hds.ne_nil
        have hblank := (isDigit_solid (hds.isDigit d List.mem_cons_self)).1
        exact .of_atom hblank fun _ _ hrest _ => skipAtom_digits hds hleads hrest
      | negative _ hds hleads =>
        refine .of_atom rfl fun rest fuel hrest _ => ?_
        simp [skipAtom, skipNumber_digits hds hleads hrest, bind, Except.bind]
  | fraction => rintro _ ⟨⟩
  | string s =>
    rintro text hj
    cases hj with
    | string h =>
      refine .of_atom rfl fun rest fuel _ hfuel => ?_
      rw [List.length_append] at hfuel
      rw [List.append_assoc, List.singleton_append]
      simp [skipAtom, skipString_quoted h (Nat.lt_of_succ_lt hfuel), bind, Except.bind]
  | array items cut ih =>
    rintro text hj
    cases hj with
    | array h =>
      refine .of_bracket (b := .list) rfl rfl rfl (fun _ _ h => h.begins) ?_ h
      exact fun item hitem _ hi outer => ih item hitem hi (.list :: outer)
  | object members cut ih =>
    rintro text hj
    cases hj with
    | object h =>
      refine .of_bracket (b := .object) rfl rfl rfl (fun _ _ h => h.begins) ?_ h
      exact fun member hmember _ hm => hm.passed fun _ h => ih member hmember h
  | broken fault => rintro _ ⟨⟩

/-- One value is passed over. -/
theorem skipValue_written (h : Written j text) (hrest : Ends rest)
    (hfuel : 2 * text.length ≤ fuel) : skipValue fuel (text ++ rest) = .ok ((), rest) := by
  obtain ⟨left, hleft, hskip⟩ := Written.skipped j h [] rest fuel hrest hfuel
  obtain ⟨left, rfl⟩ := Nat.exists_eq_add_of_lt (show 0 < left by omega)
  rw [skipValue, hskip]
  rfl

end Typelib.Json
