import Typelib.Json.Meaning
import Typelib.Proofs.Json.Skipping

/-!
# Reading spelled values

A value is read from each of its spellings, if the brackets around its parts are not too many. Of
the outermost object the members with kept keys are read, and only these need to be nested within
the limit.

* `Json.value_written`: a value is read, whatever follows it;
* `Json.members_listed`: so are the members of an object that are kept;
* `Json.read_spelled`: the text of an object is read.
-/

namespace Typelib.Json

variable {text ws before after rest cs : List Char} {acc : List Json} {fields : Fields}
  {fuel depth : Nat} {first : Bool} {keep : String → Bool} {j : Json}

/-! ### Between the parts -/

theorem value_blank (h : Blank ws) : value fuel depth (ws ++ cs) = value fuel depth cs := by
  cases fuel with
  | zero => rfl
  | succ fuel => rw [value.eq_def, value.eq_def]; simp only [dropBlanks_blank h]

theorem nextItem_close (h : Blank ws) : nextItem first (ws ++ ']' :: rest) = .ok (false, rest) := by
  rw [nextItem, dropBlanks_blank h, dropBlanks_solid (by decide)]
  rfl

theorem nextItem_first (h : Begins text) (hws : Blank ws) :
    nextItem true (ws ++ (text ++ rest)) = .ok (true, text ++ rest) := by
  obtain ⟨c, cs, rfl, hblank, hopen⟩ := h
  have hc : c ≠ ']' := ne_of_beq_false (hopen .list)
  rw [nextItem, dropBlanks_blank hws, List.cons_append, dropBlanks_solid hblank]
  simp only [hc, if_false, if_true]

theorem nextItem_comma (h : Begins text) (hb : Blank before) (ha : Blank after) :
    nextItem false (before ++ ',' :: (after ++ (text ++ rest))) = .ok (true, text ++ rest) := by
  obtain ⟨c, cs, rfl, hblank, hopen⟩ := h
  have hc : c ≠ ']' := ne_of_beq_false (hopen .list)
  rw [nextItem, dropBlanks_blank hb, dropBlanks_solid (by decide)]
  simp [dropBlanks_blank ha, dropBlanks_solid hblank, hc]

theorem nextMember_close (h : Blank ws) :
    nextMember first (ws ++ '}' :: rest) = .ok (false, rest) := by
  rw [nextMember, dropBlanks_blank h, dropBlanks_solid (by decide)]
  rfl

theorem nextMember_first (hws : Blank ws) :
    nextMember true (ws ++ '"' :: rest) = .ok (true, rest) := by
  rw [nextMember, dropBlanks_blank hws, dropBlanks_solid (by decide)]
  rfl

theorem nextMember_comma (hb : Blank before) (ha : Blank after) :
    nextMember false (before ++ ',' :: (after ++ '"' :: rest)) = .ok (true, rest) := by
  rw [nextMember, dropBlanks_blank hb, dropBlanks_solid (by decide)]
  simp [dropBlanks_blank ha, dropBlanks_solid (show isBlank '"' = false from rfl)]

theorem key_quoted {k : String} {keyText : List Char} (h : Quoted k.toList keyText)
    (hfuel : keyText.length < fuel) (hb : Blank before) :
    key fuel (keyText ++ '"' :: (before ++ ':' :: cs)) = .ok (k, .ok cs) := by
  simp [key, stringLoop_quoted h hfuel, bind, Except.bind, dropBlanks_blank hb,
    dropBlanks_solid (show isBlank ':' = false from rfl)]

/-! ### Lists and objects -/

/-- Inside brackets that leave room for `depth` more, the text is read to the value. -/
def ReadTo (depth : Nat) (j : Json) (text : List Char) : Prop :=
  ∀ rest fuel, Ends rest → 2 * text.length ≤ fuel → value fuel depth (text ++ rest) = (j, some rest)

theorem items_more {js : List Json}
    (hitems : ∀ j ∈ js, ∀ text, Written j text → ReadTo depth j text)
    (h : More Written js text) (hfuel : 2 * text.length < fuel) :
    items fuel depth false acc (text ++ ']' :: rest) =
      (.array (acc.reverse ++ js) none, some rest) := by
  induction h generalizing fuel acc with
  | nil hws =>
    obtain ⟨fuel, rfl⟩ := Nat.exists_eq_add_of_lt hfuel
    simp [items, nextItem_close hws, endItems]
  | @cons j js before after text more hb ha h hrest ih =>
    rw [List.forall_mem_cons] at hitems
    simp only [List.length_append, List.length_cons] at hfuel
    obtain ⟨fuel, rfl⟩ := Nat.exists_eq_add_of_lt (Nat.zero_lt_of_lt hfuel)
    have hvalue := hitems.1 text h (more ++ ']' :: rest) (0 + fuel)
      (hrest.ends (ends_close (b := .list) rfl)) (by omega)
    have htext : before ++ ',' :: (after ++ (text ++ more)) ++ ']' :: rest =
        before ++ ',' :: (after ++ (text ++ (more ++ ']' :: rest))) := by simp
    rw [htext, items, nextItem_comma h.begins hb ha]
    simp only [hvalue]
    rw [ih hitems.2 (by omega), List.reverse_cons, List.append_assoc, List.singleton_append]

theorem items_listed {js : List Json}
    (hitems : ∀ j ∈ js, ∀ text, Written j text → ReadTo depth j text)
    (h : Listed Written js text) (hfuel : 2 * text.length < fuel) :
    items fuel depth true [] (text ++ ']' :: rest) = (.array js none, some rest) := by
  obtain ⟨fuel, rfl⟩ := Nat.exists_eq_add_of_lt (Nat.zero_lt_of_lt hfuel)
  cases h with
  | nil hws => simp [items, nextItem_close hws, endItems]
  | @cons j js before text more hb h hrest =>
    rw [List.forall_mem_cons] at hitems
    simp only [List.length_append] at hfuel
    have hpos := h.begins.length_pos
    have hvalue := hitems.1 text h (more ++ ']' :: rest) (0 + fuel)
      (hrest.ends (ends_close (b := .list) rfl)) (by omega)
    rw [List.append_assoc, List.append_assoc, items, nextItem_first h.begins hb]
    simp only [hvalue]
    rw [items_more hitems.2 hrest (by omega)]
    rfl

/-- A member is read or passed over. -/
theorem members_step {member : String × Json}
    (hvalue : keep member.1 = true → ∀ text, Written member.2 text → ReadTo depth member.2 text)
    (h : WrittenMember member text) (hrest : Ends rest) (hfuel : 2 * text.length ≤ fuel)
    (hnext : ∀ inner, text = '"' :: inner → nextMember first cs = .ok (true, inner ++ rest)) :
    members (fuel + 1) depth keep first fields cs =
      members fuel depth keep false (([member].filter fun m => keep m.1) ++ fields) rest := by
  cases h with
  | @member k j keyText text before after hkey hb ha h =>
    simp only [List.length_append, List.length_cons] at hfuel
    have hread : key fuel (keyText ++ '"' :: (before ++ ':' :: (after ++ text)) ++ rest) =
        .ok (k, .ok (after ++ (text ++ rest))) := by
      rw [List.append_assoc, List.cons_append, List.append_assoc, List.cons_append,
        key_quoted hkey (by omega) hb, List.append_assoc]
    rw [members, hnext _ rfl]
    simp only [hread]
    -- values are passed over at any depth, so how deep this one is matters only if it is kept
    cases hkeep : keep k with
    | true =>
      simp only [if_true, value_blank ha, hvalue hkeep text h rest fuel hrest (by omega),
        List.filter_cons, hkeep, List.filter_nil, List.singleton_append]
    | false =>
      have hskip : skipValue fuel (after ++ (text ++ rest)) = .ok ((), rest) := by
        rw [skipValue, skipLoop_value_blank ha]
        exact skipValue_written h hrest (by omega)
      simp only [Bool.false_eq_true, if_false, hskip, List.filter_cons, hkeep, List.filter_nil,
        List.nil_append]

theorem members_more {ms : Fields}
    (hmembers : ∀ m ∈ ms, keep m.1 = true → ∀ text, Written m.2 text → ReadTo depth m.2 text)
    (h : More WrittenMember ms text) (hfuel : 2 * text.length < fuel) :
    members fuel depth keep false fields (text ++ '}' :: rest) =
      (.object (fields.reverse ++ ms.filter fun m => keep m.1) none, some rest) := by
  induction h generalizing fuel fields with
  | nil hws =>
    obtain ⟨fuel, rfl⟩ := Nat.exists_eq_add_of_lt hfuel
    simp [members, nextMember_close hws, endMembers]
  | @cons m ms before after text more hb ha h hrest ih =>
    rw [List.forall_mem_cons] at hmembers
    simp only [List.length_append, List.length_cons] at hfuel
    obtain ⟨fuel, rfl⟩ := Nat.exists_eq_add_of_lt (Nat.zero_lt_of_lt hfuel)
    have htext : before ++ ',' :: (after ++ (text ++ more)) ++ '}' :: rest =
        before ++ ',' :: (after ++ (text ++ (more ++ '}' :: rest))) := by simp
    have hends : Ends (more ++ '}' :: rest) := hrest.ends (ends_close (b := .object) rfl)
    rw [htext, members_step hmembers.1 h hends (by omega), ih hmembers.2 (by omega)]
    · cases hkeep : keep m.1 <;> simp [hkeep]
    · rintro inner rfl
      exact nextMember_comma hb ha

theorem members_listed {ms : Fields}
    (hmembers : ∀ m ∈ ms, keep m.1 = true → ∀ text, Written m.2 text → ReadTo depth m.2 text)
    (h : Listed WrittenMember ms text) (hfuel : 2 * text.length < fuel) :
    members fuel depth keep true [] (text ++ '}' :: rest) =
      (.object (ms.filter fun m => keep m.1) none, some rest) := by
  obtain ⟨fuel, rfl⟩ := Nat.exists_eq_add_of_lt (Nat.zero_lt_of_lt hfuel)
  cases h with
  | nil hws => simp [members, nextMember_close hws, endMembers]
  | @cons m ms before text more hb h hrest =>
    rw [List.forall_mem_cons] at hmembers
    simp only [List.length_append] at hfuel
    have hpos := h.begins.length_pos
    have hends : Ends (more ++ '}' :: rest) := hrest.ends (ends_close (b := .object) rfl)
    rw [List.append_assoc, List.append_assoc, members_step hmembers.1 h hends (by omega),
      members_more hmembers.2 hrest (by omega)]
    · cases hkeep : keep m.1 <;> simp [hkeep]
    · rintro inner rfl
      exact nextMember_first hb

/-! ### Values -/

theorem ReadTo.of_atom {c : Char} (hblank : isBlank c = false) (hlist : c ≠ '[')
    (hobject : c ≠ '{') (h : ∀ rest fuel, Ends rest → cs.length < fuel →
      atom fuel c (cs ++ rest) = (j, some rest)) : ReadTo depth j (c :: cs) := by
  intro rest fuel hrest hfuel
  rw [List.length_cons] at hfuel
  obtain ⟨fuel, rfl⟩ := Nat.exists_eq_add_of_lt (show 0 < fuel by omega)
  rw [List.cons_append, value.eq_def]
  simp only [dropBlanks_solid hblank, hlist, hobject, if_false]
  exact h rest _ hrest (by omega)

theorem atom_digits {c : Char} {ds : List Char} {n : Nat} (hds : Decimal.Digits (c :: ds) n)
    (hleads : Decimal.Leads (c :: ds)) (hn : n < UInt64.size) (hrest : Ends rest) :
    atom fuel c (ds ++ rest) = (.int n, some rest) := by
  have hc : isDigit c = true := hds.isDigit c List.mem_cons_self
  have hne := ne_of_isDigit hc
  have hnumber : number false (c :: (ds ++ rest)) = .ok (.int n, rest) :=
    number_natural hds hleads hn hrest
  simp only [atom, hne 'n' rfl, hne 't' rfl, hne 'f' rfl, hne '"' rfl, hne '-' rfl, hc, if_false,
    if_true, hnumber, ofScan, id]

/-- A value is read from each of its spellings. -/
theorem value_written (j : Json) :
    ∀ {depth : Nat}, j.depth ≤ depth → ∀ text, Written j text → ReadTo depth j text := by
  induction j using induct with
  | null =>
    rintro depth - _ ⟨⟩
    exact .of_atom rfl (by decide) (by decide) fun _ _ _ _ => rfl
  | bool b =>
    rintro depth - _ ⟨⟩ <;>
      exact .of_atom rfl (by decide) (by decide) fun _ _ _ _ => rfl
  | int n =>
    intro depth _ text hj
    cases hj with
    | int h hlo hhi =>
      cases h with
      | natural hds hleads =>
        obtain ⟨d, ds, rfl⟩ := List.exists_cons_of_ne_nil hds.ne_nil
        have hd := hds.isDigit d List.mem_cons_self
        have hne := ne_of_isDigit hd
        refine .of_atom (isDigit_solid hd).1 (hne _ rfl) (hne _ rfl) fun rest _ hrest _ => ?_
        exact atom_digits hds hleads (by rw [UInt64.size]; omega) hrest
      | negative hpos hds hleads =>
        refine .of_atom rfl (by decide) (by decide) fun rest fuel hrest _ => ?_
        simp [atom, number_negative hds hleads hpos (by rw [UInt64.size]; omega) hrest, ofScan]
  | fraction => rintro depth - _ ⟨⟩
  | string s =>
    intro depth _ text hj
    cases hj with
    | string h =>
      refine .of_atom rfl (by decide) (by decide) fun rest fuel _ hfuel => ?_
      rw [List.length_append] at hfuel
      rw [List.append_assoc, List.singleton_append]
      simp [atom, stringLoop_quoted h (Nat.lt_of_succ_lt hfuel), ofScan]
  | array js cut ih =>
    intro depth hdepth text hj
    cases hj with
    | array h =>
      intro rest fuel hrest hfuel
      simp only [List.length_cons, List.length_append, List.length_nil] at hfuel
      obtain ⟨fuel, rfl⟩ := Nat.exists_eq_add_of_lt (show 0 < fuel by omega)
      obtain ⟨depth, rfl⟩ := Nat.exists_eq_add_of_lt (Nat.zero_lt_of_lt hdepth)
      have hitems := itemsDepth_le.1 (Nat.le_of_succ_le_succ hdepth)
      rw [List.cons_append, List.append_assoc, value.eq_def]
      simp only [dropBlanks_solid (show isBlank '[' = false from rfl), if_true]
      exact items_listed (fun j hj => ih j hj (hitems j hj)) h (by omega)
  | object ms cut ih =>
    intro depth hdepth text hj
    cases hj with
    | object h =>
      intro rest fuel hrest hfuel
      simp only [List.length_cons, List.length_append, List.length_nil] at hfuel
      obtain ⟨fuel, rfl⟩ := Nat.exists_eq_add_of_lt (show 0 < fuel by omega)
      obtain ⟨depth, rfl⟩ := Nat.exists_eq_add_of_lt (Nat.zero_lt_of_lt hdepth)
      have hmembers := membersDepth_le.1 (Nat.le_of_succ_le_succ hdepth)
      rw [List.cons_append, List.append_assoc, value.eq_def]
      simp only [dropBlanks_solid (show isBlank '{' = false from rfl), if_true]
      refine (members_listed (fun m hm _ => ih m hm (hmembers m hm)) h (by omega)).trans ?_
      rw [List.filter_eq_self.2 fun _ _ => rfl]
      rfl
  | broken fault => rintro depth - _ ⟨⟩

/-- The kept members of an object are read from each of its spellings. -/
theorem read_spelled {ms : Fields} {text : String} (h : Spelled (.object ms none) text)
    (hdepth : ∀ m ∈ ms, keep m.1 = true → m.2.depth < nestingLimit) :
    read keep text = (.object (ms.filter fun m => keep m.1) none, none) := by
  obtain ⟨before, body, after, hb, ha, hbody, htext⟩ := h
  cases hbody with
  | @object _ inner h =>
    have hchars : text.toList = before ++ '{' :: (inner ++ '}' :: after) := by
      rw [htext, List.cons_append, List.append_assoc, List.singleton_append]
    have hlength : 2 * inner.length < readingFuel text.toList := by
      simp only [hchars, readingFuel, List.length_append, List.length_cons]
      omega
    have hmembers : members (readingFuel text.toList) (nestingLimit - 1) keep true []
        (inner ++ '}' :: after) = _ := members_listed
      (fun m hm hkeep => value_written m.2 (Nat.le_sub_one_of_lt (hdepth m hm hkeep))) h hlength
    have hblank : dropBlanks after = [] := by
      rw [← List.append_nil after, dropBlanks_blank ha]
      rfl
    rw [read, hchars, dropBlanks_blank hb, dropBlanks_solid (by decide), ← hchars]
    simp only [hmembers, hblank]
    rfl

end Typelib.Json
