import Typelib.Proofs.Description.Outline
import Typelib.Json.Read

/-!
# Decoding outlined values

A decoder fits an outline if it takes each outlined value to what it stands for, as long as the
value is not nested too deeply. What fits the members of a record fits the record.

* `Outline.Decodes`: a decoder fits an outline;
* `Outline.Decodes.required`, `Outline.Decodes.withDefault`: a member is found among others;
* `Outline.decodes_record`: a record is decoded from its members.
-/

namespace Typelib.Outline

open Member

variable {α : Type} {decode : Json → Option α} {outline : α → Outline} {fs : Json.Fields}
  {name : String} {j : Json} {a : α}

/-- The decoder takes the values of the outlines to what they stand for. -/
def Decodes (decode : Json → Option α) (outline : α → Outline) : Prop :=
  ∀ a j, (outline a).Spells j → j.depth ≤ Json.nestingLimit → decode j = some a

/-! ### Members -/

theorem lookup_eq (fs : Json.Fields) (name : String) :
    fs.lookup name = (named fs name).head?.map (·.2) := by
  induction fs with
  | nil => rfl
  | cons f fs ih =>
    obtain ⟨key, j⟩ := f
    by_cases h : key = name
    · subst h
      simp [named_cons_self]
    · rw [named_cons_of_ne h, List.lookup_cons, beq_eq_false_iff_ne.2 (Ne.symm h)]
      exact ih

theorem lookup_of_named (h : named fs name = [(name, j)]) : fs.lookup name = some j := by
  rw [lookup_eq, h]
  rfl

theorem lookup_of_named_nil (h : named fs name = []) : fs.lookup name = none := by
  rw [lookup_eq, h]
  rfl

theorem required_eq {o : Outline} (h : (Member.required name o).In fs)
    (hd : ∀ j, (name, j) ∈ fs → o.Spells j → decode j = some a) :
    Field.required fs name decode = some a := by
  cases h with
  | absent ho => cases ho
  | @present j h hj =>
    have hlookup : fs.lookup name = some j := lookup_of_named h
    rw [Field.required, hlookup]
    exact hd j (mem_of_named h) hj

theorem Decodes.required (hd : Decodes decode outline)
    (hfs : Json.membersDepth fs ≤ Json.nestingLimit)
    (h : (Member.required name (outline a)).In fs) : Field.required fs name decode = some a :=
  required_eq h fun j hmem hj => hd a j hj (Json.membersDepth_le.1 hfs _ hmem)

variable [DecidableEq α]

theorem Decodes.withDefault {default : α} (hd : Decodes decode outline)
    (hfs : Json.membersDepth fs ≤ Json.nestingLimit)
    (h : (Member.withDefault name default outline a).In fs) :
    Field.withDefault fs name default decode = some a := by
  rw [Field.withDefault]
  cases h with
  | absent ho h =>
    have hlookup : fs.lookup name = none := lookup_of_named_nil h
    rw [hlookup, of_decide_eq_true ho]
  | @present j h hj =>
    have hlookup : fs.lookup name = some j := lookup_of_named h
    rw [hlookup]
    exact hd a j hj (Json.membersDepth_le.1 hfs _ (mem_of_named h))

omit [DecidableEq α] in
theorem decodes_nullable (hd : Decodes decode outline) (hnull : decode .null = none) :
    Decodes (Json.nullable? decode) (nullable outline) := by
  rintro (_ | a) j hj hdepth
  · obtain rfl : j = .null := hj
    rfl
  · -- a value that stands for something is not null, or the decoder would take null to it
    have hj := hd a j hj hdepth
    cases j with
    | null => rw [hnull] at hj; cases hj
    | _ => exact congrArg (Option.map some) hj

omit [DecidableEq α] in
theorem decodes_list (hd : Decodes decode outline) :
    Decodes (Json.list? decode) fun as => .list (as.map outline) := by
  rintro as _ ⟨js, rfl, hjs⟩ hdepth
  have hitems := Json.itemsDepth_le.1 (Nat.le_of_succ_le hdepth)
  clear hdepth
  rw [Json.list?]
  induction as generalizing js with
  | nil =>
    cases hjs
    rfl
  | cons a as ih =>
    cases hjs with
    | cons hj hjs =>
      rw [List.forall_mem_cons] at hitems
      rw [List.mapM_cons, hd a _ hj hitems.1, ih _ hjs hitems.2]
      rfl

theorem decodes_string : Decodes Json.string? string := by
  rintro s _ rfl -
  rfl

theorem decodes_bool : Decodes Json.bool? bool := by
  rintro b _ rfl -
  rfl

theorem intIn?_eq {lo hi n : Int} (hlo : lo ≤ n) (hhi : n ≤ hi) :
    (Json.int n).intIn? lo hi = some n := if_pos ⟨hlo, hhi⟩

theorem decodes_uint8 : Decodes Json.uint8? uint8 := by
  rintro n _ rfl -
  have hn := n.toNat_lt
  rw [Json.uint8?, intIn?_eq (by omega) (by omega)]
  simp

theorem decodes_uint16 : Decodes Json.uint16? uint16 := by
  rintro n _ rfl -
  have hn := n.toNat_lt
  rw [Json.uint16?, intIn?_eq (by omega) (by omega)]
  simp

theorem decodes_int32 : Decodes Json.int32? int32 := by
  rintro n _ rfl -
  have hlo := n.le_toInt
  have hhi := n.toInt_lt
  rw [Json.int32?, intIn?_eq (by omega) (by omega)]
  simp

theorem decodes_int64 : Decodes Json.int64? int64 := by
  rintro n _ rfl -
  have hlo := n.le_toInt
  have hhi := n.toInt_lt
  rw [Json.int64?, intIn?_eq (by omega) (by omega)]
  simp

theorem Decodes.flag {b : Bool} (hfs : Json.membersDepth fs ≤ Json.nestingLimit)
    (h : (Member.flag name b).In fs) : Field.flag fs name = some b :=
  decodes_bool.withDefault hfs h

theorem Decodes.optional {a : Option α} (hd : Decodes decode outline) (hnull : decode .null = none)
    (hfs : Json.membersDepth fs ≤ Json.nestingLimit)
    (h : (Member.optional name outline a).In fs) : Field.optional fs name decode = some a :=
  (decodes_nullable hd hnull).withDefault hfs h

theorem Decodes.list {as : List α} (hd : Decodes decode outline)
    (hfs : Json.membersDepth fs ≤ Json.nestingLimit) (h : (Member.list name outline as).In fs) :
    Field.list fs name decode = some as :=
  (decodes_list hd).withDefault hfs h

/-! ### Records -/

omit [DecidableEq α]

/-- No known member of a record is repeated. -/
theorem fields?_eq {ms : List Member} {known : List String}
    (h : ∀ m ∈ ms, m.In fs) (hknown : known ⊆ ms.map Member.name) :
    (Json.object fs none).fields? known = some fs := by
  refine if_pos (List.all_eq_true.2 fun name hname => decide_eq_true ?_)
  obtain ⟨m, hm, rfl⟩ := List.mem_map.1 (hknown hname)
  change (named fs m.name).length ≤ 1
  cases h m hm with
  | absent _ h => rw [h]; exact Nat.zero_le _
  | present h _ => rw [h]; exact Nat.le_refl _

theorem decodes_record {r : α → Roster} {known : List String} {body : Json.Fields → Option α}
    (hknown : ∀ a, (r a).members.map Member.name = known)
    (hbody : ∀ a fs, Json.membersDepth fs ≤ Json.nestingLimit → (∀ m ∈ (r a).members, m.In fs) →
      body fs = some a) :
    Decodes (fun j => j.fields? known >>= body) fun a => record (r a) := by
  rintro a _ ⟨fs, rfl, h⟩ hdepth
  change (Json.object fs none).fields? known >>= body = some a
  rw [fields?_eq h fun _ hname => hknown a ▸ hname]
  exact hbody a fs (Nat.le_of_succ_le hdepth) h

end Typelib.Outline
