import Mathlib.Data.List.Forall2
import Typelib.Json.Decode
import Typelib.Proofs.Json.Grammar

/-!
# Outlines

An outline tells which values stand for something, whatever the order of their members and whatever
members they have besides. It knows how deep the shallowest of these values is nested, and that
there is one with a spelling.

* `Outline`: the values that stand for something;
* `Outline.list`, `Outline.record`: lists and records;
* `Outline.Member`: a member of a record, which may be left out or not.
-/

namespace Typelib

/-- Which values stand for something. -/
structure Outline where
  Spells : Json → Prop
  /-- How many brackets stand around the innermost part that cannot be left out. -/
  depth : Nat
  depth_le : ∀ {j : Json}, Spells j → depth ≤ j.depth
  /-- A spelling of a value with as few brackets as possible. -/
  exists_written : ∃ j, Spells j ∧ j.depth = depth ∧ ∃ text, Json.Written j text

namespace Outline

/-! ### Values without parts -/

def null : Outline where
  Spells j := j = .null
  depth := 0
  depth_le _ := Nat.zero_le _
  exists_written := ⟨_, rfl, rfl, _, .null⟩

def bool (b : Bool) : Outline where
  Spells j := j = .bool b
  depth := 0
  depth_le _ := Nat.zero_le _
  exists_written := ⟨_, rfl, rfl, match b with | false => ⟨_, .no⟩ | true => ⟨_, .yes⟩⟩

def string (s : String) : Outline where
  Spells j := j = .string s
  depth := 0
  depth_le _ := Nat.zero_le _
  exists_written :=
    ⟨_, rfl, rfl, (Json.exists_quoted s.toList).elim fun _ h => ⟨_, .string h⟩⟩

/-- A whole number that a word holds. -/
def int (n : Int) (hlo : -0x8000000000000000 ≤ n) (hhi : n ≤ 0xffffffffffffffff) : Outline where
  Spells j := j = .int n
  depth := 0
  depth_le _ := Nat.zero_le _
  exists_written := ⟨_, rfl, rfl, _, .int (Decimal.standard_iff.2 rfl) hlo hhi⟩

def uint8 (n : UInt8) : Outline := int n.toNat (by omega) (by have := n.toNat_lt; omega)

def uint16 (n : UInt16) : Outline := int n.toNat (by omega) (by have := n.toNat_lt; omega)

def int32 (n : Int32) : Outline :=
  int n.toInt (by have := n.le_toInt; omega) (by have := n.toInt_lt; omega)

def int64 (n : Int64) : Outline :=
  int n.toInt (by have := n.le_toInt; omega) (by have := n.toInt_lt; omega)

/-! ### Lists -/

theorem exists_items (os : List Outline) : ∃ js, List.Forall₂ (fun o j => o.Spells j) os js ∧
    Json.itemsDepth js = (os.map depth).foldr max 0 ∧ ∀ j ∈ js, ∃ text, Json.Written j text := by
  induction os with
  | nil => exact ⟨[], .nil, rfl, fun j hj => by cases hj⟩
  | cons o os ih =>
    obtain ⟨js, hjs, hdepth, hwritten⟩ := ih
    obtain ⟨j, hj, hd, htext⟩ := o.exists_written
    refine ⟨j :: js, .cons hj hjs, ?_, List.forall_mem_cons.2 ⟨htext, hwritten⟩⟩
    rw [Json.itemsDepth, hd, hdepth, List.map_cons, List.foldr_cons]

theorem foldr_depth_le {os : List Outline} {js : List Json}
    (h : List.Forall₂ (fun o j => o.Spells j) os js) :
    (os.map depth).foldr max 0 ≤ Json.itemsDepth js := by
  induction h with
  | nil => exact Nat.le_refl _
  | @cons o j os js hj _ ih =>
    rw [List.map_cons, List.foldr_cons, Json.itemsDepth]
    have := o.depth_le hj
    omega

/-- A list with an item for each outline. -/
def list (os : List Outline) : Outline where
  Spells j := ∃ js, j = .array js none ∧ List.Forall₂ (fun o j => o.Spells j) os js
  depth := (os.map depth).foldr max 0 + 1
  depth_le := by
    rintro _ ⟨js, rfl, h⟩
    exact Nat.succ_le_succ (foldr_depth_le h)
  exists_written := by
    obtain ⟨js, hjs, hdepth, hwritten⟩ := exists_items os
    obtain ⟨text, htext⟩ := Json.exists_listed hwritten
    exact ⟨_, ⟨js, rfl, hjs⟩, congrArg (· + 1) hdepth, _, .array htext⟩

/-! ### Records -/

/-- A member of a record. -/
structure Member where
  name : String
  /-- The member may be left out. -/
  omissible : Bool
  outline : Outline

namespace Member

/-- The members with a name. -/
def named (fs : Json.Fields) (name : String) : Json.Fields := fs.filter fun f => f.1 == name

/-- The member is among others, once, or is left out. -/
inductive In (m : Member) (fs : Json.Fields) : Prop
  | absent (ho : m.omissible = true) (h : named fs m.name = [])
  | present {j : Json} (h : named fs m.name = [(m.name, j)]) (hj : m.outline.Spells j)

/-- How deep a member must be nested. -/
def depth (m : Member) : Nat := if m.omissible then 0 else m.outline.depth

variable {m : Member} {fs : Json.Fields} {name : String} {j : Json}

theorem named_cons_self : named ((name, j) :: fs) name = (name, j) :: named fs name :=
  List.filter_cons_of_pos (by simp)

theorem named_cons_of_ne {key : String} (h : key ≠ name) :
    named ((key, j) :: fs) name = named fs name :=
  List.filter_cons_of_neg (by simpa using h)

/-- Members with other names may be taken away. -/
theorem named_filter {p : String → Bool} (h : p name = true) :
    named (fs.filter fun f => p f.1) name = named fs name := by
  rw [named, List.filter_filter]
  refine List.filter_congr fun f _ => ?_
  by_cases heq : f.1 = name
  · simp [heq, h]
  · simp [heq]

/-- What has other names makes no difference. -/
theorem In.congr {fs' : Json.Fields} (h : m.In fs) (heq : named fs' m.name = named fs m.name) :
    m.In fs' := by
  cases h with
  | absent ho h => exact .absent ho (heq.trans h)
  | present h hj => exact .present (heq.trans h) hj

theorem named_eq_nil (h : name ∉ fs.map (·.1)) : named fs name = [] := by
  refine List.filter_eq_nil_iff.2 fun f hf heq => h ?_
  rw [← eq_of_beq heq]
  exact List.mem_map_of_mem hf

theorem mem_of_named (h : named fs name = [(name, j)]) : (name, j) ∈ fs := by
  have hmem : (name, j) ∈ named fs name := h ▸ List.mem_singleton_self _
  exact (List.mem_filter.1 hmem).1

theorem In.depth_le (h : m.In fs) : m.depth ≤ Json.membersDepth fs := by
  rw [depth]
  cases h with
  | absent ho h => rw [if_pos ho]; exact Nat.zero_le _
  | @present j h hj =>
    have hle := Json.membersDepth_le.1 (Nat.le_refl _) _ (mem_of_named h)
    split
    · exact Nat.zero_le _
    · exact Nat.le_trans (m.outline.depth_le hj) hle

theorem foldr_depth_le {ms : List Member} (h : ∀ m ∈ ms, m.In fs) :
    (ms.map depth).foldr max 0 ≤ Json.membersDepth fs := by
  induction ms with
  | nil => exact Nat.zero_le _
  | cons m ms ih =>
    rw [List.forall_mem_cons] at h
    rw [List.map_cons, List.foldr_cons]
    exact Nat.max_le.2 ⟨h.1.depth_le, ih h.2⟩

end Member

theorem exists_members {ms : List Member} (hnames : (ms.map Member.name).Nodup) :
    ∃ fs : Json.Fields, (∀ m ∈ ms, m.In fs) ∧ (∀ f ∈ fs, f.1 ∈ ms.map Member.name) ∧
      Json.membersDepth fs = (ms.map Member.depth).foldr max 0 ∧
        ∀ f ∈ fs, ∃ text, Json.WrittenMember f text := by
  induction ms with
  | nil => exact ⟨[], by simp, by simp, rfl, by simp⟩
  | cons m ms ih =>
    rw [List.map_cons, List.nodup_cons] at hnames
    obtain ⟨fs, hfs, hsub, hdepth, hwritten⟩ := ih hnames.2
    have hnew : m.name ∉ fs.map (·.1) := by
      intro h
      obtain ⟨f, hf, hname⟩ := List.mem_map.1 h
      exact hnames.1 (hname ▸ hsub f hf)
    rw [List.map_cons, List.map_cons, List.foldr_cons, Member.depth, ← hdepth]
    -- what may be left out is left out, so that no brackets are spent on it
    by_cases ho : m.omissible = true
    · refine ⟨fs, List.forall_mem_cons.2 ⟨.absent ho (Member.named_eq_nil hnew), hfs⟩,
        fun f hf => List.mem_cons_of_mem _ (hsub f hf), ?_, hwritten⟩
      rw [if_pos ho, Nat.zero_max]
    · obtain ⟨j, hj, hd, htext⟩ := m.outline.exists_written
      refine ⟨(m.name, j) :: fs, List.forall_mem_cons.2 ⟨.present ?_ hj, fun m' hm' => ?_⟩,
        List.forall_mem_cons.2 ⟨List.mem_cons_self, fun f hf => List.mem_cons_of_mem _ (hsub f hf)⟩,
        ?_, List.forall_mem_cons.2 ⟨Json.exists_writtenMember htext, hwritten⟩⟩
      · rw [Member.named_cons_self, Member.named_eq_nil hnew]
      · refine (hfs m' hm').congr (Member.named_cons_of_ne fun heq => hnames.1 ?_)
        rw [heq]
        exact List.mem_map_of_mem hm'
      · rw [if_neg ho, Json.membersDepth, hd]

/-- The members of a record, under different names. -/
structure Roster where
  members : List Member
  names_nodup : (members.map Member.name).Nodup

/-- A record, which may have further members that it does not know. -/
def record (r : Roster) : Outline where
  Spells j := ∃ fs, j = .object fs none ∧ ∀ m ∈ r.members, m.In fs
  depth := (r.members.map Member.depth).foldr max 0 + 1
  depth_le := by
    rintro _ ⟨fs, rfl, h⟩
    exact Nat.succ_le_succ (Member.foldr_depth_le h)
  exists_written := by
    obtain ⟨fs, hfs, -, hdepth, hwritten⟩ := exists_members r.names_nodup
    obtain ⟨text, htext⟩ := Json.exists_listed hwritten
    exact ⟨_, ⟨fs, rfl, hfs⟩, congrArg (· + 1) hdepth, _, .object htext⟩

/-! ### Kinds of members -/

variable {α : Type} [DecidableEq α]

def nullable {α : Type} (outline : α → Outline) : Option α → Outline
  | none => null
  | some a => outline a

namespace Member

/-- A member that must be there. -/
def required (name : String) (outline : Outline) : Member := ⟨name, false, outline⟩

/-- A member that may be left out where it holds its default. -/
def withDefault (name : String) (default : α) (outline : α → Outline) (a : α) : Member :=
  ⟨name, decide (a = default), outline a⟩

/-- A flag may be left out where it is not set. -/
def flag (name : String) (b : Bool) : Member := withDefault name false bool b

/-- What is not there may be left out or null. -/
def optional (name : String) (outline : α → Outline) (a : Option α) : Member :=
  withDefault name none (nullable outline) a

/-- A list may be left out where it is empty. -/
def list (name : String) (outline : α → Outline) (as : List α) : Member :=
  withDefault name [] (fun as => .list (as.map outline)) as

variable (name : String)

@[simp] theorem required_name (o : Outline) : (required name o).name = name := rfl

@[simp] theorem withDefault_name (default : α) (outline : α → Outline) (a : α) :
    (withDefault name default outline a).name = name := rfl

@[simp] theorem flag_name (b : Bool) : (flag name b).name = name := rfl

@[simp] theorem optional_name (outline : α → Outline) (a : Option α) :
    (optional name outline a).name = name := rfl

@[simp] theorem list_name (outline : α → Outline) (as : List α) :
    (list name outline as).name = name := rfl

end Member

end Outline

end Typelib
