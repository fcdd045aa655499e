import Typelib.Proofs.Description.Node
import Typelib.Proofs.Json.Reading

/-!
# Descriptions and their texts

A description can be written in many ways: the members of each record in any order, defaults written
or left out, with blanks between all parts, escapes inside strings and members that nobody knows.
All of these texts are read as the same description.

* `Document.record`: how a description is written;
* `Document.SpelledBy`: the texts of a description;
* `Document.ofText_spelled`: a description has a text if its types are not nested too deeply, and
  all its texts are read as the description.
-/

namespace Typelib

open Outline

variable {α : Type} {fs : Json.Fields} {key : String} {j : Json}

theorem Json.meant_eq {decode : Json → Option α} {a : α} (hwhole : j.fault? = none)
    (h : decode j = some a) : j.meant decode = .ok a := by
  cases j with
  | broken => cases hwhole
  | _ => simp only [Json.meant, h]

namespace Document

/-- How a description is written. -/
def record (d : Document) : Roster where
  members := [
    .required "namespace" (string d.namespaceName),
    .optional "shared_library" string d.sharedLibrary,
    .list "nodes" (fun n => .record n.record) d.nodes]
  names_nodup := by simp

/-- The text spells the description. What stands behind a known name is nested within the limit;
what stands behind others may be nested to any depth. -/
def SpelledBy (d : Document) (text : String) : Prop :=
  ∃ fs, Json.Spelled (.object fs none) text ∧ (Outline.record d.record).Spells (.object fs none) ∧
    ∀ f ∈ fs, f.1 ∈ known → f.2.depth < Json.nestingLimit

/-! ### Reading the members -/

/-- A member that was met holds what it should, and one that was not is still to come. -/
inductive Awaits (m : Member) (a : α) (fs : Json.Fields) : Option α → Prop
  | met (h : Member.named fs m.name = []) : Awaits m a fs (some a)
  | ahead (h : m.In fs) : Awaits m a fs none

variable {m : Member} {a : α} {slot : Option α}

theorem Awaits.of_cons (h : Awaits m a ((key, j) :: fs) slot) (hne : key ≠ m.name) :
    Awaits m a fs slot := by
  cases h with
  | met h => exact .met ((Member.named_cons_of_ne hne).symm.trans h)
  | ahead h => exact .ahead (h.congr (Member.named_cons_of_ne hne).symm)

/-- A member is met once. -/
theorem Awaits.meet (h : Awaits m a ((m.name, j) :: fs) slot) :
    slot = none ∧ m.outline.Spells j ∧ Awaits m a fs (some a) := by
  cases h with
  | met h =>
    rw [Member.named_cons_self] at h
    cases h
  | ahead h =>
    cases h with
    | absent _ h =>
      rw [Member.named_cons_self] at h
      cases h
    | present h hj =>
      rw [Member.named_cons_self] at h
      obtain ⟨hf, hrest⟩ := List.cons.inj h
      cases hf
      exact ⟨rfl, hj, .met hrest⟩

/-- What was left out holds its default. -/
theorem Awaits.getD [DecidableEq α] {name : String} {default : α} {outline : α → Outline}
    (h : Awaits (.withDefault name default outline a) a [] slot) : slot.getD default = a := by
  cases h with
  | met => rfl
  | ahead h =>
    cases h with
    | absent ho => exact (of_decide_eq_true ho).symm
    | present h => cases h

theorem Awaits.required {name : String} {o : Outline} (h : Awaits (.required name o) a [] slot) :
    slot = some a := by
  cases h with
  | met => rfl
  | ahead h =>
    cases h with
    | absent ho => cases ho
    | present h => cases h

theorem meantList_nodes {nodes : List Node} {js : List Json}
    (h : List.Forall₂ (fun (o : Outline) j => o.Spells j)
      (nodes.map fun n => Outline.record n.record) js)
    (hwhole : ∀ j ∈ js, j.fault? = none) (hdepth : ∀ j ∈ js, j.depth ≤ Json.nestingLimit) :
    js.mapM Node.ofJson = .ok nodes := by
  induction nodes generalizing js with
  | nil => cases h; rfl
  | cons n nodes ih =>
    cases h with
    | cons hj h =>
      rw [List.forall_mem_cons] at hwhole hdepth
      rw [List.mapM_cons, Node.ofJson_eq hj hwhole.1 hdepth.1, ih h hwhole.2 hdepth.2]
      rfl

/-- What was read so far is right, and the rest is still to come. -/
structure Agrees (d : Document) (fs : Json.Fields) (p : Partial) : Prop where
  name : Awaits (.required "namespace" (string d.namespaceName)) d.namespaceName fs p.name
  library : Awaits (.optional "shared_library" string d.sharedLibrary) d.sharedLibrary fs p.library
  nodes : Awaits (.list "nodes" (fun n => Outline.record n.record) d.nodes) d.nodes fs p.nodes

variable {d : Document} {p : Partial}

theorem Agrees.add (h : Agrees d ((key, j) :: fs) p) (hwhole : j.fault? = none)
    (hdepth : j.depth ≤ Json.nestingLimit) : ∃ p', p.add key j = .ok p' ∧ Agrees d fs p' := by
  by_cases hname : key = "namespace"
  · subst hname
    obtain ⟨hnone, hj, hmet⟩ := h.name.meet
    have hmeant := Json.meant_eq hwhole (decodes_string _ j hj hdepth)
    refine ⟨{ p with name := some d.namespaceName }, ?_, hmet, h.library.of_cons (by simp),
      h.nodes.of_cons (by simp)⟩
    simp [Partial.add, hnone, hmeant, bind, Except.bind]
  by_cases hlibrary : key = "shared_library"
  · subst hlibrary
    obtain ⟨hnone, hj, hmet⟩ := h.library.meet
    have hmeant := Json.meant_eq hwhole (decodes_nullable decodes_string rfl _ j hj hdepth)
    refine ⟨{ p with library := some d.sharedLibrary }, ?_, h.name.of_cons (by simp), hmet,
      h.nodes.of_cons (by simp)⟩
    simp [Partial.add, hnone, hmeant, bind, Except.bind]
  by_cases hnodes : key = "nodes"
  · subst hnodes
    obtain ⟨hnone, ⟨js, rfl, hjs⟩, hmet⟩ := h.nodes.meet
    have hmeant : (Json.array js none).meantList Node.ofJson = .ok d.nodes := by
      rw [Json.meantList, meantList_nodes hjs (Json.itemsFault?_eq_none.1 hwhole)
        (Json.itemsDepth_le.1 (Nat.le_of_succ_le hdepth))]
      rfl
    refine ⟨{ p with nodes := some d.nodes }, ?_, h.name.of_cons (by simp),
      h.library.of_cons (by simp), hmet⟩
    simp [Partial.add, hnone, hmeant, bind, Except.bind]
  · exact ⟨p, by simp [Partial.add, hname, hlibrary, hnodes], h.name.of_cons hname,
      h.library.of_cons hlibrary, h.nodes.of_cons hnodes⟩

theorem Agrees.finish (h : Agrees d [] p) : p.finish = .ok d := by
  rw [Partial.finish, h.name.required, h.library.getD, h.nodes.getD]

theorem Agrees.foldlM (h : Agrees d fs p) (hwhole : ∀ f ∈ fs, f.2.fault? = none)
    (hdepth : ∀ f ∈ fs, f.2.depth ≤ Json.nestingLimit) :
    ∃ p', fs.foldlM (fun (p : Partial) (key, value) => p.add key value) p = .ok p' ∧
      p'.finish = .ok d := by
  induction fs generalizing p with
  | nil => exact ⟨p, rfl, h.finish⟩
  | cons f fs ih =>
    obtain ⟨key, j⟩ := f
    rw [List.forall_mem_cons] at hwhole hdepth
    obtain ⟨p', hadd, h⟩ := h.add hwhole.1 hdepth.1
    obtain ⟨final, hfold, hfinish⟩ := ih h hwhole.2 hdepth.2
    refine ⟨final, ?_, hfinish⟩
    rw [List.foldlM_cons]
    simp only [hadd]
    exact hfold

/-! ### Texts -/

theorem agrees_start (h : (Outline.record d.record).Spells (.object fs none)) : Agrees d fs {} := by
  obtain ⟨_, ⟨⟩, h⟩ := h
  simp only [record, List.forall_mem_cons] at h
  obtain ⟨hname, hlibrary, hnodes, -⟩ := h
  exact ⟨.ahead hname, .ahead hlibrary, .ahead hnodes⟩

/-- Members that nobody knows may be passed over. -/
theorem spells_known (h : (Outline.record d.record).Spells (.object fs none)) :
    (Outline.record d.record).Spells (.object (fs.filter fun f => known.contains f.1) none) := by
  obtain ⟨_, ⟨⟩, h⟩ := h
  refine ⟨_, rfl, fun m hm => (h m hm).congr (Member.named_filter (p := known.contains) ?_)⟩
  exact List.contains_iff_mem.2 (List.mem_map_of_mem (f := Member.name) hm)

theorem membersDepth_known (h : ∀ f ∈ fs, f.1 ∈ known → f.2.depth < Json.nestingLimit) :
    Json.membersDepth (fs.filter fun f => known.contains f.1) < Json.nestingLimit := by
  refine Nat.lt_of_le_pred (by decide) (Json.membersDepth_le.2 fun f hf => ?_)
  obtain ⟨hf, hknown⟩ := List.mem_filter.1 hf
  exact Nat.le_pred_of_lt (h f hf (List.contains_iff_mem.1 hknown))

/-- Texts of a description are read as the description. -/
theorem ofText_of_spelledBy {text : String} (h : d.SpelledBy text) : ofText text = .ok d := by
  obtain ⟨fs, htext, hspells, hdepth⟩ := h
  have hread : Json.read known.contains text = _ :=
    Json.read_spelled htext fun f hf hk => hdepth f hf (List.contains_iff_mem.1 hk)
  have hwhole := Json.membersFault?_eq_none.1 htext.fault?
  obtain ⟨p, hfold, hfinish⟩ := (agrees_start (spells_known hspells)).foldlM
    (fun f hf => hwhole f (List.mem_of_mem_filter hf))
    (Json.membersDepth_le.1 (Nat.le_of_lt (membersDepth_known hdepth)))
  simp only [ofText, Json.ofText, hread, ofJson, hfold, bind, Except.bind, Json.unlessCut, hfinish]

/-- A description can be spelled if it can be spelled without too many brackets. -/
theorem exists_spelledBy_iff :
    (∃ text, d.SpelledBy text) ↔ (Outline.record d.record).depth ≤ Json.nestingLimit := by
  constructor
  · rintro ⟨text, fs, -, hspells, hdepth⟩
    exact Nat.le_trans ((Outline.record d.record).depth_le (spells_known hspells))
      (membersDepth_known hdepth)
  · intro h
    obtain ⟨j, hspells, hdepth, text, htext⟩ := (Outline.record d.record).exists_written
    obtain ⟨fs, rfl, hfs⟩ := hspells
    have hspelled : Json.Spelled (.object fs none) (String.ofList text) :=
      ⟨[], text, [], Json.blank_nil, Json.blank_nil, htext, by simp⟩
    refine ⟨String.ofList text, fs, hspelled, ⟨fs, rfl, hfs⟩, fun f hf _ => ?_⟩
    exact Nat.lt_of_le_of_lt (Json.membersDepth_le.1 (Nat.le_refl _) f hf)
      (Nat.le_trans (Nat.le_of_eq hdepth) h)

/-- A description can be spelled, and spelling does not matter: whatever text spells it is read as
the description. -/
theorem ofText_spelled (d : Document) :
    ((∃ text, d.SpelledBy text) ↔ (Outline.record d.record).depth ≤ Json.nestingLimit) ∧
      ∀ text, d.SpelledBy text → ofText text = .ok d :=
  ⟨exists_spelledBy_iff, fun _ => ofText_of_spelledBy⟩

/-- A description of one callback. -/
def lone : Document := { namespaceName := "D", nodes := [.callback { name := "f" }] }

/-- The members of a text that names the kind of the callback last. -/
def loneMembers : Json.Fields :=
  [("nodes", .array [.object [("x", .array [.bool true] none), ("name", .string "f"),
      ("kind", .string "callback")] none] none),
    ("namespace", .string "D")]

def loneText : String :=
  "\x7b\"nodes\": [\x7b\"x\":[true], \"name\":\"\\u0066\", \"kind\":\"callback\"\x7d],\n" ++
    "\"namespace\":\"D\"\x7d\n"

open Json in
theorem spelled_lone : Spelled (.object loneMembers none) loneText := by
  have hspace : Blank [' '] := by simp [Blank]
  have hline : Blank ['\n'] := by simp [Blank]
  have hf : FourDigits 'f'.toNat ['0', '0', '6', '6'] :=
    .digits ⟨(by decide : 0 < 16), .inl rfl⟩ ⟨(by decide : 0 < 16), .inl rfl⟩
      ⟨(by decide : 6 < 16), .inl rfl⟩ ⟨(by decide : 6 < 16), .inl rfl⟩
  have hx := WrittenMember.member (.plain "x".toList rfl) blank_nil blank_nil
    (.array (.cons blank_nil .yes (.nil blank_nil)))
  have hname : WrittenMember ("name", .string "f") _ :=
    .member (.plain "name".toList rfl) blank_nil blank_nil
      (.string (.cons (.unicode hf) .nil))
  have hkind : WrittenMember ("kind", .string "callback") _ :=
    .member (.plain "kind".toList rfl) blank_nil blank_nil
      (.string (.plain "callback".toList rfl))
  have hnodes : WrittenMember ("nodes", _) _ :=
    .member (.plain "nodes".toList rfl) blank_nil hspace
      (.array (.cons blank_nil (.object (.cons blank_nil hx (.cons blank_nil hspace hname
        (.cons blank_nil hspace hkind (.nil blank_nil))))) (.nil blank_nil)))
  have hnamespace : WrittenMember ("namespace", .string "D") _ :=
    .member (.plain "namespace".toList rfl) blank_nil blank_nil
      (.string (.plain "D".toList rfl))
  exact ⟨[], _, ['\n'], blank_nil, hline,
    .object (.cons blank_nil hnodes (.cons blank_nil hline hnamespace (.nil blank_nil))), rfl⟩

theorem lone_spelledBy : lone.SpelledBy loneText := by
  have hcallback : ∀ m ∈ (Node.callback { name := "f" }).record.members, m.In
      [("x", .array [.bool true] none), ("name", .string "f"), ("kind", .string "callback")] := by
    simp only [Node.record, Node.content, CallbackDecl.record, List.forall_mem_cons]
    exact ⟨.present rfl rfl, .present rfl rfl, .absent rfl rfl, .absent rfl rfl, by simp⟩
  refine ⟨loneMembers, spelled_lone, ⟨_, rfl, ?_⟩, by decide⟩
  simp only [record, List.forall_mem_cons]
  exact ⟨.present rfl rfl, .absent rfl rfl,
    .present rfl ⟨_, rfl, .cons ⟨_, rfl, hcallback⟩ .nil⟩, by simp⟩

/-- The blanks, the escape, the order of the members and the one that nobody knows make no
difference. -/
theorem ofText_spelled_lone : lone.SpelledBy loneText ∧ ofText loneText = .ok lone :=
  ⟨lone_spelledBy, (ofText_spelled lone).2 loneText lone_spelledBy⟩

end Document

end Typelib
