import Typelib.Description.Ty
import Typelib.Proofs.Description.Decoding

/-!
# How types are written

A type is a record whose tag tells which members stand beside the tag and the pointer flag. They may
come in any order, the tag last.

* `Ty.record`: how a type is written;
* `Ty.ofFields?_eq`: the type is read from its members;
* `Ty.decodes`: the type is read from each value that spells it.
-/

namespace Typelib

open Outline

namespace Ty

/-- The members that all types have. -/
def common (tag : TypeTag) (pointer : Bool) : List Member :=
  [.required "tag" (.string tag.name), .flag "pointer" pointer]

@[simp] theorem names_common (tag : TypeTag) (pointer : Bool) :
    (common tag pointer).map Member.name = ["tag", "pointer"] := rfl

/-- How a type is written. -/
def record : Ty → Roster
  | scalar kind p => ⟨common (.scalar kind) p, by simp⟩
  | interface name p => ⟨common .interface p ++ [.required "name" (.string name)], by simp⟩
  | array element zeroTerminated length p =>
    ⟨common .array p ++ [.required "element" (.record element.record),
      .flag "zero_terminated" zeroTerminated, .optional "length" uint16 length], by simp⟩
  | list element p => ⟨common .list p ++ [.required "element" (.record element.record)], by simp⟩
  | slist element p => ⟨common .slist p ++ [.required "element" (.record element.record)], by simp⟩
  | hash key value p =>
    ⟨common .hash p ++ [.required "key" (.record key.record),
      .required "value" (.record value.record)], by simp⟩
  | error domains p => ⟨common .error p ++ [.list "domains" string domains], by simp⟩

theorem tag?_name (tag : TypeTag) : tag? (.string tag.name) = some tag := by
  cases tag with
  | scalar kind => cases kind <;> decide
  | _ => decide

variable {fs : Json.Fields} {fuel : Nat}

/-- The tag and the pointer flag are found, whatever stands beside them. -/
theorem common_eq {tag : TypeTag} {p : Bool} (content : List Member)
    (hlimit : Json.membersDepth fs ≤ Json.nestingLimit)
    (h : ∀ m ∈ common tag p ++ content, m.In fs) :
    (Json.object fs none).fields? ["pointer", "tag"] = some fs ∧
      Field.flag fs "pointer" = some p ∧ Field.required fs "tag" tag? = some tag := by
  refine ⟨fields?_eq h (by simp), ?_⟩
  simp only [common, List.cons_append, List.forall_mem_cons] at h
  obtain ⟨htag, hpointer, -⟩ := h
  refine ⟨Decodes.flag hlimit hpointer, required_eq htag fun j _ hj => ?_⟩
  obtain rfl : j = .string tag.name := hj
  exact tag?_name tag

/-- The type is read from its members, if the fuel covers the brackets around them. -/
def Found (t : Ty) : Prop :=
  ∀ fuel fs, Json.membersDepth fs ≤ Json.nestingLimit → Json.membersDepth fs < fuel →
    (∀ m ∈ t.record.members, m.In fs) → ofFields? fuel fs = some t

theorem nested_eq {t : Ty} {name : String} {decode : Json → Option Ty}
    (hlimit : Json.membersDepth fs ≤ Json.nestingLimit) (hfuel : Json.membersDepth fs < fuel + 1)
    (h : (Member.required name (.record t.record)).In fs) (ht : t.Found)
    (hdecode : ∀ members cut, decode (.object members cut) = ofFields? fuel members) :
    Field.required fs name decode = some t := by
  refine required_eq h fun j hmem hj => ?_
  obtain ⟨inner, rfl, hinner⟩ := hj
  have hdepth : Json.membersDepth inner < Json.membersDepth fs :=
    Json.membersDepth_le.1 (Nat.le_refl _) _ hmem
  rw [hdecode]
  exact ht fuel inner (by omega) (by omega) hinner

/-- A type is found: the members that all types have, and then those that go with its tag. -/
theorem found (t : Ty) : t.Found := by
  induction t with
  | scalar kind p =>
    rintro (_ | fuel) fs hlimit hfuel h
    · cases hfuel
    obtain ⟨hcommon, hp, ht⟩ := common_eq [] hlimit h
    rw [ofFields?]
    simp only [hcommon, bind, Option.bind_some, hp, ht]
    rfl
  | interface name p =>
    rintro (_ | fuel) fs hlimit hfuel h
    · cases hfuel
    obtain ⟨hcommon, hp, ht⟩ := common_eq _ hlimit h
    have hcontent : (Json.object fs none).fields? ["name"] = some fs :=
      fields?_eq h (by simp [record])
    have hname := h (.required "name" (.string name)) (by simp [record])
    rw [ofFields?]
    simp only [hcommon, hcontent, bind, Option.bind_some, hp, ht,
      decodes_string.required hlimit hname]
    rfl
  | array element z l p ih =>
    rintro (_ | fuel) fs hlimit hfuel h
    · cases hfuel
    obtain ⟨hcommon, hp, ht⟩ := common_eq _ hlimit h
    have hcontent : (Json.object fs none).fields? ["element", "zero_terminated", "length"] =
        some fs := fields?_eq h (by simp [record])
    have helement := h (.required "element" (.record element.record)) (by simp [record])
    have hz := h (.flag "zero_terminated" z) (by simp [record])
    have hl := h (.optional "length" uint16 l) (by simp [record])
    rw [ofFields?]
    simp only [hcommon, hcontent, bind, Option.bind_some, hp, ht, Decodes.flag hlimit hz,
      Decodes.optional decodes_uint16 rfl hlimit hl]
    rw [nested_eq hlimit hfuel helement ih fun _ _ => rfl]
    rfl
  | list element p ih =>
    rintro (_ | fuel) fs hlimit hfuel h
    · cases hfuel
    obtain ⟨hcommon, hp, ht⟩ := common_eq _ hlimit h
    have hcontent : (Json.object fs none).fields? ["element"] = some fs :=
      fields?_eq h (by simp [record])
    have helement := h (.required "element" (.record element.record)) (by simp [record])
    rw [ofFields?]
    simp only [hcommon, hcontent, bind, Option.bind_some, hp, ht]
    rw [nested_eq hlimit hfuel helement ih fun _ _ => rfl]
    rfl
  | slist element p ih =>
    rintro (_ | fuel) fs hlimit hfuel h
    · cases hfuel
    obtain ⟨hcommon, hp, ht⟩ := common_eq _ hlimit h
    have hcontent : (Json.object fs none).fields? ["element"] = some fs :=
      fields?_eq h (by simp [record])
    have helement := h (.required "element" (.record element.record)) (by simp [record])
    rw [ofFields?]
    simp only [hcommon, hcontent, bind, Option.bind_some, hp, ht]
    rw [nested_eq hlimit hfuel helement ih fun _ _ => rfl]
    rfl
  | hash key value p ihk ihv =>
    rintro (_ | fuel) fs hlimit hfuel h
    · cases hfuel
    obtain ⟨hcommon, hp, ht⟩ := common_eq _ hlimit h
    have hcontent : (Json.object fs none).fields? ["key", "value"] = some fs :=
      fields?_eq h (by simp [record])
    have hkey := h (.required "key" (.record key.record)) (by simp [record])
    have hvalue := h (.required "value" (.record value.record)) (by simp [record])
    rw [ofFields?]
    simp only [hcommon, hcontent, bind, Option.bind_some, hp, ht]
    rw [nested_eq hlimit hfuel hkey ihk fun _ _ => rfl, Option.bind_some,
      nested_eq hlimit hfuel hvalue ihv fun _ _ => rfl]
    rfl
  | error domains p =>
    rintro (_ | fuel) fs hlimit hfuel h
    · cases hfuel
    obtain ⟨hcommon, hp, ht⟩ := common_eq _ hlimit h
    have hcontent : (Json.object fs none).fields? ["domains"] = some fs :=
      fields?_eq h (by simp [record])
    have hdomains := h (.list "domains" string domains) (by simp [record])
    rw [ofFields?]
    simp only [hcommon, hcontent, bind, Option.bind_some, hp, ht,
      Decodes.list decodes_string hlimit hdomains]
    rfl

/-- The type is read from each value that spells it. -/
theorem decodes : Decodes ofJson? fun t => .record t.record := by
  rintro t _ ⟨fs, rfl, h⟩ hdepth
  have hlimit : Json.membersDepth fs ≤ Json.nestingLimit := Nat.le_of_succ_le hdepth
  exact t.found _ fs hlimit (Nat.lt_succ_of_le hlimit) h

end Ty

end Typelib
