import Typelib.Image.Dump
import Typelib.Proofs.Guard.Endless
import Typelib.Proofs.Listing.Spec

/-!
# Stored types as text

A type that is read back ends, so the fuel of its text, one more than the length of the file, is
enough: with any fuel that reads the type back, the text is that of the type.

* `Image.Found`: what the body of a type holds, with the rows that hold it;
* `Image.ends_of_shape?`, `Image.shape?_of_shape?`: types that are read back end;
* `Dump.type_of_shape?`: their text.
-/

namespace Typelib

namespace Image

variable {img : Image} {t u : TypeRef} {level : Level} {s : Shape}

/-! ### One level -/

/-- What a reference and its body tell of a type, with the rows that tell it. -/
inductive Found (img : Image) (t : TypeRef) : Level → Prop
  | scalar {kind : Scalar} : t.tag? = some (.scalar kind) → Found img t (.scalar kind)
  | interface : t.tag? = some .interface → Found img t (.interface ⟨t.interface⟩)
  | array {row : ArrayTypeRow} : t.tag? = some .array → img.row ArrayTypeRow t.offset = .ok row →
      Found img t (.array row.element (row.flags.toNat.testBit ArrayTypeRow.zeroTerminatedBit)
        (if row.flags.toNat.testBit ArrayTypeRow.hasLengthBit then some row.length else none))
  | list {row : ParamTypeRow} {element : TypeRef} : t.tag? = some .list →
      img.row ParamTypeRow t.offset = .ok row →
      img.rows TypeRef (t.offset + 8) row.typeCount = .ok [element] → Found img t (.list element)
  | slist {row : ParamTypeRow} {element : TypeRef} : t.tag? = some .slist →
      img.row ParamTypeRow t.offset = .ok row →
      img.rows TypeRef (t.offset + 8) row.typeCount = .ok [element] → Found img t (.slist element)
  | hash {row : ParamTypeRow} {key value : TypeRef} : t.tag? = some .hash →
      img.row ParamTypeRow t.offset = .ok row →
      img.rows TypeRef (t.offset + 8) row.typeCount = .ok [key, value] →
      Found img t (.hash key value)
  | error {row : ErrorTypeRow} {domains : List DirRef} : t.tag? = some .error →
      img.row ErrorTypeRow t.offset = .ok row →
      img.refs (t.offset + 8) row.domainCount = .ok domains → Found img t (.error domains)

theorem toOption_eq_some {ε α : Type} {x : Except ε α} {a : α} (h : x.toOption = some a) :
    x = .ok a := by
  cases x with
  | ok b =>
    cases h
    rfl
  | error e => cases h

theorem found_of_level? (h : img.level? t = some level) : img.Found t level := by
  unfold level? at h
  split at h
  next => cases h
  next kind htag =>
    split_ifs at h
    cases h
    exact .scalar htag
  next htag =>
    split_ifs at h
    cases h
    exact .interface htag
  next htag =>
    obtain ⟨row, hrow, h⟩ := Option.bind_eq_some_iff.1 h
    obtain ⟨_, -, h⟩ := Option.bind_eq_some_iff.1 h
    cases h
    exact .array htag (toOption_eq_some hrow)
  next htag =>
    obtain ⟨row, hrow, h⟩ := Option.bind_eq_some_iff.1 h
    obtain ⟨_, -, h⟩ := Option.bind_eq_some_iff.1 h
    obtain ⟨domains, hrefs, h⟩ := Option.bind_eq_some_iff.1 h
    cases h
    exact .error htag (toOption_eq_some hrow) (toOption_eq_some hrefs)
  next tag _ _ _ _ htag =>
    obtain ⟨row, hrow, h⟩ := Option.bind_eq_some_iff.1 h
    obtain ⟨_, -, h⟩ := Option.bind_eq_some_iff.1 h
    obtain ⟨types, htypes, h⟩ := Option.bind_eq_some_iff.1 h
    have hrow := toOption_eq_some hrow
    have htypes := toOption_eq_some htypes
    split at h
    next => cases h; exact .list htag hrow htypes
    next => cases h; exact .slist htag hrow htypes
    next => cases h; exact .hash htag hrow htypes
    next => cases h

/-- The body of a type leads to what stands below its level, and to nothing else. -/
theorem leads_iff (h : img.level? t = some level) : img.Leads t u ↔ u ∈ level.refs := by
  have params {tag : TypeTag} {row : ParamTypeRow} {types : List TypeRef}
      (htag : t.tag? = some tag) (hmem : tag ∈ [TypeTag.list, .slist, .hash])
      (hrow : img.row ParamTypeRow t.offset = .ok row)
      (htypes : img.rows TypeRef (t.offset + 8) row.typeCount = .ok types) :
      img.Leads t u ↔ u ∈ types := by
    refine ⟨fun hl => ?_, .param htag hmem hrow htypes⟩
    cases hl with
    | element htag' => simp [htag] at htag'; simp [htag'] at hmem
    | param _ _ hrow' htypes' hu =>
      rw [hrow] at hrow'
      cases hrow'
      rw [htypes] at htypes'
      cases htypes'
      exact hu
  have none' (h₁ : t.tag? ≠ some .array) (h₂ : ∀ tag ∈ [TypeTag.list, .slist, .hash], t.tag? ≠ some tag) :
      img.Leads t u ↔ u ∈ [] := by
    refine ⟨fun hl => ?_, fun hu => by cases hu⟩
    cases hl with
    | element htag => exact absurd htag h₁
    | param htag hmem => exact absurd htag (h₂ _ hmem)
  cases found_of_level? h with
  | scalar htag => exact none' (by simp [htag]) (by simp [htag])
  | interface htag => exact none' (by simp [htag]) (by simp [htag])
  | error htag => exact none' (by simp [htag]) (by simp [htag])
  | list htag hrow htypes => exact params htag (by simp) hrow htypes
  | slist htag hrow htypes => exact params htag (by simp) hrow htypes
  | hash htag hrow htypes => exact params htag (by simp) hrow htypes
  | @array row htag hrow =>
    refine ⟨fun hl => ?_, fun hu => ?_⟩
    · cases hl with
      | element _ hrow' =>
        rw [hrow] at hrow'
        cases hrow'
        exact List.mem_singleton_self _
      | param htag' hmem =>
        rw [htag] at htag'
        cases htag'
        simp at hmem
    · rw [List.mem_singleton.1 hu]
      exact .element htag hrow

/-! ### Types that are read back end -/

/-- A type is read back with what stands below it. -/
theorem shape?_succ {fuel : Nat} (h : img.shape? (fuel + 1) t = some s) :
    ∃ level, img.level? t = some level ∧ ∀ u ∈ level.refs, ∃ s', img.shape? fuel u = some s' := by
  rw [shape?] at h
  obtain ⟨level, hlevel, h⟩ := Option.bind_eq_some_iff.1 h
  refine ⟨level, hlevel, ?_⟩
  cases level with
  | scalar | interface | error => exact fun u hu => by cases hu
  | array | list | slist =>
    obtain ⟨s', hs', -⟩ := Option.bind_eq_some_iff.1 h
    exact fun u hu => ⟨s', by rw [List.mem_singleton.1 hu]; exact hs'⟩
  | hash key value =>
    obtain ⟨k, hk, h⟩ := Option.bind_eq_some_iff.1 h
    obtain ⟨v, hv, -⟩ := Option.bind_eq_some_iff.1 h
    intro u hu
    simp only [Level.refs, List.mem_cons, List.not_mem_nil, or_false] at hu
    rcases hu with rfl | rfl
    · exact ⟨k, hk⟩
    · exact ⟨v, hv⟩

theorem exists_shape?_of_leads {fuel : Nat} (h : img.shape? (fuel + 1) t = some s)
    (hl : img.Leads t u) : ∃ s', img.shape? fuel u = some s' := by
  obtain ⟨level, hlevel, hall⟩ := shape?_succ h
  exact hall u ((leads_iff hlevel).1 hl)

/-- A type that is read back does not lead back to itself. -/
theorem not_cycle_of_shape? : ∀ {fuel : Nat} {t : TypeRef} {s : Shape},
    img.shape? fuel t = some s → ¬ Relation.TransGen img.Leads t t := by
  intro fuel
  induction fuel with
  | zero => exact fun h => by cases h
  | succ fuel ih =>
    intro t s h hcycle
    -- what the type leads to first would lead back to itself, too
    obtain ⟨u, hu, hback⟩ := Relation.TransGen.head'_iff.1 hcycle
    obtain ⟨s', hs'⟩ := exists_shape?_of_leads h hu
    exact ih hs' (Relation.TransGen.tail'_iff.2 ⟨t, hback, hu⟩)

theorem ends_of_shape? {fuel : Nat} (h : img.shape? fuel t = some s) : img.Ends t := by
  intro u hu
  have hread : ∃ fuel s, img.shape? fuel u = some s := by
    induction hu with
    | refl => exact ⟨fuel, s, h⟩
    | tail _ hlast ih =>
      obtain ⟨fuel', s', hs'⟩ := ih
      cases fuel' with
      | zero => cases hs'
      | succ fuel' => exact ⟨fuel', exists_shape?_of_leads hs' hlast⟩
  obtain ⟨fuel', s', hs'⟩ := hread
  exact not_cycle_of_shape? hs'

/-- A type is read back with fuel for all chains from it on. -/
theorem shape?_of_chains : ∀ (n : Nat) {fuel : Nat} {t : TypeRef} {s : Shape},
    (∀ us : List TypeRef, us.length = n → ¬ List.IsChain img.Leads (t :: us)) →
    img.shape? fuel t = some s → img.shape? n t = some s := by
  intro n
  induction n with
  | zero => exact fun hchains => absurd (.singleton _) (hchains [] rfl)
  | succ n ih =>
    intro fuel t s hchains h
    cases fuel with
    | zero => cases h
    | succ fuel =>
      obtain ⟨level, hlevel, hbelow⟩ := shape?_succ h
      have below : ∀ u ∈ level.refs, img.shape? n u = img.shape? fuel u := by
        intro u hu
        obtain ⟨s', hs'⟩ := hbelow u hu
        rw [hs', ih (fun us hlen hchain => ?_) hs']
        exact hchains (u :: us) (by rw [List.length_cons, hlen])
          (.cons_cons ((leads_iff hlevel).2 hu) hchain)
      rw [← h, shape?, shape?, hlevel]
      cases level with
      | scalar | interface | error => rfl
      | array element | list element | slist element =>
        simp only [Option.bind_eq_bind, Option.bind_some, below element (List.mem_singleton_self _)]
      | hash key value =>
        simp only [Option.bind_eq_bind, Option.bind_some, below key List.mem_cons_self,
          below value (List.mem_cons_of_mem _ (List.mem_singleton_self _))]

/-- The length of the file is fuel enough for whatever is read back at all. -/
theorem shape?_of_shape? {fuel : Nat} (h : img.shape? fuel t = some s) :
    img.shape? (img.bytes.size + 1) t = some s := by
  refine shape?_of_chains _ (fun us hlen hchain => ?_) h
  have hle := (ends_of_shape? h).length_le hchain
  omega

end Image

/-! ### Text -/

section Reads

variable {ε α β γ : Type}

/-- What was read goes on. -/
theorem read_bind {x : Except ε α} {f : α → Except ε β} {a : α} (h : x = .ok a) :
    (x >>= f) = f a := by
  rw [h]
  rfl

/-- Each of some things is read. -/
theorem mapM_eq_ok {f : α → Except ε β} {as : List α} {bs : List β}
    (h : List.Forall₂ (fun a b => f a = .ok b) as bs) : as.mapM f = .ok bs := by
  induction h with
  | nil => rfl
  | cons hab _ ih =>
    rw [List.mapM_cons, read_bind hab, read_bind ih]
    rfl

/-- Rows that go with members are shown as these are. -/
theorem mapM_rows {R : α → β → Prop} {f : α → Except ε γ} {g : β → γ} {as : List α} {bs : List β}
    (h : List.Forall₂ R as bs) (hf : ∀ a, ∀ b ∈ bs, R a b → f a = .ok (g b)) :
    as.mapM f = .ok (bs.map g) := by
  refine mapM_eq_ok ?_
  induction h with
  | nil => exact .nil
  | cons hab _ ih =>
    exact .cons (hf _ _ List.mem_cons_self hab)
      (ih fun a b hb => hf a b (List.mem_cons_of_mem _ hb))

end Reads

namespace Dump

open Listing

variable (d : Dump)

/-- The text of a shape. -/
def shapeText : Shape → String
  | .scalar kind p => starred p kind.name
  | .interface ref p => starred p (d.nameOf ref)
  | .array element zeroTerminated length p =>
    starred p (arrayText (shapeText element) zeroTerminated length)
  | .list element p => starred p ("list<" ++ shapeText element ++ ">")
  | .slist element p => starred p ("slist<" ++ shapeText element ++ ">")
  | .hash key value p => starred p ("hash<" ++ shapeText key ++ ", " ++ shapeText value ++ ">")
  | .error refs p => starred p (errorText (refs.map d.nameOf))

variable {d}

theorem typeName_of_shape? : ∀ {fuel : Nat} {t : TypeRef} {s : Shape},
    d.img.shape? fuel t = some s → d.typeName fuel t = .ok (d.shapeText s) := by
  intro fuel
  induction fuel with
  | zero => exact fun h => by cases h
  | succ fuel ih =>
    intro t s h
    rw [Image.shape?] at h
    obtain ⟨level, hlevel, h⟩ := Option.bind_eq_some_iff.1 h
    rw [typeName]
    cases Image.found_of_level? hlevel with
    | scalar htag =>
      cases h
      simp only [htag]
      rfl
    | interface htag =>
      cases h
      simp only [htag]
      rfl
    | @array row htag hrow =>
      obtain ⟨element, helement, h⟩ := Option.bind_eq_some_iff.1 h
      cases h
      simp only [htag]
      rw [read_bind hrow, read_bind (ih helement)]
      cases hl : row.flags.toNat.testBit ArrayTypeRow.hasLengthBit with
      | false => rfl
      | true => rfl
    | list htag hrow htypes | slist htag hrow htypes =>
      obtain ⟨element, helement, h⟩ := Option.bind_eq_some_iff.1 h
      cases h
      simp only [htag]
      rw [read_bind hrow, read_bind htypes, read_bind (mapM_eq_ok (.cons (ih helement) .nil))]
      rfl
    | hash htag hrow htypes =>
      obtain ⟨key, hkey, h⟩ := Option.bind_eq_some_iff.1 h
      obtain ⟨value, hvalue, h⟩ := Option.bind_eq_some_iff.1 h
      cases h
      simp only [htag]
      rw [read_bind hrow, read_bind htypes,
        read_bind (mapM_eq_ok (.cons (ih hkey) (.cons (ih hvalue) .nil)))]
      rfl
    | error htag hrow hrefs =>
      cases h
      simp only [htag]
      rw [read_bind hrow, read_bind hrefs, shapeText, errorText, List.isEmpty_map]
      rfl

/-- The text of a type that is read back is that of its shape. -/
theorem type_of_shape? {fuel : Nat} {t : TypeRef} {s : Shape} (h : d.img.shape? fuel t = some s) :
    d.type t = .ok (d.shapeText s) :=
  typeName_of_shape? (Image.shape?_of_shape? h)

end Dump

end Typelib
