import Mathlib.Data.List.Sort
import Typelib.Proofs.Listing.Types

/-!
# Names and types as text

In the file of a description each name has the slot of what it stands for, and the names of the slots
are those of the entries of the description. So types are shown as they are described.

* `Legend`: the names in the file of a description;
* `Legend.nameOf`, `Legend.domains`: names and error domains;
* `Legend.type`: types.
-/

namespace Typelib

/-! ### Positions in increasing order -/

theorem filterMap_range_getElem? {α : Type} (l : List α) :
    (List.range l.length).filterMap (l[·]?) = l := by
  induction l with
  | nil => rfl
  | cons a l ih =>
    rw [List.length_cons, List.range_succ_eq_map, List.filterMap_cons_some List.getElem?_cons_zero,
      List.filterMap_map]
    exact congrArg (a :: ·) ih

/-- What stands at increasing positions of a list is a part of it. -/
theorem sublist_filterMap_getElem? {α : Type} (l : List α) {is : List Nat}
    (h : is.Pairwise (· < ·)) : (is.filterMap (l[·]?)).Sublist l := by
  -- there is nothing at the other positions
  have hinside : is.filterMap (l[·]?) = (is.filter (· < l.length)).filterMap (l[·]?) := by
    rw [List.filterMap_filter]
    refine List.filterMap_congr fun i _ => ?_
    by_cases hi : i < l.length
    · simp [hi]
    · simp [hi]
  have horder := h.filter (· < l.length)
  have hsub : (is.filter (· < l.length)).Subperm (List.range l.length) := by
    refine List.subperm_of_subset (horder.imp Nat.ne_of_lt) fun i hi => ?_
    simpa using (List.mem_filter.1 hi).2
  have hpart := (List.sublist_of_subperm_of_pairwise hsub horder List.pairwise_lt_range).filterMap
    (l[·]?)
  rwa [filterMap_range_getElem?, ← hinside] at hpart

/-! ### Slots -/

/-- The entry that a reference leads to. -/
def Scope.entityAt? (s : Scope) (ref : DirRef) : Option Entity :=
  ref.index?.bind fun i => s.directory[i]?

/-- A dump shows the file of a description: the names of the slots are those of its entries, and each
name that is referred to has the slot of what it stands for. -/
structure Legend (s : Scope) (r : Reading) (d : Dump) : Prop where
  img : d.img = r.img
  names : d.names.toList = s.directory.map Entity.text
  nodup : s.directory.Nodup
  slot : ∀ name ∈ s.names, s.entityAt? (r.slot name) = some (s.entity name)

namespace Legend

open Listing

variable {s : Scope} {r : Reading} {d : Dump}

theorem nameOf_of_entityAt? (h : Legend s r d) {ref : DirRef} {e : Entity}
    (he : s.entityAt? ref = some e) : d.nameOf ref = e.text := by
  obtain ⟨i, hi, he⟩ := Option.bind_eq_some_iff.1 he
  have hname : d.names[i]? = some e.text := by
    rw [← Array.getElem?_toList, h.names, List.getElem?_map, he]
    rfl
  rw [Dump.nameOf, hi, Option.bind_some, hname]
  rfl

/-- A name is shown as what it stands for. -/
theorem nameOf (h : Legend s r d) {name : String} (hn : name ∈ s.names) :
    d.nameOf (r.slot name) = (s.entity name).text := h.nameOf_of_entityAt? (h.slot name hn)

/-- References in increasing order lead to a part of the directory. -/
theorem sublist_entityAt? (s : Scope) {refs : List DirRef}
    (h : refs.Pairwise fun a b => a.raw < b.raw) :
    (refs.filterMap s.entityAt?).Sublist s.directory := by
  have hpositions : (refs.filterMap DirRef.index?).Pairwise (· < ·) := by
    refine List.pairwise_filterMap.2 (h.imp fun {a b} hab i hi j hj => ?_)
    have hlt : a.raw.toNat < b.raw.toNat := hab
    rw [DirRef.toNat_of_index? hi, DirRef.toNat_of_index? hj] at hlt
    omega
  have hpart := sublist_filterMap_getElem? s.directory hpositions
  rwa [List.filterMap_filterMap] at hpart

/-- Error domains are shown once each, in the order of the directory. -/
theorem domains (h : Legend s r d) {refs : List DirRef} {names : List String}
    (hnames : ∀ name ∈ names, name ∈ s.names) (horder : refs.Pairwise fun a b => a.raw < b.raw)
    (hrefs : ∀ ref ∈ refs, ∃ name ∈ names, ref = r.slot name)
    (hall : ∀ name ∈ names, ∃ ref ∈ refs, ref = r.slot name) :
    refs.map d.nameOf = s.domainTexts names := by
  have hpart := sublist_entityAt? s horder
  have hsame : refs.filterMap s.entityAt? = s.directory.filter (· ∈ names.map s.entity) := by
    refine (List.Nodup.perm_iff_eq_of_sublist h.nodup hpart List.filter_sublist).1 ?_
    rw [List.perm_ext_iff_of_nodup (h.nodup.sublist hpart) (h.nodup.filter _)]
    intro e
    simp only [List.mem_filterMap, List.mem_filter, List.mem_map, decide_eq_true_eq]
    constructor
    · rintro ⟨ref, href, he⟩
      refine ⟨hpart.subset (List.mem_filterMap.2 ⟨ref, href, he⟩), ?_⟩
      obtain ⟨name, hname, rfl⟩ := hrefs ref href
      rw [h.slot name (hnames name hname)] at he
      exact ⟨name, hname, Option.some.inj he⟩
    · rintro ⟨-, name, hname, rfl⟩
      obtain ⟨ref, href, rfl⟩ := hall name hname
      exact ⟨_, href, h.slot name (hnames name hname)⟩
  rw [Scope.domainTexts, ← hsame, List.map_filterMap, ← List.filterMap_eq_map]
  refine List.filterMap_congr fun ref href => ?_
  obtain ⟨name, hname, rfl⟩ := hrefs ref href
  have hn := hnames name hname
  rw [h.slot name hn, Option.map_some, Function.comp_apply, h.nameOf hn]

end Legend

/-! ### Types -/

/-- The names of a type are among those that are referred to. -/
def Scope.Covers (s : Scope) (t : Ty) : Prop := ∀ name ∈ t.names, name ∈ s.names

namespace Legend

open Listing

variable {s : Scope} {r : Reading} {d : Dump}

/-- A shape is shown as the type that it is the shape of. -/
theorem shapeText (h : Legend s r d) {t : Ty} : ∀ {shape : Shape}, r.Shows shape t → s.Covers t →
    d.shapeText shape = s.typeText t := by
  induction t with
  | scalar kind p =>
    intro shape hs _
    cases shape with
    | scalar =>
      obtain ⟨rfl, rfl⟩ := hs
      rfl
    | _ => exact hs.elim
  | interface name p =>
    intro shape hs hn
    cases shape with
    | interface ref =>
      obtain ⟨⟨rfl, -⟩, rfl⟩ := hs
      rw [Dump.shapeText, h.nameOf (hn name (List.mem_singleton_self _)), Scope.typeText]
    | _ => exact hs.elim
  | array element z l p ih =>
    intro shape hs hn
    cases shape with
    | array =>
      obtain ⟨he, rfl, rfl, rfl⟩ := hs
      rw [Dump.shapeText, ih he hn, Scope.typeText]
    | _ => exact hs.elim
  | list element p ih =>
    intro shape hs hn
    cases shape with
    | list =>
      obtain ⟨he, rfl⟩ := hs
      rw [Dump.shapeText, ih he hn, Scope.typeText]
    | _ => exact hs.elim
  | slist element p ih =>
    intro shape hs hn
    cases shape with
    | slist =>
      obtain ⟨he, rfl⟩ := hs
      rw [Dump.shapeText, ih he hn, Scope.typeText]
    | _ => exact hs.elim
  | hash key value p ihk ihv =>
    intro shape hs hn
    cases shape with
    | hash =>
      obtain ⟨hk, hv, rfl⟩ := hs
      rw [Dump.shapeText, ihk hk fun name hmem => hn name (List.mem_append_left _ hmem),
        ihv hv fun name hmem => hn name (List.mem_append_right _ hmem), Scope.typeText]
    | _ => exact hs.elim
  | error names p =>
    intro shape hs hn
    cases shape with
    | error refs =>
      obtain ⟨horder, hrefs, hall, rfl⟩ := hs
      have hdomains : refs.map d.nameOf = s.domainTexts names := h.domains hn horder
        (fun ref href => (hrefs ref href).imp fun _ hr => ⟨hr.1, hr.2.1⟩)
        fun name hname => (hall name hname).imp fun _ hr => ⟨hr.1, hr.2.1⟩
      rw [Dump.shapeText, Scope.typeText, hdomains]
    | _ => exact hs.elim

/-- A stored type is shown as it is described. -/
theorem type (h : Legend s r d) {ref : TypeRef} {t : Ty} (hr : r.ReadsType ref t)
    (hn : s.Covers t) : d.type ref = .ok (s.typeText t) := by
  obtain ⟨shape, hshape, hshows⟩ := hr.shape (t.depth + 1) (Nat.lt_succ_self _)
  rw [← h.img] at hshape
  rw [Dump.type_of_shape? hshape, h.shapeText hshows hn]

end Legend

end Typelib
