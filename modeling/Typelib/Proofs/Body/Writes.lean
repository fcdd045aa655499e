import Typelib.Proofs.Body.Pieces
import Typelib.Proofs.Build.Step

/-!
# Writes to the bodies

Bodies are written by appending bytes, filler, references and types, and by beginning bodies. In
whatever order this is done, each reference that is to be filled in has four bytes of its own, and
bodies start on boundaries, none in front of an earlier one.

* `Section.Write`: what can be written;
* `Section.Write.does`: what one write does;
* `Section.Gapped.runs`, `Section.Started.runs`: the gaps and the starts that writes leave;
* `Section.exists_runs`: no write fails if each body is begun once.
-/

namespace Typelib

namespace Section

/-! ### Runs -/

/-- Something that is written to the bodies. -/
inductive Write
  | byte (n : UInt8)
  | word16 (n : UInt16)
  | word32 (n : UInt32)
  | int32 (n : Int32)
  | raw (bytes : List UInt8)
  | align
  | stringRef (offset : Option UInt32)
  | bodyRef (id : BodyId)
  | typeRef (ref : TypeRef) (body : Option BodyId)
  | start (id : BodyId)
  deriving DecidableEq, Repr

namespace Write

/-- The bodies behind a write. It fails only where a body is begun twice. -/
def run (s : Section) : Write → Except BuildError Section
  | byte n => .ok (s.append [n])
  | word16 n => .ok (s.append (leBytes 2 n.toNat))
  | word32 n => .ok (s.append (leBytes 4 n.toNat))
  | int32 n => .ok (s.append (Record.int32.encode n))
  | raw bytes => .ok (s.append bytes)
  | align => .ok s.align
  | stringRef offset => .ok (s.stringRef offset)
  | bodyRef id => .ok (s.bodyRef id)
  | typeRef ref body => .ok (s.typeRef ref body)
  | start id => (s.start id).1.map fun _ => (s.start id).2

/-- What the reference leads to that a write leaves to be filled in. -/
def target? : Write → Option Target
  | stringRef offset => offset.map .string
  | bodyRef id => some (.body id)
  | typeRef _ body => body.map .body
  | _ => none

/-- The body that a write begins. -/
def begun? : Write → Option BodyId
  | start id => some id
  | _ => none

end Write

/-- The bodies behind several writes. -/
def runs (s : Section) (writes : List Write) : Except BuildError Section :=
  writes.foldlM Write.run s

/-- What the references lead to that writes leave to be filled in. -/
def targets (writes : List Write) : List Target := writes.filterMap Write.target?

/-- The bodies that writes begin. -/
def begun (writes : List Write) : List BodyId := writes.filterMap Write.begun?

/-- The gaps of the bodies, one for each target: each has four bytes, which lie among those that are
written and behind those of the gaps before it. -/
structure Gapped (s : Section) (targets : List Target) : Prop where
  targets : s.relocs.toList.map Reloc.target = targets
  inside : ∀ reloc ∈ s.relocs.toList, reloc.pos + 4 ≤ s.size
  apart : s.relocs.toList.Pairwise fun reloc later => reloc.pos + 4 ≤ later.pos

/-- The starts of bodies that were begun in a certain order: each is a boundary among the bytes that
are written, and none lies in front of an earlier one. -/
structure Started (s : Section) (ids : List BodyId) : Prop where
  begun : ∀ id, (s.startOf? id).isSome = true ↔ id ∈ ids
  inside : ∀ id start, s.startOf? id = some start → start % bodyAlign = 0 ∧ start ≤ s.size
  ordered : ids.Pairwise fun id later => ∀ start start', s.startOf? id = some start →
    s.startOf? later = some start' → start ≤ start'

variable {s s' : Section} {w : Write} {ts : List Target} {ids : List BodyId}

/-! ### One write -/

/-- What a write does: it goes on behind the bytes that are there, with at most one gap in what it
adds, and it begins at most one body, where it ends. -/
structure Write.Does (w : Write) (s s' : Section) : Prop where
  grows : s.size ≤ s'.size
  relocs : ∃ pos, s.size ≤ pos ∧ (w.target?.isSome = true → pos + 4 ≤ s'.size) ∧
    s'.relocs.toList = s.relocs.toList ++ (w.target?.map (Reloc.mk pos)).toList
  kept : w.begun? = none → s'.startOf? = s.startOf?
  started : ∀ id, w.begun? = some id → s.startOf? id = none ∧ s'.size % bodyAlign = 0 ∧
    ∀ other, s'.startOf? other = if id = other then some s'.size else s.startOf? other

namespace Write

/-- Bytes alone leave no gap and begin no body. -/
theorem does_append (bs : List UInt8) (ht : w.target? = none) (hb : w.begun? = none) :
    w.Does s (s.append bs) where
  grows := by rw [size_append]; exact Nat.le_add_right _ _
  relocs := ⟨s.size, Nat.le_refl _, by simp [ht], by simp [ht, append]⟩
  kept _ := rfl
  started id h := by rw [hb] at h; cases h

theorem does_reference (target : Target) (ht : w.target? = some target) (hb : w.begun? = none) :
    w.Does s (s.reference target) where
  grows := by rw [size_reference]; exact Nat.le_add_right _ _
  relocs := ⟨s.size, Nat.le_refl _, fun _ => Nat.le_of_eq (size_reference s target).symm,
    by simp [ht, reference]⟩
  kept _ := rfl
  started id h := by rw [hb] at h; cases h

/-- The gap of a type is the second half of its eight bytes. -/
theorem does_typeRef (ref : TypeRef) (id : BodyId) :
    (typeRef ref (some id)).Does s (s.typeRef ref (some id)) := by
  have hsize := size_typeRef s ref (some id)
  refine ⟨by omega, ⟨s.size + 4, by omega, fun _ => by omega, ?_⟩, fun _ => rfl,
    fun _ h => by cases h⟩
  simp [Section.typeRef, target?]

theorem does_start {id : BodyId} (h : (start id).run s = .ok s') : (start id).Does s s' := by
  cases hs : s.startOf? id with
  | some previous =>
    have hprevious : s.align.startOf? id = some previous := hs
    simp only [run, Section.start, hprevious] at h
    cases h
  | none =>
    have hnone : s.align.startOf? id = none := hs
    have hsize : s'.size = alignUp s.size ∧ s'.relocs = s.relocs ∧ s' = (s.start id).2 := by
      simp only [run, Section.start, hnone] at h
      cases h
      exact ⟨size_align s, rfl, rfl⟩
    obtain ⟨hsize, hrelocs, rfl⟩ := hsize
    refine ⟨by rw [hsize]; exact le_alignUp _, ?relocs, ?kept, ?started⟩
    case relocs =>
      refine ⟨s.size, Nat.le_refl _, fun h => ?_, by simp [hrelocs, target?]⟩
      cases h
    case kept =>
      intro hb
      cases hb
    case started =>
      rintro _ ⟨⟩
      refine ⟨hs, by rw [hsize]; exact alignUp_mod _, fun other => ?_⟩
      rw [startOf?_start, hsize, size_align]

/-- What one write does. -/
theorem does (h : w.run s = .ok s') : w.Does s s' := by
  cases w with
  | start id => exact does_start h
  | byte | word16 | word32 | int32 | raw | align =>
    cases h
    exact does_append _ rfl rfl
  | stringRef offset =>
    cases h
    cases offset with
    | none => exact does_append _ rfl rfl
    | some offset => exact does_reference _ rfl rfl
  | bodyRef id =>
    cases h
    exact does_reference _ rfl rfl
  | typeRef ref body =>
    cases h
    cases body with
    | none => exact does_append _ rfl rfl
    | some id => exact does_typeRef ref id

/-- A body that was not begun before can be begun. -/
theorem exists_run (h : ∀ id, w.begun? = some id → s.startOf? id = none) :
    ∃ s', w.run s = .ok s' := by
  cases w with
  | start id =>
    have hnone : s.align.startOf? id = none := h id rfl
    exact ⟨_, by simp only [run, Section.start, hnone]; rfl⟩
  | _ => exact ⟨_, rfl⟩

end Write

/-! ### What one write keeps -/

theorem Gapped.run (h : s.Gapped ts) (hw : w.run s = .ok s') :
    s'.Gapped (ts ++ w.target?.toList) := by
  obtain ⟨pos, hpos, hend, hrelocs⟩ := (Write.does hw).relocs
  have hold : ∀ reloc ∈ s.relocs.toList, reloc.pos + 4 ≤ s'.size :=
    fun reloc hmem => Nat.le_trans (h.inside reloc hmem) (Write.does hw).grows
  cases ht : w.target? with
  | none =>
    rw [ht, Option.map_none, Option.toList_none, List.append_nil] at hrelocs
    rw [Option.toList_none, List.append_nil]
    exact ⟨hrelocs ▸ h.targets, hrelocs ▸ hold, hrelocs ▸ h.apart⟩
  | some target =>
    rw [ht, Option.map_some, Option.toList_some] at hrelocs
    rw [Option.toList_some]
    refine ⟨by rw [hrelocs, List.map_append, h.targets]; rfl, ?_, ?_⟩
    · rw [hrelocs]
      intro reloc hmem
      rcases List.mem_append.1 hmem with hmem | hmem
      · exact hold reloc hmem
      · rw [List.mem_singleton.1 hmem]
        exact hend (by rw [ht]; rfl)
    · rw [hrelocs, List.pairwise_append]
      refine ⟨h.apart, List.pairwise_singleton _ _, fun reloc hmem later hlater => ?_⟩
      rw [List.mem_singleton.1 hlater]
      exact Nat.le_trans (h.inside reloc hmem) hpos

theorem Started.run (h : s.Started ids) (hw : w.run s = .ok s') :
    s'.Started (ids ++ w.begun?.toList) := by
  have hgrows := (Write.does hw).grows
  cases hb : w.begun? with
  | none =>
    have hsame := (Write.does hw).kept hb
    rw [Option.toList_none, List.append_nil]
    refine ⟨by rw [hsame]; exact h.begun, fun id start hs => ?_, by rw [hsame]; exact h.ordered⟩
    rw [hsame] at hs
    exact ⟨(h.inside id start hs).1, Nat.le_trans (h.inside id start hs).2 hgrows⟩
  | some id =>
    obtain ⟨hnone, hmod, hstart⟩ := (Write.does hw).started id hb
    have hne : ∀ other ∈ ids, id ≠ other := by
      rintro other hmem rfl
      have hsome := (h.begun id).2 hmem
      rw [hnone] at hsome
      cases hsome
    rw [Option.toList_some]
    refine ⟨fun other => ?_, fun other start hs => ?_, ?_⟩
    · rw [hstart, List.mem_append, ← h.begun, List.mem_singleton]
      by_cases he : id = other
      · simp [he]
      · simp [he, Ne.symm he]
    · rw [hstart] at hs
      split at hs
      · cases hs
        exact ⟨hmod, Nat.le_refl _⟩
      · exact ⟨(h.inside other start hs).1, Nat.le_trans (h.inside other start hs).2 hgrows⟩
    · -- the others start where they did, and the new body behind all that was written
      rw [List.pairwise_append]
      refine ⟨?_, List.pairwise_singleton _ _, fun other hmem later hlater => ?_⟩
      · refine h.ordered.imp_of_mem fun {a b} ha hb hab => ?_
        rw [hstart, hstart, if_neg (hne a ha), if_neg (hne b hb)]
        exact hab
      · rw [List.mem_singleton.1 hlater, hstart, hstart, if_pos rfl, if_neg (hne other hmem)]
        rintro start _ hs ⟨⟩
        exact Nat.le_trans (h.inside other start hs).2 hgrows

/-! ### What all writes keep -/

theorem filterMap_cons_toList {α β : Type} (f : α → Option β) (a : α) (as : List α) :
    (a :: as).filterMap f = (f a).toList ++ as.filterMap f := by
  rw [List.filterMap_cons]
  cases f a <;> rfl

theorem runs_cons {writes : List Write} (h : s.runs (w :: writes) = .ok s') :
    ∃ s₁, w.run s = .ok s₁ ∧ s₁.runs writes = .ok s' := by
  rw [runs, List.foldlM_cons] at h
  cases hw : w.run s with
  | error e =>
    rw [hw] at h
    cases h
  | ok s₁ =>
    rw [hw] at h
    exact ⟨s₁, rfl, h⟩

theorem Gapped.runs (writes : List Write) : ∀ {s : Section} {ts : List Target}, s.Gapped ts →
    s.runs writes = .ok s' → s'.Gapped (ts ++ Section.targets writes) := by
  induction writes with
  | nil =>
    rintro s ts h ⟨⟩
    rwa [Section.targets, List.filterMap_nil, List.append_nil]
  | cons w writes ih =>
    intro s ts h hr
    obtain ⟨s₁, hw, hr⟩ := runs_cons hr
    rw [Section.targets, filterMap_cons_toList, ← List.append_assoc]
    exact ih (h.run hw) hr

theorem Started.runs (writes : List Write) : ∀ {s : Section} {ids : List BodyId}, s.Started ids →
    s.runs writes = .ok s' → s'.Started (ids ++ Section.begun writes) := by
  induction writes with
  | nil =>
    rintro s ids h ⟨⟩
    rwa [Section.begun, List.filterMap_nil, List.append_nil]
  | cons w writes ih =>
    intro s ids h hr
    obtain ⟨s₁, hw, hr⟩ := runs_cons hr
    rw [Section.begun, filterMap_cons_toList, ← List.append_assoc]
    exact ih (h.run hw) hr

/-- No write fails if each body is begun once. -/
theorem exists_runs (writes : List Write) : ∀ {s : Section} {ids : List BodyId}, s.Started ids →
    (ids ++ Section.begun writes).Nodup → ∃ s', s.runs writes = .ok s' := by
  induction writes with
  | nil => exact fun _ _ => ⟨_, rfl⟩
  | cons w writes ih =>
    intro s ids h hnodup
    rw [Section.begun, filterMap_cons_toList, ← List.append_assoc] at hnodup
    obtain ⟨s₁, hw⟩ : ∃ s₁, w.run s = .ok s₁ := by
      refine Write.exists_run fun id hid => ?_
      rw [hid, Option.toList_some, List.append_assoc, List.nodup_append] at hnodup
      have hnew : id ∉ ids := fun hmem => hnodup.2.2 id hmem id List.mem_cons_self rfl
      rwa [← h.begun, Bool.not_eq_true, Option.isSome_eq_false_iff, Option.isNone_iff_eq_none]
        at hnew
    obtain ⟨s', hr⟩ := ih (h.run hw) hnodup
    exact ⟨s', by rw [Section.runs, List.foldlM_cons, hw]; exact hr⟩

theorem gapped_empty : ({} : Section).Gapped [] := ⟨rfl, by simp, by simp⟩

theorem started_empty : ({} : Section).Started [] where
  begun id := by simp [startOf?]
  inside id start h := by simp [startOf?] at h
  ordered := .nil

end Section

end Typelib
