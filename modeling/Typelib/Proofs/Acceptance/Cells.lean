import Mathlib.Tactic.SplitIfs
import Typelib.Proofs.Acceptance.Spec

/-!
# What the cells of a description call for

Each cell of a body that a description calls for is proper: the names in it are names of the
description, the bodies that it promises are called for as well, and where it refuses to be written
the description violates a condition.

* `Cell.names`, `Cell.works`: the names that a cell resolves and the bodies that it may promise;
* `Work.Of`: the bodies that a description calls for;
* `Work.Of.proper`: their cells are proper.
-/

namespace Typelib

namespace Cell

/-- The names that a cell resolves. -/
def names : Cell → List String
  | slot s => [s]
  | type t => t.names
  | errorType _ domains => domains
  | _ => []

/-- The bodies that a cell may promise. -/
def works : Cell → List Work
  | type t => if t.tag.isComplex then [.type t] else []
  | signature s => [.signature s]
  | value c => [.constant c]
  | _ => []

/-- The cell resolves nothing, promises nothing and refuses nothing. -/
def isPlain : Cell → Bool
  | slot _ | type _ | signature _ | value _ | errorType .. | reject _ => false
  | _ => true

end Cell

/-- A description calls for a body. -/
def Work.Of (doc : Document) : Work → Prop
  | entry node => node ∈ doc.nodes
  | type t => t.tag.isComplex = true ∧ ∀ name ∈ t.names, name ∈ doc.nodes.flatMap Node.names
  | signature s => ∃ node ∈ doc.nodes, s ∈ node.signatures
  | constant c => ∃ node ∈ doc.nodes, c ∈ node.constants

/-- What a description allows a cell to be. -/
structure Cell.Proper (doc : Document) (options : Options) (c : Cell) : Prop where
  names : ∀ name ∈ c.names, name ∈ doc.nodes.flatMap Node.names
  works : ∀ work ∈ c.works, work.Of doc
  reject : ∀ e, c = .reject e → doc.Violates options e

/-! ### Lists of cells -/

theorem Cell.forall_mem_given {α : Type} {p : Cell → Prop} {value : Except BuildError α}
    {f : α → List Cell} (he : ∀ e, value = .error e → p (.reject e))
    (ha : ∀ a, value = .ok a → ∀ c ∈ f a, p c) : ∀ c ∈ Cell.given value f, p c := by
  cases value with
  | ok a => exact ha a rfl
  | error e => exact List.forall_mem_singleton.2 (he e rfl)

theorem Cell.forall_mem_counted {p : Cell → Prop} {owner : String} {lists : List (String × Nat)}
    {cs : List Cell}
    (he : ∀ kind n, (kind, n) ∈ lists → Build.maxCount < n →
      p (.reject (.tooManyMembers owner kind n)))
    (hc : (∀ list ∈ lists, list.2 ≤ Build.maxCount) → ∀ c ∈ cs, p c) :
    ∀ c ∈ Cell.counted owner lists cs, p c := by
  unfold Cell.counted
  split
  next kind n h =>
    have hlt : Build.maxCount < n := by simpa using List.find?_some h
    exact List.forall_mem_singleton.2 (he kind n (List.mem_of_find?_eq_some h) hlt)
  next h =>
    refine hc fun list hlist => ?_
    simpa using List.find?_eq_none.1 h list hlist

/-! ### Positions of members -/

namespace Owner

variable {o : Owner} {kind name : String} {members : List String}

/-- The members that are referred to can be counted. -/
structure Small (o : Owner) : Prop where
  properties : o.properties.length ≤ Build.maxCount
  signals : o.signals.length ≤ Build.maxCount
  vfuncs : o.vfuncs.length ≤ Build.maxCount

theorem small_bare (name : String) : Small { name } := ⟨Nat.zero_le _, Nat.zero_le _, Nat.zero_le _⟩

theorem mem_of_position {i : UInt16} (h : o.position kind members name = .ok i) :
    name ∈ members := by
  unfold position at h
  split at h
  next j hj =>
    obtain ⟨hlt, hname, -⟩ := List.findIdx?_eq_some_iff_getElem.1 hj
    exact eq_of_beq hname ▸ List.getElem_mem hlt
  next => cases h

/-- Among few members only a name that none of them has is refused. -/
theorem position_eq_error {e : BuildError} (hm : members.length ≤ Build.maxCount)
    (h : o.position kind members name = .error e) :
    name ∉ members ∧ e = .unknownMember o.name kind name := by
  unfold position at h
  split at h
  next j hj =>
    have hlt := (List.findIdx?_eq_some_iff_getElem.1 hj).1
    rw [if_pos (Nat.lt_of_lt_of_le hlt (Nat.le_trans hm (Nat.le_succ 65535)))] at h
    cases h
  next hnone =>
    cases h
    refine ⟨fun hmem => ?_, rfl⟩
    simpa using List.findIdx?_eq_none_iff.1 hnone name hmem

end Owner

/-- A reference to a member that is not there. -/
def MemberRef.Missing (owner : String) (refs : List MemberRef) (e : BuildError) : Prop :=
  ∃ ref ∈ refs, ref.name ∉ ref.members ∧ e = .unknownMember owner ref.kind ref.name

theorem FunctionDecl.index_eq_error {f : FunctionDecl} {owner : Owner} {e : BuildError}
    (ho : owner.Small) (h : f.index owner = .error e) :
    MemberRef.Missing owner.name (f.memberRefs owner) e := by
  unfold FunctionDecl.index at h
  unfold FunctionDecl.memberRefs
  cases hv : f.wrapsVFunc with
  | some name =>
    rw [hv] at h
    exact ⟨_, List.mem_singleton_self _, Owner.position_eq_error ho.vfuncs h⟩
  | none =>
    cases hp : f.property with
    | some name =>
      rw [hv, hp] at h
      exact ⟨_, List.mem_singleton_self _, Owner.position_eq_error ho.properties h⟩
    | none =>
      rw [hv, hp] at h
      cases h

theorem SignalDecl.classClosure_eq_error {s : SignalDecl} {owner : Owner} {e : BuildError}
    (ho : owner.Small) (h : (s.classClosure.map owner.vfunc).getD (.ok 0) = .error e) :
    MemberRef.Missing owner.name (s.memberRefs owner) e := by
  unfold SignalDecl.memberRefs
  cases hname : s.classClosure with
  | none => rw [hname] at h; cases h
  | some name =>
    rw [hname] at h
    exact ⟨_, List.mem_singleton_self _, Owner.position_eq_error ho.vfuncs h⟩

theorem VFuncDecl.signal_eq_error {v : VFuncDecl} {owner : Owner} {e : BuildError}
    (ho : owner.Small) (h : (v.signal.map owner.signal).getD (.ok 0) = .error e) :
    MemberRef.Missing owner.name (v.memberRefs owner) e := by
  unfold VFuncDecl.memberRefs
  cases hname : v.signal with
  | none => rw [hname] at h; cases h
  | some name =>
    rw [hname] at h
    exact ⟨_, List.mem_singleton_self _, Owner.position_eq_error ho.signals h⟩

theorem ConstantDecl.encode_eq_error {c : ConstantDecl} {e : BuildError} (h : c.encode = .error e) :
    e = .invalidConstant c.name c.type.tag c.value := by
  unfold ConstantDecl.encode at h
  split at h
  · split at h <;> cases h
    rfl
  · cases h

/-! ### Cells of entries -/

section Entries

variable {doc : Document} {options : Options} {node : Node} (hn : node ∈ doc.nodes)

theorem Cell.Proper.plain {c : Cell} (h : c.isPlain = true) : c.Proper doc options := by
  cases c with
  | slot | type | signature | value | errorType | reject => cases h
  | _ => exact ⟨by simp [Cell.names], by simp [Cell.works], by simp⟩

theorem Cell.proper_reject {e : BuildError} (h : doc.Violates options e) :
    (Cell.reject e).Proper doc options :=
  ⟨by simp [names], by simp [works], fun e' he => by cases he; exact h⟩

theorem Cell.proper_type {t : Ty} (ht : ∀ name ∈ t.names, name ∈ doc.nodes.flatMap Node.names) :
    (Cell.type t).Proper doc options := by
  refine ⟨ht, fun work hw => ?_, by simp⟩
  simp only [Cell.works] at hw
  split at hw
  next hc =>
    obtain rfl := List.mem_singleton.1 hw
    exact ⟨hc, ht⟩
  next => cases hw

namespace Node

include hn

theorem mem_names_of_types {t : Ty} (ht : t ∈ node.types) :
    ∀ name ∈ t.names, name ∈ doc.nodes.flatMap Node.names := by
  intro name hname
  refine List.mem_flatMap.2 ⟨node, hn, List.mem_append_right _ ?_⟩
  exact List.mem_flatMap.2 ⟨t, ht, hname⟩

theorem proper_slot {name : String} (h : name ∈ node.links) :
    (Cell.slot name).Proper doc options := by
  refine ⟨fun name' hname => ?_, by simp [Cell.works], by simp⟩
  rw [List.mem_singleton.1 hname]
  exact List.mem_flatMap.2 ⟨node, hn, List.mem_append_left _ h⟩

theorem proper_memberType {t : Ty} (h : t ∈ node.memberTypes) :
    (Cell.type t).Proper doc options :=
  Cell.proper_type (mem_names_of_types hn (by simp [types, h]))

theorem proper_constantType {c : ConstantDecl} (h : c ∈ node.constants) :
    (Cell.type c.type).Proper doc options :=
  Cell.proper_type (mem_names_of_types hn
    (List.mem_append_left _ (List.mem_append_right _ (List.mem_map_of_mem h))))

theorem proper_signature {s : Signature} (h : s ∈ node.signatures) :
    (Cell.signature s).Proper doc options :=
  ⟨by simp [Cell.names], by simpa [Cell.works] using ⟨node, hn, h⟩, by simp⟩

theorem proper_value {c : ConstantDecl} (h : c ∈ node.constants) :
    (Cell.value c).Proper doc options :=
  ⟨by simp [Cell.names], by simpa [Cell.works] using ⟨node, hn, h⟩, by simp⟩

/-! Members, one row each -/

theorem proper_field {f : FieldDecl} (h : f.type ∈ node.memberTypes) :
    ∀ c ∈ f.cells, c.Proper doc options := by
  simp only [FieldDecl.cells, List.forall_mem_cons]
  exact ⟨.plain rfl, .plain rfl, .plain rfl, .plain rfl, proper_memberType hn h, by simp⟩

theorem proper_property {p : PropertyDecl} (h : p.type ∈ node.memberTypes) :
    ∀ c ∈ p.cells, c.Proper doc options := by
  simp only [PropertyDecl.cells, List.forall_mem_cons]
  exact ⟨.plain rfl, .plain rfl, proper_memberType hn h, by simp⟩

theorem proper_valueRow {v : ValueDecl} (h : v ∈ node.values) :
    ∀ c ∈ v.cells node.name, c.Proper doc options := by
  unfold ValueDecl.cells
  simp only
  split_ifs with hs hu
  · simp only [List.forall_mem_cons]
    exact ⟨.plain rfl, .plain rfl, .plain rfl, by simp⟩
  · simp only [List.forall_mem_cons]
    exact ⟨.plain rfl, .plain rfl, .plain rfl, by simp⟩
  · refine List.forall_mem_singleton.2 (Cell.proper_reject (.values hn h ?_))
    rintro ⟨hle, hge⟩
    omega

theorem proper_constant {c : ConstantDecl} (h : c ∈ node.constants) :
    ∀ cell ∈ c.cells, cell.Proper doc options := by
  refine Cell.forall_mem_given (fun e he => ?_) fun bytes hb => ?_
  · rw [ConstantDecl.encode_eq_error he]
    refine Cell.proper_reject (.constants hn h fun bytes hb => ?_)
    rw [he] at hb
    cases hb
  · simp only [List.forall_mem_cons]
    exact ⟨.plain rfl, .plain rfl, .plain rfl, proper_constantType hn h, .plain rfl,
      proper_value hn h, by simp⟩

theorem proper_missing {owner : String} {refs : List MemberRef} {e : BuildError}
    (ho : owner = node.name) (hr : ∀ ref ∈ refs, ref ∈ node.memberRefs)
    (h : MemberRef.Missing owner refs e) : (Cell.reject e).Proper doc options := by
  obtain ⟨ref, href, hmem, rfl⟩ := h
  exact Cell.proper_reject (ho ▸ .owners hn (hr ref href) hmem)

theorem proper_function {f : FunctionDecl} {owner : Owner} (ho : owner.name = node.name)
    (hs : owner.Small) (h : f.signature ∈ node.signatures)
    (hr : ∀ ref ∈ f.memberRefs owner, ref ∈ node.memberRefs) :
    ∀ c ∈ f.cells owner, c.Proper doc options := by
  refine Cell.forall_mem_given (fun e he => ?_) fun index _ => ?_
  · exact proper_missing hn ho hr (FunctionDecl.index_eq_error hs he)
  · simp only [List.forall_mem_cons]
    exact ⟨.plain rfl, .plain rfl, .plain rfl, .plain rfl, .plain rfl, .plain rfl,
      proper_signature hn h, by simp⟩

theorem proper_signal {s : SignalDecl} {owner : Owner} (ho : owner.name = node.name)
    (hs : owner.Small) (h : s.signature ∈ node.signatures)
    (hr : ∀ ref ∈ s.memberRefs owner, ref ∈ node.memberRefs) :
    ∀ c ∈ s.cells owner, c.Proper doc options := by
  refine Cell.forall_mem_given (fun e he => ?_) fun index _ => ?_
  · exact proper_missing hn ho hr (SignalDecl.classClosure_eq_error hs he)
  · simp only [List.forall_mem_cons]
    exact ⟨.plain rfl, .plain rfl, .plain rfl, proper_signature hn h, by simp⟩

theorem proper_vfunc {v : VFuncDecl} {owner : Owner} (ho : owner.name = node.name)
    (hs : owner.Small) (h : v.signature ∈ node.signatures)
    (hr : ∀ ref ∈ v.memberRefs owner, ref ∈ node.memberRefs) :
    ∀ c ∈ v.cells owner, c.Proper doc options := by
  refine Cell.forall_mem_given (fun e he => ?_) fun index _ => ?_
  · exact proper_missing hn ho hr (VFuncDecl.signal_eq_error hs he)
  · simp only [List.forall_mem_cons]
    exact ⟨.plain rfl, .plain rfl, .plain rfl, .plain rfl, .plain rfl, proper_signature hn h,
      by simp⟩

omit hn in
theorem proper_head {kind : EntryKind} {name : String} {deprecated discriminated : Bool}
    {gtypeName gtypeInit : Option String} :
    ∀ c ∈ headCells kind name deprecated gtypeName gtypeInit discriminated,
      c.Proper doc options := by
  simp only [headCells, List.forall_mem_cons]
  exact ⟨.plain rfl, .plain rfl, .plain rfl, .plain rfl, .plain rfl, by simp⟩

theorem proper_slots {names : List String} (h : ∀ name ∈ names, name ∈ node.links) :
    ∀ c ∈ slotCells names, c.Proper doc options := by
  simp only [slotCells, List.forall_mem_append, List.forall_mem_map, List.forall_mem_singleton]
  exact ⟨fun name hname => proper_slot hn (h name hname), .plain rfl⟩

/-- The body is refused if it has too many members. -/
theorem proper_counted {lists : List (String × Nat)} {cs : List Cell}
    (hl : ∀ list ∈ lists, list ∈ node.memberCounts)
    (h : (∀ list ∈ lists, list.2 ≤ Build.maxCount) → ∀ c ∈ cs, c.Proper doc options) :
    ∀ c ∈ Cell.counted node.name lists cs, c.Proper doc options :=
  Cell.forall_mem_counted
    (fun _ _ hmem hlt => Cell.proper_reject (.members hn (hl _ hmem) hlt)) h

theorem proper_struct {kind : EntryKind} {s : StructDecl} (hname : s.name = node.name)
    (hl : node.memberCounts = [("fields", s.fields.length), ("methods", s.methods.length)])
    (ht : node.memberTypes = s.fields.map FieldDecl.type)
    (hs : node.signatures = s.methods.map FunctionDecl.signature)
    (hr : node.memberRefs = s.methods.flatMap (FunctionDecl.memberRefs { name := s.name })) :
    ∀ c ∈ s.cells kind, c.Proper doc options := by
  unfold StructDecl.cells
  rw [hname]
  refine proper_counted hn (fun _ h => hl ▸ h) fun _ => ?_
  simp only [List.forall_mem_append, List.forall_mem_cons, List.forall_mem_flatMap]
  refine ⟨⟨⟨proper_head, .plain rfl, .plain rfl, by simp⟩, fun f hf => ?_⟩, fun f hf => ?_⟩
  · exact proper_field hn (ht ▸ List.mem_map_of_mem hf)
  · refine proper_function hn rfl (Owner.small_bare _) (hs ▸ List.mem_map_of_mem hf)
      fun ref href => ?_
    rw [hr, hname]
    exact List.mem_flatMap.2 ⟨f, hf, href⟩

theorem proper_enum {kind : EntryKind} {e : EnumDecl} (hname : e.name = node.name)
    (hl : node.memberCounts = [("values", e.values.length)]) (hv : node.values = e.values) :
    ∀ c ∈ e.cells kind, c.Proper doc options := by
  unfold EnumDecl.cells
  rw [hname]
  refine proper_counted hn (fun _ h => hl ▸ h) fun _ => ?_
  simp only [List.forall_mem_append, List.forall_mem_cons, List.forall_mem_flatMap]
  exact ⟨⟨proper_head, .plain rfl, .plain rfl, by simp⟩,
    fun v hmem => proper_valueRow hn (hv ▸ hmem)⟩

/-- The methods, signals, virtual functions and constants at the end of a body. -/
theorem proper_members {owner : Owner} {front : List Cell} {methods : List FunctionDecl}
    {signals : List SignalDecl} {vfuncs : List VFuncDecl} {constants : List ConstantDecl}
    (ho : owner.name = node.name) (hsmall : owner.Small)
    (hs : node.signatures = methods.map FunctionDecl.signature ++
      signals.map SignalDecl.signature ++ vfuncs.map VFuncDecl.signature)
    (hr : node.memberRefs = methods.flatMap (FunctionDecl.memberRefs owner) ++
      signals.flatMap (SignalDecl.memberRefs owner) ++ vfuncs.flatMap (VFuncDecl.memberRefs owner))
    (hc : node.constants = constants) (hfront : ∀ c ∈ front, c.Proper doc options) :
    ∀ c ∈ front ++ methods.flatMap (·.cells owner) ++ signals.flatMap (·.cells owner) ++
      vfuncs.flatMap (·.cells owner) ++ constants.flatMap ConstantDecl.cells,
      c.Proper doc options := by
  simp only [List.forall_mem_append, List.forall_mem_flatMap]
  refine ⟨⟨⟨⟨hfront, fun f hf => ?_⟩, fun s hmem => ?_⟩, fun v hv => ?_⟩,
    fun c hmem => proper_constant hn (hc ▸ hmem)⟩
  · refine proper_function hn ho hsmall ?_ fun ref href => ?_
    · rw [hs]
      exact List.mem_append_left _ (List.mem_append_left _ (List.mem_map_of_mem hf))
    · rw [hr]
      exact List.mem_append_left _ (List.mem_append_left _ (List.mem_flatMap.2 ⟨f, hf, href⟩))
  · refine proper_signal hn ho hsmall ?_ fun ref href => ?_
    · rw [hs]
      exact List.mem_append_left _ (List.mem_append_right _ (List.mem_map_of_mem hmem))
    · rw [hr]
      exact List.mem_append_left _ (List.mem_append_right _ (List.mem_flatMap.2 ⟨s, hmem, href⟩))
  · refine proper_vfunc hn ho hsmall ?_ fun ref href => ?_
    · rw [hs]
      exact List.mem_append_right _ (List.mem_map_of_mem hv)
    · rw [hr]
      exact List.mem_append_right _ (List.mem_flatMap.2 ⟨v, hv, href⟩)

end Node

theorem UnionDecl.proper {u : UnionDecl} (hn : Node.union u ∈ doc.nodes) :
    ∀ c ∈ u.cells, c.Proper doc options := by
  have hdisc : ∀ c ∈ u.discriminatorCells, c.Proper doc options := by
    unfold UnionDecl.discriminatorCells
    cases hd : u.discriminator with
    | none =>
      simp only [List.forall_mem_cons]
      exact ⟨.plain rfl, .plain rfl, by simp⟩
    | some disc =>
      simp only [List.forall_mem_cons]
      exact ⟨.plain rfl, Node.proper_memberType hn (by simp [Node.memberTypes, hd]), by simp⟩
  unfold UnionDecl.cells
  refine Node.proper_counted hn (fun _ => id) fun _ => ?_
  simp only [List.forall_mem_append, List.forall_mem_cons, List.forall_mem_flatMap]
  refine ⟨⟨⟨⟨⟨Node.proper_head, .plain rfl, .plain rfl, .plain rfl, .plain rfl, by simp⟩, hdisc⟩,
    fun f hf => ?_⟩, fun f hf => ?_⟩, fun c hc => Node.proper_constant hn hc⟩
  · exact Node.proper_field hn (List.mem_append_right _ (List.mem_map_of_mem hf))
  · exact Node.proper_function hn rfl (Owner.small_bare _) (List.mem_map_of_mem hf)
      fun ref href => List.mem_flatMap.2 ⟨f, hf, href⟩

theorem ObjectDecl.proper {o : ObjectDecl} (hn : Node.object o ∈ doc.nodes) :
    ∀ c ∈ o.cells, c.Proper doc options := by
  unfold ObjectDecl.cells
  refine Node.proper_counted hn (fun _ => id) fun hmax => ?_
  simp only [List.forall_mem_cons] at hmax
  obtain ⟨-, -, hprops, -, hsigs, hvfuncs, -⟩ := hmax
  have hsmall : o.owner.Small := by
    refine ⟨?_, ?_, ?_⟩ <;> simpa only [ObjectDecl.owner, List.length_map]
  refine Node.proper_members hn rfl hsmall rfl rfl rfl ?_
  simp only [List.forall_mem_append, List.forall_mem_cons, List.forall_mem_flatMap]
  refine ⟨⟨⟨⟨Node.proper_head, ?_, .plain rfl, .plain rfl, .plain rfl, .plain rfl, .plain rfl,
    .plain rfl, .plain rfl, .plain rfl, by simp⟩, ?_⟩, fun f hf => ?_⟩, fun p hp => ?_⟩
  · cases hp : o.parent with
    | none => exact .plain rfl
    | some parent => exact Node.proper_slot hn (by simp [Node.links, hp])
  · exact Node.proper_slots hn fun name hname => List.mem_append_right _ hname
  · exact Node.proper_field hn (List.mem_append_left _ (List.mem_map_of_mem hf))
  · exact Node.proper_property hn (List.mem_append_right _ (List.mem_map_of_mem hp))

theorem InterfaceDecl.proper {i : InterfaceDecl} (hn : Node.interface i ∈ doc.nodes) :
    ∀ c ∈ i.cells, c.Proper doc options := by
  unfold InterfaceDecl.cells
  refine Node.proper_counted hn (fun _ => id) fun hmax => ?_
  simp only [List.forall_mem_cons] at hmax
  obtain ⟨-, hprops, -, hsigs, hvfuncs, -⟩ := hmax
  have hsmall : i.owner.Small := by
    refine ⟨?_, ?_, ?_⟩ <;> simpa only [InterfaceDecl.owner, List.length_map]
  refine Node.proper_members hn rfl hsmall rfl rfl rfl ?_
  simp only [List.forall_mem_append, List.forall_mem_cons, List.forall_mem_flatMap]
  refine ⟨⟨⟨Node.proper_head, .plain rfl, .plain rfl, .plain rfl, .plain rfl, .plain rfl,
    .plain rfl, .plain rfl, by simp⟩, ?_⟩, fun p hp => ?_⟩
  · exact Node.proper_slots hn fun name hname => hname
  · exact Node.proper_property hn (List.mem_map_of_mem hp)

theorem Node.proper (hn : node ∈ doc.nodes) : ∀ c ∈ node.cells, c.Proper doc options := by
  cases node with
  | function f =>
    exact proper_function hn rfl (Owner.small_bare _) (List.mem_singleton_self _) fun _ => id
  | callback c =>
    simp only [cells, CallbackDecl.cells, List.forall_mem_cons]
    exact ⟨.plain rfl, .plain rfl, .plain rfl, proper_signature hn (List.mem_singleton_self _),
      by simp⟩
  | struct s | boxed s => exact proper_struct hn rfl rfl rfl rfl rfl
  | union u => exact UnionDecl.proper hn
  | enum e | flags e => exact proper_enum hn rfl rfl rfl
  | object o => exact ObjectDecl.proper hn
  | interface i => exact InterfaceDecl.proper hn
  | errorDomain e =>
    simp only [cells, ErrorDomainDecl.cells, List.forall_mem_cons]
    exact ⟨.plain rfl, .plain rfl, .plain rfl, .plain rfl,
      proper_slot hn (List.mem_singleton_self _), .plain rfl, by simp⟩
  | constant c => exact proper_constant hn (List.mem_singleton_self _)
  | _ => exact List.forall_mem_singleton.2 (Cell.proper_reject (.kinds hn rfl))

/-! ### Cells of other bodies -/

theorem Signature.proper {s : Signature} (hn : node ∈ doc.nodes) (h : s ∈ node.signatures) :
    ∀ c ∈ (Work.signature s).cells, c.Proper doc options := by
  have type : ∀ t ∈ s.types, (Cell.type t).Proper doc options := fun t ht =>
    Cell.proper_type (Node.mem_names_of_types hn
      (List.mem_append_right _ (List.mem_flatMap.2 ⟨s, h, ht⟩)))
  have hresult : ∀ c ∈ s.resultCells, c.Proper doc options := by
    unfold Signature.resultCells
    cases hr : s.result with
    | none =>
      simp only [List.forall_mem_cons]
      exact ⟨.plain rfl, .plain rfl, by simp⟩
    | some r =>
      simp only [List.forall_mem_cons]
      exact ⟨type _ (by simp [Signature.types, hr]), .plain rfl, by simp⟩
  refine Cell.forall_mem_counted (fun kind n hmem hlt => ?_) fun _ => ?_
  · cases List.mem_singleton.1 hmem
    exact Cell.proper_reject (.params hn h hlt)
  · simp only [Signature.cells, List.forall_mem_append, List.forall_mem_cons,
      List.forall_mem_flatMap, ParamDecl.cells]
    refine ⟨⟨hresult, .plain rfl, .plain rfl, by simp⟩, fun p hp =>
      ⟨.plain rfl, .plain rfl, .plain rfl, type _ ?_, by simp⟩⟩
    exact List.mem_cons_of_mem _ (List.mem_map_of_mem hp)

theorem Ty.proper {t : Ty} (hc : t.tag.isComplex = true)
    (h : ∀ name ∈ t.names, name ∈ doc.nodes.flatMap Node.names) :
    ∀ c ∈ t.cells, c.Proper doc options := by
  cases t with
  | scalar | interface => cases hc
  | array element z l p =>
    simp only [cells, List.forall_mem_cons]
    exact ⟨.plain rfl, .plain rfl, .plain rfl, .plain rfl, Cell.proper_type h, by simp⟩
  | list element p | slist element p =>
    simp only [cells, paramTypeCells, List.cons_append, List.nil_append, List.forall_mem_cons,
      List.map_cons, List.map_nil]
    exact ⟨.plain rfl, .plain rfl, .plain rfl, .plain rfl, Cell.proper_type h, by simp⟩
  | hash key value p =>
    simp only [cells, paramTypeCells, List.cons_append, List.nil_append, List.forall_mem_cons,
      List.map_cons, List.map_nil]
    refine ⟨.plain rfl, .plain rfl, .plain rfl, .plain rfl, Cell.proper_type fun name hname => ?_,
      Cell.proper_type fun name hname => ?_, by simp⟩
    · exact h name (List.mem_append_left _ hname)
    · exact h name (List.mem_append_right _ hname)
  | error domains p => exact List.forall_mem_singleton.2 ⟨h, by simp [Cell.works], by simp⟩

/-- The cells of a body that is called for are proper. -/
theorem Work.Of.proper {work : Work} (h : work.Of doc) :
    ∀ c ∈ work.cells, c.Proper doc options := by
  cases work with
  | entry node => exact Node.proper h
  | type t => exact Ty.proper h.1 h.2
  | signature s =>
    obtain ⟨node, hn, hs⟩ := h
    exact Signature.proper hn hs
  | constant c =>
    obtain ⟨node, hn, hc⟩ := h
    refine Cell.forall_mem_given (fun e he => ?_) fun bytes _ =>
      List.forall_mem_singleton.2 (.plain rfl)
    rw [ConstantDecl.encode_eq_error he]
    refine Cell.proper_reject (.constants hn hc fun bytes hb => ?_)
    rw [he] at hb
    cases hb

end Entries

end Typelib
