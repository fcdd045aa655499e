import Typelib.Proofs.Acceptance.Cells

/-!
# Bodies that refuse nothing

If no cell of an entry refuses to be written, then the node violates no condition by itself, and all
names, types and signatures of the node stand among the cells.

* `Clean`: cells that refuse nothing;
* `Node.WellFormed`, `Node.wellFormed_of_clean`: what that says of a node.
-/

namespace Typelib

/-- No cell refuses to be written. -/
def Clean (cs : List Cell) : Prop := ∀ e, .reject e ∉ cs

namespace Clean

variable {cs cs' : List Cell}

theorem append (h : Clean (cs ++ cs')) : Clean cs ∧ Clean cs' :=
  ⟨fun e he => h e (List.mem_append_left _ he), fun e he => h e (List.mem_append_right _ he)⟩

theorem flatMap {α : Type} {as : List α} {f : α → List Cell} (h : Clean (as.flatMap f)) :
    ∀ a ∈ as, Clean (f a) := fun a ha e he => h e (List.mem_flatMap.2 ⟨a, ha, he⟩)

theorem given {α : Type} {value : Except BuildError α} {f : α → List Cell}
    (h : Clean (Cell.given value f)) : ∃ a, value = .ok a ∧ Cell.given value f = f a := by
  cases value with
  | ok a => exact ⟨a, rfl, rfl⟩
  | error e => exact absurd (List.mem_singleton_self _) (h e)

theorem counted {owner : String} {lists : List (String × Nat)}
    (h : Clean (Cell.counted owner lists cs)) :
    (∀ list ∈ lists, list.2 ≤ Build.maxCount) ∧ Cell.counted owner lists cs = cs ∧ Clean cs := by
  unfold Cell.counted at h ⊢
  split at h
  · exact absurd (List.mem_singleton_self _) (h _)
  next hnone =>
    refine ⟨fun list hlist => ?_, rfl, h⟩
    simpa using List.find?_eq_none.1 hnone list hlist

end Clean

/-! ### Members -/

theorem FunctionDecl.of_clean {f : FunctionDecl} {owner : Owner} (h : Clean (f.cells owner)) :
    (∀ ref ∈ f.memberRefs owner, ref.name ∈ ref.members) ∧
      .signature f.signature ∈ f.cells owner := by
  obtain ⟨i, hi, hcells⟩ := Clean.given h
  refine ⟨fun ref href => ?_, ?_⟩
  · unfold FunctionDecl.index at hi
    unfold FunctionDecl.memberRefs at href
    split at href
    next hname =>
      rw [hname] at hi
      cases List.mem_singleton.1 href
      exact Owner.mem_of_position hi
    next hnone hname =>
      rw [hnone, hname] at hi
      cases List.mem_singleton.1 href
      exact Owner.mem_of_position hi
    next => cases href
  · rw [FunctionDecl.cells, hcells]
    simp

theorem SignalDecl.of_clean {s : SignalDecl} {owner : Owner} (h : Clean (s.cells owner)) :
    (∀ ref ∈ s.memberRefs owner, ref.name ∈ ref.members) ∧
      .signature s.signature ∈ s.cells owner := by
  obtain ⟨i, hi, hcells⟩ := Clean.given h
  refine ⟨fun ref href => ?_, ?_⟩
  · unfold SignalDecl.memberRefs at href
    cases hname : s.classClosure with
    | none => rw [hname] at href; cases href
    | some name =>
      rw [hname] at hi href
      cases List.mem_singleton.1 href
      exact Owner.mem_of_position hi
  · rw [SignalDecl.cells, hcells]
    simp

theorem VFuncDecl.of_clean {v : VFuncDecl} {owner : Owner} (h : Clean (v.cells owner)) :
    (∀ ref ∈ v.memberRefs owner, ref.name ∈ ref.members) ∧
      .signature v.signature ∈ v.cells owner := by
  obtain ⟨i, hi, hcells⟩ := Clean.given h
  refine ⟨fun ref href => ?_, ?_⟩
  · unfold VFuncDecl.memberRefs at href
    cases hname : v.signal with
    | none => rw [hname] at href; cases href
    | some name =>
      rw [hname] at hi href
      cases List.mem_singleton.1 href
      exact Owner.mem_of_position hi
  · rw [VFuncDecl.cells, hcells]
    simp

theorem ValueDecl.of_clean {v : ValueDecl} {owner : String} (h : Clean (v.cells owner)) :
    v.Fits := by
  unfold ValueDecl.cells at h
  simp only at h
  split_ifs at h with hs hu
  · exact ⟨by omega, by omega⟩
  · exact ⟨by omega, by omega⟩
  · exact absurd (List.mem_singleton_self _) (h _)

theorem ConstantDecl.of_clean {c : ConstantDecl} (h : Clean c.cells) :
    (∃ bytes, c.encode = .ok bytes) ∧ .type c.type ∈ c.cells ∧ .value c ∈ c.cells := by
  obtain ⟨bytes, hb, hcells⟩ := Clean.given h
  rw [ConstantDecl.cells, hcells]
  exact ⟨⟨bytes, hb⟩, by simp, by simp⟩

theorem FieldDecl.mem_flatMap {fields : List FieldDecl} {f : FieldDecl} (h : f ∈ fields) :
    .type f.type ∈ fields.flatMap FieldDecl.cells :=
  List.mem_flatMap.2 ⟨f, h, by simp [FieldDecl.cells]⟩

theorem PropertyDecl.mem_flatMap {properties : List PropertyDecl} {p : PropertyDecl}
    (h : p ∈ properties) : .type p.type ∈ properties.flatMap PropertyDecl.cells :=
  List.mem_flatMap.2 ⟨p, h, by simp [PropertyDecl.cells]⟩

theorem mem_slotCells {name : String} {names : List String} (h : name ∈ names) :
    .slot name ∈ slotCells names :=
  List.mem_append_left _ (List.mem_map_of_mem h)

/-! ### Members at the end of a body -/

namespace Clean

variable {cs front : List Cell} {methods : List FunctionDecl} {constants : List ConstantDecl}

theorem of_constants (hcs : cs = front ++ constants.flatMap ConstantDecl.cells) (h : Clean cs) :
    ∀ c ∈ constants, (∃ bytes, c.encode = .ok bytes) ∧ .type c.type ∈ cs ∧ .value c ∈ cs := by
  intro c hc
  rw [hcs] at h ⊢
  obtain ⟨hencode, htype, hvalue⟩ := ConstantDecl.of_clean (h.append.2.flatMap c hc)
  exact ⟨hencode, List.mem_append_right _ (List.mem_flatMap.2 ⟨c, hc, htype⟩),
    List.mem_append_right _ (List.mem_flatMap.2 ⟨c, hc, hvalue⟩)⟩

theorem of_methods {owner : Owner} (hcs : cs = front ++ methods.flatMap (·.cells owner))
    (h : Clean cs) :
    (∀ ref ∈ methods.flatMap (FunctionDecl.memberRefs owner), ref.name ∈ ref.members) ∧
      ∀ s ∈ methods.map FunctionDecl.signature, .signature s ∈ cs := by
  rw [hcs] at h ⊢
  have hmethods := h.append.2.flatMap
  refine ⟨fun ref href => ?_, fun s hs => ?_⟩
  · obtain ⟨f, hf, href⟩ := List.mem_flatMap.1 href
    exact (FunctionDecl.of_clean (hmethods f hf)).1 ref href
  · obtain ⟨f, hf, rfl⟩ := List.mem_map.1 hs
    exact List.mem_append_right _
      (List.mem_flatMap.2 ⟨f, hf, (FunctionDecl.of_clean (hmethods f hf)).2⟩)

theorem of_members {owner : Owner} {signals : List SignalDecl} {vfuncs : List VFuncDecl}
    (hcs : cs = front ++ methods.flatMap (·.cells owner) ++ signals.flatMap (·.cells owner) ++
      vfuncs.flatMap (·.cells owner)) (h : Clean cs) :
    (∀ ref ∈ methods.flatMap (FunctionDecl.memberRefs owner) ++
      signals.flatMap (SignalDecl.memberRefs owner) ++
      vfuncs.flatMap (VFuncDecl.memberRefs owner), ref.name ∈ ref.members) ∧
    ∀ s ∈ methods.map FunctionDecl.signature ++ signals.map SignalDecl.signature ++
      vfuncs.map VFuncDecl.signature, .signature s ∈ cs := by
  rw [hcs] at h ⊢
  obtain ⟨hfront, hvfuncs⟩ := h.append
  obtain ⟨hfront, hsignals⟩ := hfront.append
  obtain ⟨hrefs, hsignatures⟩ := hfront.of_methods rfl
  refine ⟨fun ref href => ?_, fun s hs => ?_⟩
  · simp only [List.mem_append, List.mem_flatMap (f := SignalDecl.memberRefs owner),
      List.mem_flatMap (f := VFuncDecl.memberRefs owner)] at href
    rcases href with (href | ⟨s, hs, href⟩) | ⟨v, hv, href⟩
    · exact hrefs ref href
    · exact (SignalDecl.of_clean (hsignals.flatMap s hs)).1 ref href
    · exact (VFuncDecl.of_clean (hvfuncs.flatMap v hv)).1 ref href
  · rcases List.mem_append.1 hs with hs | hs
    · refine List.mem_append_left _ ?_
      rcases List.mem_append.1 hs with hs | hs
      · exact List.mem_append_left _ (hsignatures s hs)
      · obtain ⟨s, hmem, rfl⟩ := List.mem_map.1 hs
        exact List.mem_append_right _ (List.mem_flatMap.2
          ⟨s, hmem, (SignalDecl.of_clean (hsignals.flatMap s hmem)).2⟩)
    · obtain ⟨v, hv, rfl⟩ := List.mem_map.1 hs
      exact List.mem_append_right _
        (List.mem_flatMap.2 ⟨v, hv, (VFuncDecl.of_clean (hvfuncs.flatMap v hv)).2⟩)

end Clean

/-! ### Entries -/

/-- A node violates no condition by itself, and its cells hold all that it refers to. -/
structure Node.WellFormed (node : Node) : Prop where
  kind : node.entryKind?.isSome
  members : ∀ list ∈ node.memberCounts, list.2 ≤ 65535
  values : ∀ v ∈ node.values, v.Fits
  constants : ∀ c ∈ node.constants, ∃ bytes, c.encode = .ok bytes
  owners : ∀ ref ∈ node.memberRefs, ref.name ∈ ref.members
  slot : ∀ name ∈ node.links, .slot name ∈ node.cells
  memberType : ∀ t ∈ node.memberTypes, .type t ∈ node.cells
  constant : ∀ c ∈ node.constants, .type c.type ∈ node.cells ∧ .value c ∈ node.cells
  signature : ∀ s ∈ node.signatures, .signature s ∈ node.cells

theorem StructDecl.wellFormed {kind : EntryKind} {s : StructDecl} {node : Node}
    (hcells : node.cells = s.cells kind) (hkind : node.entryKind?.isSome)
    (hl : node.memberCounts = [("fields", s.fields.length), ("methods", s.methods.length)])
    (ht : node.memberTypes = s.fields.map FieldDecl.type)
    (hs : node.signatures = s.methods.map FunctionDecl.signature)
    (hr : node.memberRefs = s.methods.flatMap (FunctionDecl.memberRefs { name := s.name }))
    (hnone : node.values = [] ∧ node.constants = [] ∧ node.links = [])
    (h : Clean node.cells) : node.WellFormed := by
  obtain ⟨hv, hc, hlinks⟩ := hnone
  rw [hcells] at h
  obtain ⟨hmax, heq, hclean⟩ := h.counted
  rw [StructDecl.cells, heq] at hcells
  obtain ⟨hrefs, hsignatures⟩ := hclean.of_methods rfl
  refine ⟨hkind, hl ▸ hmax, by simp [hv], by simp [hc], hr ▸ hrefs, by simp [hlinks],
    fun t hmem => ?_, by simp [hc], ?_⟩
  · rw [ht] at hmem
    obtain ⟨f, hf, rfl⟩ := List.mem_map.1 hmem
    simp only [hcells, List.mem_append, FieldDecl.mem_flatMap hf, true_or, or_true]
  · rw [hs, hcells]
    exact hsignatures

theorem EnumDecl.wellFormed {kind : EntryKind} {e : EnumDecl} {node : Node}
    (hcells : node.cells = e.cells kind) (hkind : node.entryKind?.isSome)
    (hl : node.memberCounts = [("values", e.values.length)]) (hv : node.values = e.values)
    (hnone : node.constants = [] ∧ node.memberRefs = [] ∧ node.links = [] ∧
      node.memberTypes = [] ∧ node.signatures = [])
    (h : Clean node.cells) : node.WellFormed := by
  obtain ⟨hc, hr, hlinks, ht, hs⟩ := hnone
  rw [hcells] at h
  obtain ⟨hmax, -, hclean⟩ := h.counted
  refine ⟨hkind, hl ▸ hmax, fun v hmem => ?_, by simp [hc], by simp [hr], by simp [hlinks],
    by simp [ht], by simp [hc], by simp [hs]⟩
  exact ValueDecl.of_clean (hclean.append.2.flatMap v (hv ▸ hmem))

theorem UnionDecl.wellFormed {u : UnionDecl} (h : Clean u.cells) : (Node.union u).WellFormed := by
  obtain ⟨hmax, heq, hclean⟩ := h.counted
  have hcells : (Node.union u).cells = _ := heq
  have hconstants := h.of_constants heq
  obtain ⟨hrefs, hsignatures⟩ := hclean.append.1.of_methods rfl
  refine ⟨rfl, hmax, by simp [Node.values], fun c hc => (hconstants c hc).1, hrefs,
    by simp [Node.links], fun t ht => ?_, fun c hc => (hconstants c hc).2, fun s hs => ?_⟩
  · obtain ht | ht := List.mem_append.1 ht
    · obtain ⟨disc, hdisc, rfl⟩ := Option.map_eq_some_iff.1 (Option.mem_toList.1 ht)
      have hmem : .type disc.type ∈ u.discriminatorCells := by
        simp [UnionDecl.discriminatorCells, hdisc]
      simp only [hcells, List.mem_append, hmem, true_or, or_true]
    · obtain ⟨f, hf, rfl⟩ := List.mem_map.1 ht
      simp only [hcells, List.mem_append, FieldDecl.mem_flatMap hf, true_or, or_true]
  · rw [hcells]
    exact List.mem_append_left _ (hsignatures s hs)

theorem ObjectDecl.wellFormed {o : ObjectDecl} (h : Clean o.cells) :
    (Node.object o).WellFormed := by
  obtain ⟨hmax, heq, hclean⟩ := h.counted
  have hcells : (Node.object o).cells = _ := heq
  have hconstants := h.of_constants heq
  obtain ⟨hrefs, hsignatures⟩ := hclean.append.1.of_members rfl
  refine ⟨rfl, hmax, by simp [Node.values], fun c hc => (hconstants c hc).1, hrefs,
    fun name hname => ?_, fun t ht => ?_, fun c hc => (hconstants c hc).2, fun s hs => ?_⟩
  · obtain hname | hname := List.mem_append.1 hname
    · simp [hcells, Option.mem_toList.1 hname]
    · simp only [hcells, List.mem_append, mem_slotCells hname, true_or, or_true]
  · obtain ht | ht := List.mem_append.1 ht
    · obtain ⟨f, hf, rfl⟩ := List.mem_map.1 ht
      simp only [hcells, List.mem_append, FieldDecl.mem_flatMap hf, true_or, or_true]
    · obtain ⟨p, hp, rfl⟩ := List.mem_map.1 ht
      simp only [hcells, List.mem_append, PropertyDecl.mem_flatMap hp, true_or, or_true]
  · rw [hcells]
    exact List.mem_append_left _ (hsignatures s hs)

theorem InterfaceDecl.wellFormed {i : InterfaceDecl} (h : Clean i.cells) :
    (Node.interface i).WellFormed := by
  obtain ⟨hmax, heq, hclean⟩ := h.counted
  have hcells : (Node.interface i).cells = _ := heq
  have hconstants := h.of_constants heq
  obtain ⟨hrefs, hsignatures⟩ := hclean.append.1.of_members rfl
  refine ⟨rfl, hmax, by simp [Node.values], fun c hc => (hconstants c hc).1, hrefs,
    fun name hname => ?_, fun t ht => ?_, fun c hc => (hconstants c hc).2, fun s hs => ?_⟩
  · have hmem : .slot name ∈ slotCells i.prerequisites := mem_slotCells hname
    simp only [hcells, List.mem_append, hmem, true_or, or_true]
  · obtain ⟨p, hp, rfl⟩ := List.mem_map.1 ht
    simp only [hcells, List.mem_append, PropertyDecl.mem_flatMap hp, true_or, or_true]
  · rw [hcells]
    exact List.mem_append_left _ (hsignatures s hs)

/-- A node whose cells refuse nothing violates no condition by itself. -/
theorem Node.wellFormed_of_clean {node : Node} (h : Clean node.cells) : node.WellFormed := by
  cases node with
  | function f =>
    obtain ⟨howner, hsignature⟩ := FunctionDecl.of_clean h
    refine ⟨rfl, by simp [memberCounts], by simp [values], by simp [constants], howner,
      by simp [links], by simp [memberTypes], by simp [constants], fun s hs => ?_⟩
    exact List.mem_singleton.1 hs ▸ hsignature
  | callback c =>
    refine ⟨rfl, by simp [memberCounts], by simp [values], by simp [constants],
      by simp [memberRefs], by simp [links], by simp [memberTypes], by simp [constants],
      fun s hs => ?_⟩
    rw [List.mem_singleton.1 hs]
    simp [cells, CallbackDecl.cells]
  | struct s | boxed s => exact StructDecl.wellFormed rfl rfl rfl rfl rfl rfl ⟨rfl, rfl, rfl⟩ h
  | union u => exact UnionDecl.wellFormed h
  | enum e | flags e => exact EnumDecl.wellFormed rfl rfl rfl rfl ⟨rfl, rfl, rfl, rfl, rfl⟩ h
  | object o => exact ObjectDecl.wellFormed h
  | interface i => exact InterfaceDecl.wellFormed h
  | errorDomain e =>
    refine ⟨rfl, by simp [memberCounts], by simp [values], by simp [constants],
      by simp [memberRefs], fun name hname => ?_, by simp [memberTypes], by simp [constants],
      by simp [signatures]⟩
    rw [List.mem_singleton.1 hname]
    simp [cells, ErrorDomainDecl.cells]
  | constant c =>
    obtain ⟨hencode, htype, hvalue⟩ := ConstantDecl.of_clean h
    refine ⟨rfl, by simp [memberCounts], by simp [values], fun c' hc => ?_, by simp [memberRefs],
      by simp [links], by simp [memberTypes], fun c' hc => ?_, by simp [signatures]⟩
    · exact List.mem_singleton.1 hc ▸ hencode
    · cases List.mem_singleton.1 hc
      exact ⟨htype, hvalue⟩
  | _ => exact absurd (List.mem_singleton_self _) (h _)

end Typelib
