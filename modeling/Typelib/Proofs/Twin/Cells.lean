import Typelib.Proofs.Twin.Respelled

/-!
# Bodies in another spelling

The bodies of descriptions that are the same but for names have the same cells, but for the names in
them.

* `Cell.Respelled`: the same cell, but for names;
* `Node.Respelled.cells`, `Ty.Respelled.cells`, `Signature.Respelled.cells`: the same body, but for
  names.
-/

namespace Typelib

variable {R : String → String → Prop}

/-! ### Cells -/

/-- The cell writes what it holds. -/
def Cell.isLiteral : Cell → Bool
  | slot _ | type _ | signature _ | value _ | errorType .. => false
  | _ => true

/-- The same cell, but for names. -/
inductive Cell.Respelled (R : String → String → Prop) : Cell → Cell → Prop
  | literal {c : Cell} : c.isLiteral = true → Respelled R c c
  | slot {name name' : String} : R name name' → Respelled R (.slot name) (.slot name')
  | type {t t' : Ty} : t.Respelled R t' → Respelled R (.type t) (.type t')
  | signature {s s' : Signature} : s.Respelled R s' → Respelled R (.signature s) (.signature s')
  | value {c c' : ConstantDecl} : c.Respelled R c' → Respelled R (.value c) (.value c')
  | errorType {domains domains' : List String} (flags : UInt8) :
    List.Forall₂ R domains domains' →
      Respelled R (.errorType flags domains) (.errorType flags domains')

namespace Cell

variable {cs cs' : List Cell}

theorem respelled_literals (h : ∀ c ∈ cs, c.isLiteral = true) : List.Forall₂ (Cell.Respelled R) cs cs :=
  List.forall₂_same.2 fun c hc => .literal (h c hc)

/-- The cells of members one after another. -/
theorem respelled_flatMap {α : Type} {S : α → α → Prop} {as as' : List α} {f f' : α → List Cell}
    (h : List.Forall₂ S as as')
    (hf : ∀ a a', S a a' → List.Forall₂ (Cell.Respelled R) (f a) (f' a')) :
    List.Forall₂ (Cell.Respelled R) (as.flatMap f) (as'.flatMap f') :=
  List.rel_flatMap h hf

theorem respelled_given {α : Type} {value : Except BuildError α} {f f' : α → List Cell}
    (h : ∀ a, List.Forall₂ (Cell.Respelled R) (f a) (f' a)) :
    List.Forall₂ (Cell.Respelled R) (Cell.given value f) (Cell.given value f') := by
  cases value with
  | ok a => exact h a
  | error e => exact .cons (.literal rfl) .nil

theorem respelled_counted {owner : String} {lists lists' : List (String × Nat)} (hl : lists' = lists)
    (h : List.Forall₂ (Cell.Respelled R) cs cs') :
    List.Forall₂ (Cell.Respelled R) (Cell.counted owner lists cs)
      (Cell.counted owner lists' cs') := by
  rw [hl]
  unfold Cell.counted
  split
  · exact .cons (.literal rfl) .nil
  · exact h

theorem respelled_slotCells {names names' : List String} (h : List.Forall₂ R names names') :
    List.Forall₂ (Cell.Respelled R) (slotCells names) (slotCells names') :=
  List.rel_append (List.rel_map (fun _ _ => .slot) h) (.cons (.literal rfl) .nil)

end Cell

/-! ### Cells of members -/

section Members

variable {owner : Owner}

theorem FieldDecl.Respelled.cells {f f' : FieldDecl} (h : f.Respelled R f') :
    List.Forall₂ (Cell.Respelled R) f.cells f'.cells := by
  obtain ⟨ht⟩ := h
  simp only [FieldDecl.cells, List.forall₂_cons]
  exact ⟨.literal rfl, .literal rfl, .literal rfl, .literal rfl, .type ht, .nil⟩

theorem PropertyDecl.Respelled.cells {p p' : PropertyDecl} (h : p.Respelled R p') :
    List.Forall₂ (Cell.Respelled R) p.cells p'.cells := by
  obtain ⟨ht⟩ := h
  simp only [PropertyDecl.cells, List.forall₂_cons]
  exact ⟨.literal rfl, .literal rfl, .type ht, .nil⟩

theorem ConstantDecl.Respelled.cells {c c' : ConstantDecl} (h : c.Respelled R c') :
    List.Forall₂ (Cell.Respelled R) c.cells c'.cells := by
  have hvalue := h
  unfold ConstantDecl.cells
  rw [h.encode]
  obtain ⟨ht⟩ := h
  refine Cell.respelled_given fun bytes => ?_
  simp only [List.forall₂_cons]
  exact ⟨.literal rfl, .literal rfl, .literal rfl, .type ht, .literal rfl, .value hvalue, .nil⟩

theorem ParamDecl.Respelled.cells {p p' : ParamDecl} (h : p.Respelled R p') :
    List.Forall₂ (Cell.Respelled R) p.cells p'.cells := by
  obtain ⟨ht⟩ := h
  simp only [ParamDecl.cells, List.forall₂_cons]
  exact ⟨.literal rfl, .literal rfl, .literal rfl, .type ht, .nil⟩

theorem Signature.Respelled.cells {s s' : Signature} (h : s.Respelled R s') :
    List.Forall₂ (Cell.Respelled R) s.cells s'.cells := by
  have hlength := h.params
  obtain ⟨result, params⟩ := s
  obtain @⟨result', params', hresult, hparams⟩ := h
  refine List.rel_append (List.rel_append ?_ ?_)
    (Cell.respelled_flatMap hparams fun _ _ => ParamDecl.Respelled.cells)
  · cases hresult with
    | none => exact .cons (.literal rfl) (.cons (.literal rfl) .nil)
    | some h =>
      obtain ⟨ht⟩ := h
      exact .cons (.type ht) (.cons (.literal rfl) .nil)
  · simp only [Cell.count, hlength]
    exact .cons (.literal rfl) (.cons (.literal rfl) .nil)

theorem FunctionDecl.Respelled.cells {f f' : FunctionDecl} (h : f.Respelled R f') :
    List.Forall₂ (Cell.Respelled R) (f.cells owner) (f'.cells owner) := by
  obtain ⟨hs⟩ := h
  refine Cell.respelled_given fun index => ?_
  simp only [List.forall₂_cons]
  exact ⟨.literal rfl, .literal rfl, .literal rfl, .literal rfl, .literal rfl, .literal rfl,
    .signature hs, .nil⟩

theorem CallbackDecl.Respelled.cells {c c' : CallbackDecl} (h : c.Respelled R c') :
    List.Forall₂ (Cell.Respelled R) c.cells c'.cells := by
  obtain ⟨hs⟩ := h
  simp only [CallbackDecl.cells, List.forall₂_cons]
  exact ⟨.literal rfl, .literal rfl, .literal rfl, .signature hs, .nil⟩

theorem SignalDecl.Respelled.cells {s s' : SignalDecl} (h : s.Respelled R s') :
    List.Forall₂ (Cell.Respelled R) (s.cells owner) (s'.cells owner) := by
  obtain ⟨hs⟩ := h
  refine Cell.respelled_given fun classClosure => ?_
  simp only [List.forall₂_cons]
  exact ⟨.literal rfl, .literal rfl, .literal rfl, .signature hs, .nil⟩

theorem VFuncDecl.Respelled.cells {v v' : VFuncDecl} (h : v.Respelled R v') :
    List.Forall₂ (Cell.Respelled R) (v.cells owner) (v'.cells owner) := by
  obtain ⟨hs⟩ := h
  refine Cell.respelled_given fun signal => ?_
  simp only [List.forall₂_cons]
  exact ⟨.literal rfl, .literal rfl, .literal rfl, .literal rfl, .literal rfl, .signature hs, .nil⟩

end Members

/-! ### Cells of bodies -/

/-- The rows that begin a registered type and the counts of its members are the same. -/
theorem StructDecl.Respelled.cells {s s' : StructDecl} {kind : EntryKind} (h : s.Respelled R s') :
    List.Forall₂ (Cell.Respelled R) (s.cells kind) (s'.cells kind) := by
  obtain ⟨hfields, hmethods⟩ := h
  refine Cell.respelled_counted (by rw [hfields.length_eq, hmethods.length_eq]) ?_
  rw [Cell.count, Cell.count, hfields.length_eq, hmethods.length_eq]
  refine List.rel_append (List.rel_append (Cell.respelled_literals ?_)
      (Cell.respelled_flatMap hfields fun _ _ => FieldDecl.Respelled.cells))
    (Cell.respelled_flatMap hmethods fun _ _ => FunctionDecl.Respelled.cells)
  simp [headCells, Cell.isLiteral, Cell.flags16]

theorem UnionDecl.Respelled.discriminators {u u' : UnionDecl} (h : u.Respelled R u') :
    List.Forall₂ (ConstantDecl.Respelled R) u.discriminators u'.discriminators := by
  obtain ⟨-, -, hd⟩ := h
  unfold UnionDecl.discriminators
  generalize u.discriminator = discriminator at hd
  cases hd with
  | none => exact .nil
  | some h =>
    obtain ⟨-, hvalues⟩ := h
    exact hvalues

theorem UnionDecl.Respelled.discriminatorCells {u u' : UnionDecl} (h : u.Respelled R u') :
    u'.discriminator.isSome = u.discriminator.isSome ∧
      List.Forall₂ (Cell.Respelled R) u.discriminatorCells u'.discriminatorCells := by
  obtain ⟨-, -, hd⟩ := h
  unfold UnionDecl.discriminatorCells
  generalize u.discriminator = discriminator at hd
  cases hd with
  | none => exact ⟨rfl, .cons (.literal rfl) (.cons (.literal rfl) .nil)⟩
  | some h =>
    obtain ⟨ht, -⟩ := h
    exact ⟨rfl, .cons (.literal rfl) (.cons (.type ht) .nil)⟩

theorem UnionDecl.Respelled.cells {u u' : UnionDecl} (h : u.Respelled R u') :
    List.Forall₂ (Cell.Respelled R) u.cells u'.cells := by
  have hvalues := h.discriminators
  obtain ⟨hsome, hd⟩ := h.discriminatorCells
  unfold UnionDecl.cells
  rw [hsome]
  obtain ⟨hfields, hmethods, -⟩ := h
  refine Cell.respelled_counted
    (by rw [hfields.length_eq, hmethods.length_eq, hvalues.length_eq]) ?_
  simp only [Cell.count]
  rw [hfields.length_eq, hmethods.length_eq, hvalues.length_eq]
  refine List.rel_append (List.rel_append (List.rel_append (List.rel_append
    (Cell.respelled_literals ?_) hd)
    (Cell.respelled_flatMap hfields fun _ _ => FieldDecl.Respelled.cells))
    (Cell.respelled_flatMap hmethods fun _ _ => FunctionDecl.Respelled.cells))
    (Cell.respelled_flatMap hvalues fun _ _ => ConstantDecl.Respelled.cells)
  simp [headCells, Cell.isLiteral, Cell.flags16]

theorem EnumDecl.literal_cells (e : EnumDecl) (kind : EntryKind) :
    ∀ c ∈ e.cells kind, c.isLiteral = true := by
  have hvalue : ∀ v : ValueDecl, ∀ c ∈ v.cells e.name, c.isLiteral = true := by
    intro v
    unfold ValueDecl.cells
    simp only
    split
    · simp [Cell.flags32, Cell.isLiteral]
    · split <;> simp [Cell.flags32, Cell.isLiteral]
  unfold EnumDecl.cells Cell.counted
  split
  · simp [Cell.isLiteral]
  · intro c hc
    rcases List.mem_append.1 hc with hc | hc
    · simp only [headCells, Cell.flags16, Cell.count, List.mem_append, List.mem_cons,
        List.not_mem_nil, or_false] at hc
      obtain (rfl | rfl | rfl | rfl | rfl) | (rfl | rfl) := hc <;> rfl
    · obtain ⟨v, -, hc⟩ := List.mem_flatMap.1 hc
      exact hvalue v c hc

theorem ObjectDecl.Respelled.owner {o o' : ObjectDecl} (h : o.Respelled R o') :
    o'.owner = o.owner := by
  obtain ⟨-, -, -, hproperties, -, hsignals, hvfuncs, -⟩ := h
  simp only [ObjectDecl.owner]
  rw [list_rel_map_eq hproperties fun _ _ ⟨_⟩ => rfl, list_rel_map_eq hsignals fun _ _ ⟨_⟩ => rfl,
    list_rel_map_eq hvfuncs fun _ _ ⟨_⟩ => rfl]

theorem InterfaceDecl.Respelled.owner {i i' : InterfaceDecl} (h : i.Respelled R i') :
    i'.owner = i.owner := by
  obtain ⟨-, hproperties, -, hsignals, hvfuncs, -⟩ := h
  simp only [InterfaceDecl.owner]
  rw [list_rel_map_eq hproperties fun _ _ ⟨_⟩ => rfl, list_rel_map_eq hsignals fun _ _ ⟨_⟩ => rfl,
    list_rel_map_eq hvfuncs fun _ _ ⟨_⟩ => rfl]

theorem ObjectDecl.Respelled.cells {o o' : ObjectDecl} (h : o.Respelled R o') :
    List.Forall₂ (Cell.Respelled R) o.cells o'.cells := by
  have howner := h.owner
  unfold ObjectDecl.cells
  rw [howner]
  obtain ⟨hparent, hinterfaces, hfields, hproperties, hmethods, hsignals, hvfuncs, hconstants⟩ := h
  refine Cell.respelled_counted (by
    rw [hinterfaces.length_eq, hfields.length_eq, hproperties.length_eq, hmethods.length_eq,
      hsignals.length_eq, hvfuncs.length_eq, hconstants.length_eq]) ?_
  simp only [Cell.count]
  rw [hinterfaces.length_eq, hfields.length_eq, hproperties.length_eq, hmethods.length_eq,
      hsignals.length_eq, hvfuncs.length_eq, hconstants.length_eq]
  refine List.rel_append (List.rel_append (List.rel_append (List.rel_append (List.rel_append
    (List.rel_append (List.rel_append (List.rel_append ?_ ?_) (Cell.respelled_slotCells hinterfaces))
    (Cell.respelled_flatMap hfields fun _ _ => FieldDecl.Respelled.cells))
    (Cell.respelled_flatMap hproperties fun _ _ => PropertyDecl.Respelled.cells))
    (Cell.respelled_flatMap hmethods fun _ _ => FunctionDecl.Respelled.cells))
    (Cell.respelled_flatMap hsignals fun _ _ => SignalDecl.Respelled.cells))
    (Cell.respelled_flatMap hvfuncs fun _ _ => VFuncDecl.Respelled.cells))
    (Cell.respelled_flatMap hconstants fun _ _ => ConstantDecl.Respelled.cells)
  · exact Cell.respelled_literals (by simp [headCells, Cell.isLiteral, Cell.flags16])
  · refine .cons ?_ (Cell.respelled_literals (by simp [Cell.isLiteral]))
    generalize o.parent = parent at hparent
    cases hparent with
    | none => exact .literal rfl
    | some h => exact .slot h

theorem InterfaceDecl.Respelled.cells {i i' : InterfaceDecl} (h : i.Respelled R i') :
    List.Forall₂ (Cell.Respelled R) i.cells i'.cells := by
  have howner := h.owner
  unfold InterfaceDecl.cells
  rw [howner]
  obtain ⟨hprerequisites, hproperties, hmethods, hsignals, hvfuncs, hconstants⟩ := h
  refine Cell.respelled_counted (by
    rw [hprerequisites.length_eq, hproperties.length_eq, hmethods.length_eq,
      hsignals.length_eq, hvfuncs.length_eq, hconstants.length_eq]) ?_
  simp only [Cell.count]
  rw [hprerequisites.length_eq, hproperties.length_eq, hmethods.length_eq,
      hsignals.length_eq, hvfuncs.length_eq, hconstants.length_eq]
  refine List.rel_append (List.rel_append (List.rel_append (List.rel_append
    (List.rel_append (List.rel_append ?_ (Cell.respelled_slotCells hprerequisites))
    (Cell.respelled_flatMap hproperties fun _ _ => PropertyDecl.Respelled.cells))
    (Cell.respelled_flatMap hmethods fun _ _ => FunctionDecl.Respelled.cells))
    (Cell.respelled_flatMap hsignals fun _ _ => SignalDecl.Respelled.cells))
    (Cell.respelled_flatMap hvfuncs fun _ _ => VFuncDecl.Respelled.cells))
    (Cell.respelled_flatMap hconstants fun _ _ => ConstantDecl.Respelled.cells)
  exact Cell.respelled_literals (by simp [headCells, Cell.isLiteral, Cell.flags16])

/-- The bodies of the same entry are the same but for names. -/
theorem Node.Respelled.cells {n n' : Node} (h : n.Respelled R n') :
    List.Forall₂ (Cell.Respelled R) n.cells n'.cells := by
  have hmisplaced := h.misplaced
  cases h with
  | function h =>
    have hname := h
    obtain ⟨-⟩ := hname
    exact h.cells
  | callback h => exact h.cells
  | struct h | boxed h => exact h.cells
  | union h => exact h.cells
  | enum e | flags e => exact Cell.respelled_literals (e.literal_cells _)
  | object h => exact h.cells
  | interface h => exact h.cells
  | errorDomain h =>
    obtain ⟨hcodes⟩ := h
    simp only [Node.cells, ErrorDomainDecl.cells, List.forall₂_cons]
    exact ⟨.literal rfl, .literal rfl, .literal rfl, .literal rfl, .slot hcodes, .literal rfl, .nil⟩
  | constant h => exact h.cells
  | field | property | signal | vfunc | param | value | type =>
    simp only [Node.cells, hmisplaced]
    exact .cons (.literal rfl) .nil

/-- The bodies of the same complex type are the same but for names. -/
theorem Ty.Respelled.cells {t t' : Ty} (h : t.Respelled R t') :
    List.Forall₂ (Cell.Respelled R) t.cells t'.cells := by
  cases h with
  | scalar | interface => exact .cons (.literal rfl) .nil
  | array _ _ _ h =>
    simp only [Ty.cells, List.forall₂_cons]
    exact ⟨.literal rfl, .literal rfl, .literal rfl, .literal rfl, .type h, .nil⟩
  | list _ h | slist _ h =>
    simp only [Ty.cells, paramTypeCells, Cell.count]
    exact List.rel_append (Cell.respelled_literals (by simp [Cell.isLiteral, Cell.flags8]))
      (.cons (.type h) .nil)
  | hash _ hk hv =>
    simp only [Ty.cells, paramTypeCells, Cell.count]
    exact List.rel_append (Cell.respelled_literals (by simp [Cell.isLiteral, Cell.flags8]))
      (.cons (.type hk) (.cons (.type hv) .nil))
  | error _ h => exact .cons (.errorType _ h) .nil

end Typelib
