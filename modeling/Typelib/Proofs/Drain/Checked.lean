import Typelib.Proofs.Acceptance.Cells

/-!
# What is checked before it is queued

A body is queued when something refers to it, and written later. A type is queued only if it is one
that has a body, and a constant only when its value was found.

* `Work.Checked`: what is known of a body before it is queued;
* `Node.checked_cells`, `Signature.checked_cells`, `Ty.checked_cells`: bodies queue nothing
  unchecked.
-/

namespace Typelib

/-! ### Bodies -/

/-- What is known of a body before it is queued: a type is one that has a body, and a constant has a
value. Entries are not queued. -/
def Work.Checked : Work → Prop
  | entry _ => False
  | type t => t.tag.isComplex = true
  | signature _ => True
  | constant c => ∃ bytes, c.encode = .ok bytes

/-- The cell promises checked bodies only. -/
def Cell.Checked (c : Cell) : Prop := ∀ work ∈ c.works, work.Checked

namespace Cell

theorem checked_of_works {c : Cell} (h : c.works = []) : c.Checked := by simp [Checked, h]

@[simp] theorem checked_type (t : Ty) : (type t).Checked := by
  intro work hw
  simp only [works] at hw
  split at hw
  next hc => exact List.mem_singleton.1 hw ▸ hc
  next => cases hw

@[simp] theorem checked_signature (s : Signature) : (signature s).Checked := by
  simp [Checked, works, Work.Checked]

@[simp] theorem checked_value {c : ConstantDecl} :
    (value c).Checked ↔ ∃ bytes, c.encode = .ok bytes := by
  simp [Checked, works, Work.Checked]

end Cell

/-! ### Cells -/

/-- None of the cells has a value in it, so they are checked. -/
theorem Cell.checked_of_not_value {cs : List Cell} (h : ∀ c, .value c ∉ cs) :
    ∀ c ∈ cs, c.Checked := by
  intro c hc
  cases c with
  | type t => exact checked_type t
  | signature s => exact checked_signature s
  | value k => exact absurd hc (h k)
  | _ => exact checked_of_works rfl

theorem FunctionDecl.checked_cells (f : FunctionDecl) (owner : Owner) :
    ∀ c ∈ f.cells owner, c.Checked :=
  Cell.forall_mem_given (fun _ _ => Cell.checked_of_works rfl) fun _ _ =>
    Cell.checked_of_not_value (by simp [Cell.flags16])

theorem SignalDecl.checked_cells (s : SignalDecl) (owner : Owner) :
    ∀ c ∈ s.cells owner, c.Checked :=
  Cell.forall_mem_given (fun _ _ => Cell.checked_of_works rfl) fun _ _ =>
    Cell.checked_of_not_value (by simp [Cell.flags16])

theorem VFuncDecl.checked_cells (v : VFuncDecl) (owner : Owner) :
    ∀ c ∈ v.cells owner, c.Checked :=
  Cell.forall_mem_given (fun _ _ => Cell.checked_of_works rfl) fun _ _ =>
    Cell.checked_of_not_value (by simp [Cell.flags16])

/-- A constant queues its value only if it has one. -/
theorem ConstantDecl.checked_cells (c : ConstantDecl) : ∀ cell ∈ c.cells, cell.Checked := by
  refine Cell.forall_mem_given (fun _ _ => Cell.checked_of_works rfl) fun bytes hb => ?_
  simp only [List.forall_mem_cons]
  exact ⟨Cell.checked_of_works rfl, Cell.checked_of_works rfl, Cell.checked_of_works rfl,
    Cell.checked_type _, Cell.checked_of_works rfl, Cell.checked_value.2 ⟨bytes, hb⟩, by simp⟩

theorem FieldDecl.checked_cells (f : FieldDecl) : ∀ c ∈ f.cells, c.Checked :=
  Cell.checked_of_not_value (by simp [cells, Cell.flags8])

theorem PropertyDecl.checked_cells (p : PropertyDecl) : ∀ c ∈ p.cells, c.Checked :=
  Cell.checked_of_not_value (by simp [cells, Cell.flags32])

theorem ValueDecl.checked_cells (v : ValueDecl) (owner : String) :
    ∀ c ∈ v.cells owner, c.Checked := by
  refine Cell.checked_of_not_value fun k hk => ?_
  unfold cells at hk
  simp only [Cell.flags32] at hk
  split_ifs at hk <;> simp at hk

theorem Signature.checked_cells (s : Signature) : ∀ c ∈ s.cells, c.Checked := by
  refine Cell.checked_of_not_value fun k hk => ?_
  simp only [cells, resultCells, List.mem_append, List.mem_flatMap] at hk
  cases hr : s.result <;> simp [hr, Cell.flags16, Cell.count, ParamDecl.cells] at hk

theorem Ty.checked_cells (t : Ty) : ∀ c ∈ t.cells, c.Checked := by
  refine Cell.checked_of_not_value fun k hk => ?_
  cases t <;> simp [cells, paramTypeCells, Cell.flags8, Cell.count] at hk

/-- The body of a type that has one is not refused. -/
theorem Ty.reject_not_mem {t : Ty} {e : BuildError} (h : t.tag.isComplex = true) :
    .reject e ∉ t.cells := by
  cases t with
  | scalar | interface => cases h
  | _ => simp [cells, paramTypeCells, Cell.flags8, Cell.count]

/-- What an entry queues is checked before. -/
theorem Node.checked_cells (node : Node) : ∀ c ∈ node.cells, c.Checked := by
  have head {kind : EntryKind} {name : String} {deprecated discriminated : Bool}
      {gtypeName gtypeInit : Option String} :
      ∀ c ∈ headCells kind name deprecated gtypeName gtypeInit discriminated, c.Checked :=
    Cell.checked_of_not_value (by simp [headCells, Cell.flags16])
  have slots (names : List String) : ∀ c ∈ slotCells names, c.Checked :=
    Cell.checked_of_not_value (by simp [slotCells])
  have struct (s : StructDecl) (kind : EntryKind) : ∀ c ∈ s.cells kind, c.Checked := by
    refine Cell.forall_mem_counted (fun _ _ _ _ => Cell.checked_of_works rfl) fun _ => ?_
    simp only [List.forall_mem_append, List.forall_mem_flatMap]
    exact ⟨⟨⟨head, Cell.checked_of_not_value (by simp [Cell.count])⟩,
      fun f _ => f.checked_cells⟩, fun f _ => f.checked_cells _⟩
  have enum (e : EnumDecl) (kind : EntryKind) : ∀ c ∈ e.cells kind, c.Checked := by
    refine Cell.forall_mem_counted (fun _ _ _ _ => Cell.checked_of_works rfl) fun _ => ?_
    simp only [List.forall_mem_append, List.forall_mem_flatMap]
    exact ⟨⟨head, Cell.checked_of_not_value (by simp [Cell.count])⟩, fun v _ => v.checked_cells _⟩
  cases node with
  | function f => exact f.checked_cells _
  | callback c =>
    exact Cell.checked_of_not_value (by simp [cells, CallbackDecl.cells, Cell.flags16])
  | struct s => exact struct s .struct
  | boxed s => exact struct s .boxed
  | enum e => exact enum e .enum
  | flags e => exact enum e .flags
  | union u =>
    refine Cell.forall_mem_counted (fun _ _ _ _ => Cell.checked_of_works rfl) fun _ => ?_
    simp only [List.forall_mem_append, List.forall_mem_flatMap]
    refine ⟨⟨⟨⟨⟨head, Cell.checked_of_not_value (by simp [Cell.count])⟩, ?_⟩,
      fun f _ => f.checked_cells⟩, fun f _ => f.checked_cells _⟩, fun c _ => c.checked_cells⟩
    refine Cell.checked_of_not_value fun k hk => ?_
    cases hd : u.discriminator <;> simp [UnionDecl.discriminatorCells, hd] at hk
  | object o =>
    refine Cell.forall_mem_counted (fun _ _ _ _ => Cell.checked_of_works rfl) fun _ => ?_
    simp only [List.forall_mem_append, List.forall_mem_flatMap]
    refine ⟨⟨⟨⟨⟨⟨⟨⟨head, ?_⟩, slots _⟩, fun f _ => f.checked_cells⟩, fun p _ => p.checked_cells⟩,
      fun f _ => f.checked_cells _⟩, fun s _ => s.checked_cells _⟩, fun v _ => v.checked_cells _⟩,
      fun c _ => c.checked_cells⟩
    refine Cell.checked_of_not_value fun k hk => ?_
    cases hp : o.parent <;> simp [hp, Cell.count] at hk
  | interface i =>
    refine Cell.forall_mem_counted (fun _ _ _ _ => Cell.checked_of_works rfl) fun _ => ?_
    simp only [List.forall_mem_append, List.forall_mem_flatMap]
    exact ⟨⟨⟨⟨⟨⟨⟨head, Cell.checked_of_not_value (by simp [Cell.count])⟩, slots _⟩,
      fun p _ => p.checked_cells⟩, fun f _ => f.checked_cells _⟩, fun s _ => s.checked_cells _⟩,
      fun v _ => v.checked_cells _⟩, fun c _ => c.checked_cells⟩
  | errorDomain d =>
    exact Cell.checked_of_not_value (by simp [cells, ErrorDomainDecl.cells, Cell.flags16])
  | constant c => exact c.checked_cells
  | _ => exact Cell.checked_of_not_value (by simp [cells])

end Typelib
