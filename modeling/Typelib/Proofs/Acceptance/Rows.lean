import Mathlib.Tactic.SplitIfs
import Typelib.Binary.Row.Registered
import Typelib.Binary.Row.TypeBody
import Typelib.Proofs.Body.Fill
import Typelib.Proofs.Build.Promise

/-!
# Rows have their declared widths

A body consists of rows, each as long as the format declares, and of lists and values that may have
any length. Whatever is written takes exactly the declared number of bytes, on every draft.

* `Takes`: cells that take a number of bytes;
* `Work.parts`: the rows of a body, with the widths that are declared for them;
* `Work.rowsExact`: all rows have their widths.
-/

namespace Typelib

open Build

/-- Cells take a number of bytes on every draft on which they can be written. -/
def Takes (cs : List Cell) (n : Nat) : Prop :=
  ∀ d d' : Draft, (Build.cells cs).Yields d () d' → d'.body.size = d.body.size + n

/-! ### Cells of fixed width -/

namespace Cell

/-- The width of a cell, if it is the same wherever the cell is written. -/
def width : Cell → Nat
  | byte _ => 1
  | word16 _ | slot _ => 2
  | word32 _ | name _ | optName _ | signature _ | value _ => 4
  | typeRef _ | type _ => 8
  | errorType .. | raw _ | align | reject _ => 0

/-- The cell has the same width wherever it is written. -/
def isFixed : Cell → Bool
  | errorType .. | raw _ | align => false
  | _ => true

end Cell

/-- To ask for a type writes nothing. -/
theorem body_typeUse {type : Ty} {use : TypeUse} {d d' : Draft}
    (h : (typeUse type).Yields d use d') : d'.body = d.body := by
  by_cases hc : type.tag.isComplex
  · rw [typeUse_of_complex hc] at h
    obtain ⟨id, hbody, -⟩ := yields_map.1 h
    obtain ⟨d₁, hd₁, ⟨_, he⟩ | ⟨s, -, ⟨_, -, he⟩ | ⟨-, he⟩⟩⟩ := typeBody_outcome type d <;>
      rw [Yields, he] at hbody <;> cases hbody
    · exact hd₁.body
    · exact hd₁.body
  · exact ((typeUse_of_not_complex (Bool.not_eq_true _ ▸ hc)).1.yields h).body

/-- A cell of fixed width takes as many bytes. -/
theorem size_cell {c : Cell} {d d' : Draft} (hc : c.isFixed = true)
    (h : (cell c).Yields d () d') : d'.body.size = d.body.size + c.width := by
  have put : ∀ {α : Type} {x : Build α} {f : α → Section → Section} {n : Nat},
      (∀ a d₁, x.Yields d a d₁ → d₁.body = d.body) → (∀ a s, (f a s).size = s.size + n) →
      (x >>= fun a => onBody (f a)).Yields d () d' → d'.body.size = d.body.size + n := by
    intro α x f n hx hf h
    obtain ⟨a, d₁, ha, hput⟩ := yields_bind.1 h
    obtain rfl := yields_onBody.1 hput
    rw [hf, hx a d₁ ha]
  cases c with
  | byte | word16 | word32 =>
    rw [cell] at h
    obtain rfl := yields_onBody.1 h
    exact d.body.size_append _
  | typeRef ref =>
    rw [cell] at h
    obtain rfl := yields_onBody.1 h
    exact d.body.size_typeRef ref none
  | name s =>
    exact put (fun _ _ hy => ((within_intern s).yields hy).body)
      (fun offset s => s.size_reference (.string offset)) h
  | optName s =>
    refine put (fun _ _ hy => ((within_internOpt s).yields hy).body) (fun offset s => ?_) h
    cases offset with
    | none => exact s.size_append _
    | some offset => exact s.size_reference (.string offset)
  | slot name =>
    exact put (fun _ _ hy => ((within_resolve name).yields hy).body)
      (fun ref s => s.size_append _) h
  | type t =>
    exact put (fun _ _ hy => body_typeUse hy) (fun use s => s.size_typeRef use.ref use.body?) h
  | signature s =>
    obtain rfl : { d.promiseSignature s with
        body := d.body.reference (.body d.symbols.nextId) } = d' := h.after
    exact d.body.size_reference _
  | value c =>
    obtain rfl : { d.promiseConstant c with
        body := d.body.reference (.body d.symbols.nextId) } = d' := h.after
    exact d.body.size_reference _
  | errorType | raw | align => cases hc
  | reject e => exact absurd h not_yields_throw

theorem yields_cells_append {cs cs' : List Cell} : ∀ {d d' : Draft},
    (cells (cs ++ cs')).Yields d () d' ↔
      ∃ d₁, (cells cs).Yields d () d₁ ∧ (cells cs').Yields d₁ () d' := by
  induction cs with
  | nil => simp [cells]
  | cons c cs ih =>
    intro d d'
    simp only [List.cons_append, cells, yields_bind, ih]
    constructor
    · rintro ⟨_, d₁, hc, d₂, hcs, h⟩
      exact ⟨d₂, ⟨_, d₁, hc, hcs⟩, h⟩
    · rintro ⟨d₂, ⟨_, d₁, hc, hcs⟩, h⟩
      exact ⟨_, d₁, hc, d₂, hcs, h⟩

namespace Takes

variable {cs cs' : List Cell} {n n' : Nat}

theorem nil : Takes [] 0 := by
  intro d d' h
  obtain ⟨-, rfl⟩ := yields_pure.1 h
  rfl

theorem append (h : Takes cs n) (h' : Takes cs' n') : Takes (cs ++ cs') (n + n') := by
  intro d d' hy
  obtain ⟨d₁, h₁, h₂⟩ := yields_cells_append.1 hy
  rw [h' d₁ d' h₂, h d d₁ h₁, Nat.add_assoc]

/-- Cells of fixed width take as many bytes as their widths add up to. -/
theorem of_fixed (h : cs.all Cell.isFixed = true) : Takes cs (cs.map Cell.width).sum := by
  induction cs with
  | nil => exact nil
  | cons c cs ih =>
    rw [List.all_cons, Bool.and_eq_true] at h
    have hc : Takes [c] c.width := by
      intro d d' hy
      obtain ⟨_, d₁, hcell, hnil⟩ := yields_bind.1 hy
      obtain ⟨-, rfl⟩ := yields_pure.1 hnil
      exact size_cell h.1 hcell
    rw [List.map_cons, List.sum_cons]
    exact hc.append (ih h.2)

theorem of_width (h : cs.all Cell.isFixed = true) (hn : (cs.map Cell.width).sum = n) :
    Takes cs n := hn ▸ of_fixed h

theorem reject (e : BuildError) : Takes [.reject e] n := by
  intro d d' h
  obtain ⟨_, _, hreject, -⟩ := yields_bind.1 h
  exact absurd hreject not_yields_throw

/-- Cells that call for a value are written only if there is one. -/
theorem given {α : Type} {value : Except BuildError α} {f : α → List Cell}
    (h : ∀ a, Takes (f a) n) : Takes (Cell.given value f) n := by
  cases value with
  | ok a => exact h a
  | error e => exact reject e

/-- Rows of one width take as many bytes as there are rows of that width. -/
theorem flatten {rows : List (List Cell)} (h : ∀ row ∈ rows, Takes row n) :
    Takes rows.flatten (rows.length * n) := by
  induction rows with
  | nil =>
    rw [List.length_nil, Nat.zero_mul]
    exact nil
  | cons row rows ih =>
    rw [List.forall_mem_cons] at h
    rw [List.flatten_cons, List.length_cons, Nat.succ_mul, Nat.add_comm]
    exact h.1.append (ih h.2)

end Takes

/-! ### Rows of a body -/

/-- A part of a body: rows of a width that the format declares, or cells that may have any width. -/
structure Part where
  rows : List (List Cell)
  /-- The width of each row, if it is declared. -/
  width : Option Nat

namespace Part

/-- Rows of one kind. -/
def of (α : Type) [Row α] (rows : List (List Cell)) : Part := ⟨rows, some (Row.width α)⟩

/-- Cells of any width. -/
def free (cells : List Cell) : Part := ⟨[cells], none⟩

/-- The rows one after another. -/
def cells (p : Part) : List Cell := p.rows.flatten

@[simp] theorem cells_single (α : Type) [Row α] (row : List Cell) : (of α [row]).cells = row :=
  List.append_nil row

@[simp] theorem cells_map {β : Type} (α : Type) [Row α] (members : List β) (f : β → List Cell) :
    (of α (members.map f)).cells = members.flatMap f := (List.flatMap_def ..).symm

@[simp] theorem cells_free (cs : List Cell) : (free cs).cells = cs := List.append_nil cs

/-- Each row has its width, and all rows together have as much as there are rows. -/
structure Exact (p : Part) : Prop where
  row : ∀ w, p.width = some w → ∀ row ∈ p.rows, Takes row w
  rows : ∀ w, p.width = some w → Takes p.cells (p.rows.length * w)

theorem exact_free (cells : List Cell) : (free cells).Exact :=
  ⟨fun _ h => by simp [free] at h, fun _ h => by simp [free] at h⟩

theorem exact_of {α : Type} [Row α] {rows : List (List Cell)}
    (h : ∀ row ∈ rows, Takes row (Row.width α)) : (of α rows).Exact := by
  refine ⟨fun w hw => ?_, fun w hw => ?_⟩ <;> cases Option.some.inj hw
  · exact h
  · exact Takes.flatten h

theorem exact_single {α : Type} [Row α] {row : List Cell} (h : Takes row (Row.width α)) :
    (of α [row]).Exact := exact_of (List.forall_mem_singleton.2 h)

theorem exact_map {α β : Type} [Row α] {members : List β} {f : β → List Cell}
    (h : ∀ b, Takes (f b) (Row.width α)) : (of α (members.map f)).Exact := by
  refine exact_of fun row hrow => ?_
  obtain ⟨b, -, rfl⟩ := List.mem_map.1 hrow
  exact h b

end Part

/-! ### Rows of members -/

theorem FunctionDecl.takes (f : FunctionDecl) (owner : Owner) :
    Takes (f.cells owner) (Row.width FunctionRow) := .given fun _ => .of_fixed rfl

theorem CallbackDecl.takes (c : CallbackDecl) : Takes c.cells (Row.width CallbackRow) :=
  .of_fixed rfl

theorem SignalDecl.takes (s : SignalDecl) (owner : Owner) :
    Takes (s.cells owner) (Row.width SignalRow) := .given fun _ => .of_fixed rfl

theorem VFuncDecl.takes (v : VFuncDecl) (owner : Owner) :
    Takes (v.cells owner) (Row.width VFuncRow) := .given fun _ => .of_fixed rfl

theorem FieldDecl.takes (f : FieldDecl) : Takes f.cells (Row.width FieldRow) := .of_fixed rfl

theorem PropertyDecl.takes (p : PropertyDecl) : Takes p.cells (Row.width PropertyRow) :=
  .of_fixed rfl

theorem ParamDecl.takes (p : ParamDecl) : Takes p.cells (Row.width ArgRow) := .of_fixed rfl

theorem ConstantDecl.takes (c : ConstantDecl) : Takes c.cells (Row.width ConstantRow) :=
  .given fun _ => .of_fixed rfl

theorem ValueDecl.takes (owner : String) (v : ValueDecl) :
    Takes (v.cells owner) (Row.width ValueRow) := by
  unfold ValueDecl.cells
  simp only
  split_ifs
  · exact .of_fixed rfl
  · exact .of_fixed rfl
  · exact .reject _

/-! ### Bodies -/

def EnumDecl.parts (e : EnumDecl) (kind : EntryKind) : List Part :=
  [.of EnumRow [headCells kind e.name e.deprecated e.gtypeName e.gtypeInit ++
      [.count e.values, .word16 0]],
    .of ValueRow (e.values.map (ValueDecl.cells e.name))]

def StructDecl.parts (s : StructDecl) (kind : EntryKind) : List Part :=
  [.of StructRow [headCells kind s.name s.deprecated s.gtypeName s.gtypeInit ++
      [.count s.fields, .count s.methods]],
    .of FieldRow (s.fields.map FieldDecl.cells),
    .of FunctionRow (s.methods.map (·.cells { name := s.name }))]

def UnionDecl.parts (u : UnionDecl) : List Part :=
  [.of UnionRow [headCells .union u.name u.deprecated u.gtypeName u.gtypeInit
      u.discriminator.isSome ++
      [.count u.fields, .count u.methods, .count u.discriminators, .word16 0] ++
      u.discriminatorCells],
    .of FieldRow (u.fields.map FieldDecl.cells),
    .of FunctionRow (u.methods.map (·.cells { name := u.name })),
    .of ConstantRow (u.discriminators.map ConstantDecl.cells)]

def ObjectDecl.parts (o : ObjectDecl) : List Part :=
  [.of ObjectRow [headCells .object o.name o.deprecated o.gtypeName o.gtypeInit ++
      [match o.parent with
        | some parent => .slot parent
        | none => .word16 DirRef.none.raw,
        .count o.interfaces, .count o.fields, .count o.properties, .count o.methods,
        .count o.signals, .count o.vfuncs, .count o.constants, .word32 0]],
    .free (slotCells o.interfaces),
    .of FieldRow (o.fields.map FieldDecl.cells),
    .of PropertyRow (o.properties.map PropertyDecl.cells),
    .of FunctionRow (o.methods.map (·.cells o.owner)),
    .of SignalRow (o.signals.map (·.cells o.owner)),
    .of VFuncRow (o.vfuncs.map (·.cells o.owner)),
    .of ConstantRow (o.constants.map ConstantDecl.cells)]

def InterfaceDecl.parts (i : InterfaceDecl) : List Part :=
  [.of InterfaceRow [headCells .interface i.name i.deprecated i.gtypeName i.gtypeInit ++
      [.count i.prerequisites, .count i.properties, .count i.methods, .count i.signals,
        .count i.vfuncs, .count i.constants, .word32 0]],
    .free (slotCells i.prerequisites),
    .of PropertyRow (i.properties.map PropertyDecl.cells),
    .of FunctionRow (i.methods.map (·.cells i.owner)),
    .of SignalRow (i.signals.map (·.cells i.owner)),
    .of VFuncRow (i.vfuncs.map (·.cells i.owner)),
    .of ConstantRow (i.constants.map ConstantDecl.cells)]

/-- The row of an entry, and those of its members. -/
def Node.parts : Node → List Part
  | function f => [.of FunctionRow [f.cells { name := f.name }]]
  | callback c => [.of CallbackRow [c.cells]]
  | struct s => s.parts .struct
  | boxed s => s.parts .boxed
  | union u => u.parts
  | enum e => e.parts .enum
  | flags e => e.parts .flags
  | object o => o.parts
  | interface i => i.parts
  | errorDomain e => [.of ErrorDomainRow [e.cells]]
  | constant c => [.of ConstantRow [c.cells]]
  | _ => []

/-- The row of a complex type. Those of lists and hashes are followed by the types in them, and an
error type by its domains. -/
def Ty.bodyParts : Ty → List Part
  | array element zeroTerminated length p =>
    [.of ArrayTypeRow [(array element zeroTerminated length p).cells]]
  | list element p => paramParts .list p [element]
  | slist element p => paramParts .slist p [element]
  | hash key value p => paramParts .hash p [key, value]
  | error domains p => [.free (error domains p).cells]
  | _ => []
where
  paramParts (tag : TypeTag) (p : Bool) (types : List Ty) : List Part :=
    [.of ParamTypeRow [[.byte tag.code, Cell.flags8 [p], Cell.count types, .word32 0]],
      .free (types.map .type)]

/-- The rows of a body. -/
def Work.parts : Work → List Part
  | entry node => node.parts
  | type t => t.bodyParts
  | signature s =>
    [.of SignatureRow [s.resultCells ++ [.count s.params, .word32 0]],
      .of ArgRow (s.params.map ParamDecl.cells)]
  | constant c => [.free (constant c).cells]

theorem Cell.counted_cases (owner : String) (lists : List (String × Nat)) (cs : List Cell) :
    Cell.counted owner lists cs = cs ∨ ∃ e, Cell.counted owner lists cs = [.reject e] := by
  unfold counted
  split
  · exact .inr ⟨_, rfl⟩
  · exact .inl rfl

/-- A body consists of its parts, unless there are too many members of some kind. -/
theorem Work.cells_eq_parts (work : Work) :
    work.cells = work.parts.flatMap Part.cells ∨ ∃ e, work.cells = [.reject e] := by
  -- where members are counted, the parts are what follows
  have counted : ∀ {owner : String} {lists : List (String × Nat)} {cs : List Cell}
      {parts : List Part}, cs = parts.flatMap Part.cells →
      Cell.counted owner lists cs = parts.flatMap Part.cells ∨
        ∃ e, Cell.counted owner lists cs = [.reject e] := by
    rintro owner lists _ parts rfl
    exact Cell.counted_cases _ _ _
  cases work with
  | entry node =>
    cases node with
    | function | callback | errorDomain | constant =>
      exact .inl (by simp [Work.cells, Work.parts, Node.cells, Node.parts])
    | struct s | boxed s => exact counted (by simp [Work.parts, Node.parts, StructDecl.parts])
    | enum e | flags e => exact counted (by simp [Work.parts, Node.parts, EnumDecl.parts])
    | union u => exact counted (by simp [Work.parts, Node.parts, UnionDecl.parts])
    | object o =>
      refine counted ?_
      simp only [Work.parts, Node.parts, ObjectDecl.parts]
      cases o.parent <;> simp
    | interface i => exact counted (by simp [Work.parts, Node.parts, InterfaceDecl.parts])
    | field | property | signal | vfunc | param | value | type => exact .inr ⟨_, rfl⟩
  | type t =>
    cases t with
    | scalar | interface => exact .inr ⟨_, rfl⟩
    | array | error => exact .inl (by simp [Work.cells, Work.parts, Ty.bodyParts])
    | list | slist | hash =>
      exact .inl (by simp [Work.cells, Work.parts, Ty.bodyParts, Ty.bodyParts.paramParts, Ty.cells,
        paramTypeCells])
  | signature s => exact counted (by simp [Work.parts, Signature.cells])
  | constant c => exact .inl (by simp [Work.parts])

theorem EnumDecl.exact_parts (e : EnumDecl) (kind : EntryKind) : ∀ p ∈ e.parts kind, p.Exact := by
  simp only [parts, List.forall_mem_cons, List.not_mem_nil, false_implies, implies_true, and_true]
  exact ⟨Part.exact_single (.of_fixed rfl), Part.exact_map (ValueDecl.takes e.name)⟩

theorem StructDecl.exact_parts (s : StructDecl) (kind : EntryKind) :
    ∀ p ∈ s.parts kind, p.Exact := by
  simp only [parts, List.forall_mem_cons, List.not_mem_nil, false_implies, implies_true, and_true]
  exact ⟨Part.exact_single (.of_fixed rfl), Part.exact_map FieldDecl.takes,
    Part.exact_map fun f => f.takes _⟩

theorem UnionDecl.exact_parts (u : UnionDecl) : ∀ p ∈ u.parts, p.Exact := by
  simp only [parts, List.forall_mem_cons, List.not_mem_nil, false_implies, implies_true, and_true]
  refine ⟨Part.exact_single ?_, Part.exact_map FieldDecl.takes,
    Part.exact_map fun f => f.takes _, Part.exact_map ConstantDecl.takes⟩
  unfold discriminatorCells
  cases u.discriminator <;>
    exact .of_width (by simp [headCells, Cell.isFixed, Cell.count, Cell.flags16])
      (by simp [headCells, Cell.width, Cell.count, Cell.flags16]; rfl)

theorem ObjectDecl.exact_parts (o : ObjectDecl) : ∀ p ∈ o.parts, p.Exact := by
  simp only [parts, List.forall_mem_cons, List.not_mem_nil, false_implies, implies_true, and_true]
  refine ⟨Part.exact_single ?_, Part.exact_free _, Part.exact_map FieldDecl.takes,
    Part.exact_map PropertyDecl.takes, Part.exact_map fun f => f.takes _,
    Part.exact_map fun s => s.takes _, Part.exact_map fun v => v.takes _,
    Part.exact_map ConstantDecl.takes⟩
  cases o.parent <;>
    exact .of_width (by simp [headCells, Cell.isFixed, Cell.count, Cell.flags16])
      (by simp [headCells, Cell.width, Cell.count, Cell.flags16]; rfl)

theorem InterfaceDecl.exact_parts (i : InterfaceDecl) : ∀ p ∈ i.parts, p.Exact := by
  simp only [parts, List.forall_mem_cons, List.not_mem_nil, false_implies, implies_true, and_true]
  exact ⟨Part.exact_single (.of_fixed rfl), Part.exact_free _, Part.exact_map PropertyDecl.takes,
    Part.exact_map fun f => f.takes _, Part.exact_map fun s => s.takes _,
    Part.exact_map fun v => v.takes _, Part.exact_map ConstantDecl.takes⟩

theorem Signature.takes_row (s : Signature) :
    Takes (s.resultCells ++ [.count s.params, .word32 0]) (Row.width SignatureRow) := by
  unfold resultCells
  cases s.result <;> exact .of_fixed rfl

/-- All rows of a body have their widths. -/
theorem Work.exact_of_mem_parts (work : Work) : ∀ p ∈ work.parts, p.Exact := by
  have single : ∀ {α : Type} [Row α] {row : List Cell}, Takes row (Row.width α) →
      ∀ p ∈ [Part.of α [row]], p.Exact := fun h =>
    List.forall_mem_singleton.2 (Part.exact_single h)
  have params : ∀ (tag : TypeTag) (pointer : Bool) (types : List Ty),
      ∀ p ∈ Ty.bodyParts.paramParts tag pointer types, p.Exact := by
    intro tag pointer types
    simp only [Ty.bodyParts.paramParts, List.forall_mem_cons, List.not_mem_nil, false_implies,
      implies_true, and_true]
    exact ⟨Part.exact_single (.of_fixed rfl), Part.exact_free _⟩
  cases work with
  | entry node =>
    cases node with
    | function f => exact single (f.takes _)
    | callback c => exact single c.takes
    | errorDomain e => exact single (.of_fixed rfl)
    | constant c => exact single c.takes
    | struct s | boxed s => exact s.exact_parts _
    | enum e | flags e => exact e.exact_parts _
    | union u => exact u.exact_parts
    | object o => exact o.exact_parts
    | interface i => exact i.exact_parts
    | field | property | signal | vfunc | param | value | type => exact List.forall_mem_nil _
  | type t =>
    cases t with
    | scalar | interface => exact List.forall_mem_nil _
    | array => exact single (.of_fixed rfl)
    | list | slist | hash => exact params _ _ _
    | error => exact List.forall_mem_singleton.2 (Part.exact_free _)
  | signature s =>
    simp only [Work.parts, List.forall_mem_cons, List.not_mem_nil, false_implies, implies_true,
      and_true]
    exact ⟨Part.exact_single s.takes_row, Part.exact_map ParamDecl.takes⟩
  | constant c => exact List.forall_mem_singleton.2 (Part.exact_free _)

/-! ### Error types -/

theorem Section.append_append (s : Section) (bs bs' : List UInt8) :
    (s.append bs).append bs' = s.append (bs ++ bs') := by
  simp [append, ← Array.toList_inj]

/-- The row of an error type. -/
def errorTypeRow (flags : UInt8) (count : Nat) : List UInt8 :=
  TypeTag.error.code :: flags :: (leBytes 2 count ++ leBytes 4 0)

/-- An error type is a row of its width, followed by as many slots as the row says and by filler. -/
theorem body_errorType {flags : UInt8} {names : List String} {d d' : Draft}
    (h : (cell (.errorType flags names)).Yields d () d') : ∃ refs : List DirRef,
      (errorTypeRow flags refs.length).length = Row.width ErrorTypeRow ∧
      d'.body = ((d.body.append (errorTypeRow flags refs.length)).append
        (refs.flatMap fun ref => leBytes 2 ref.raw.toNat)).align := by
  obtain ⟨refs, d₁, hrefs, hput⟩ := yields_bind.1 h
  have hbody := ((within_domains names).yields hrefs).body
  refine ⟨refs, rfl, ?_⟩
  split at hput
  · exact absurd hput not_yields_throw
  · obtain ⟨_, d₂, happend, halign⟩ := yields_bind.1 hput
    obtain rfl := yields_onBody.1 happend
    obtain rfl := yields_onBody.1 halign
    rw [Section.append_append, ← hbody]
    rfl

/-- All rows of a body have their widths: those of its parts, and that of an error type. -/
structure Work.RowsExact (work : Work) : Prop where
  cells : work.cells = work.parts.flatMap Part.cells ∨ ∃ e, work.cells = [.reject e]
  parts : ∀ p ∈ work.parts, p.Exact
  errorType : ∀ flags names, .errorType flags names ∈ work.cells → ∀ d d' : Draft,
    (cell (.errorType flags names)).Yields d () d' → ∃ refs : List DirRef,
      (errorTypeRow flags refs.length).length = Row.width ErrorTypeRow ∧
      d'.body = ((d.body.append (errorTypeRow flags refs.length)).append
        (refs.flatMap fun ref => leBytes 2 ref.raw.toNat)).align

theorem Work.rowsExact (work : Work) : work.RowsExact :=
  ⟨work.cells_eq_parts, work.exact_of_mem_parts, fun _ _ _ _ _ => body_errorType⟩

end Typelib
