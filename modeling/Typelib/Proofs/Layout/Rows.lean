import Typelib.Proofs.Acceptance.Accepted
import Typelib.Proofs.Acceptance.Rows
import Typelib.Proofs.Layout.Cells

/-!
# Numbers in the rows of a body

The row that a body begins with counts the members that follow, and the row of a constant holds the
length of its value. Both are cut down to a word when the row is written, which loses nothing in a
body that became bytes.

* `Work.allBare`: there are no references to types but those that are filled in;
* `Work.counted`, `Shown.count`: the counts of a body;
* `Node.cells_of_constant`, `Shown.constant`: the rows of constants.
-/

namespace Typelib

variable {works : List Work} {d : Draft} {strings : List String} {img : Image} {pos : Nat}

/-! ### References to types -/

namespace Cell

/-- The cell holds no references to types but those that are filled in. -/
def isBare : Cell → Bool
  | typeRef ref => ref.interface == 0 && ref.offset == 0
  | _ => true

theorem bare_of_isBare {c : Cell} (h : c.isBare = true) : c.Bare := by
  rintro ref rfl
  simpa [isBare] using h

theorem all_isBare_given {α : Type} {value : Except BuildError α} {f : α → List Cell}
    (h : ∀ a, (f a).all isBare = true) : (given value f).all isBare = true := by
  cases value with
  | ok a => exact h a
  | error e => rfl

theorem all_isBare_counted {owner : String} {lists : List (String × Nat)} {cs : List Cell}
    (h : cs.all isBare = true) : (counted owner lists cs).all isBare = true := by
  obtain he | ⟨e, he⟩ := counted_cases owner lists cs <;> rw [he]
  · exact h
  · rfl

end Cell

@[simp] theorem FunctionDecl.allBare (f : FunctionDecl) (owner : Owner) :
    (f.cells owner).all Cell.isBare = true := Cell.all_isBare_given fun _ => rfl

@[simp] theorem SignalDecl.allBare (s : SignalDecl) (owner : Owner) :
    (s.cells owner).all Cell.isBare = true := Cell.all_isBare_given fun _ => rfl

@[simp] theorem VFuncDecl.allBare (v : VFuncDecl) (owner : Owner) :
    (v.cells owner).all Cell.isBare = true := Cell.all_isBare_given fun _ => rfl

@[simp] theorem ConstantDecl.allBare (c : ConstantDecl) : c.cells.all Cell.isBare = true :=
  Cell.all_isBare_given fun _ => rfl

@[simp] theorem FieldDecl.allBare (f : FieldDecl) : f.cells.all Cell.isBare = true := rfl

@[simp] theorem PropertyDecl.allBare (p : PropertyDecl) : p.cells.all Cell.isBare = true := rfl

@[simp] theorem ParamDecl.allBare (p : ParamDecl) : p.cells.all Cell.isBare = true := rfl

@[simp] theorem ValueDecl.allBare (v : ValueDecl) (owner : String) :
    (v.cells owner).all Cell.isBare = true := by
  unfold ValueDecl.cells
  simp only
  split_ifs <;> rfl

@[simp] theorem allBare_slotCells (names : List String) :
    (slotCells names).all Cell.isBare = true := by
  simp [slotCells, Cell.isBare]

@[simp] theorem allBare_headCells (kind : EntryKind) (name : String) (deprecated : Bool)
    (gtypeName gtypeInit : Option String) (discriminated : Bool) :
    (headCells kind name deprecated gtypeName gtypeInit discriminated).all Cell.isBare = true := rfl

theorem Work.allBare (work : Work) : work.cells.all Cell.isBare = true := by
  cases work with
  | entry node =>
    cases node with
    | function f => exact f.allBare _
    | constant c => exact c.allBare
    | callback | errorDomain => rfl
    | struct | boxed => exact Cell.all_isBare_counted (by simp [Cell.isBare, Cell.count])
    | enum | flags => exact Cell.all_isBare_counted (by simp [Cell.isBare, Cell.count])
    | union u =>
      have hdiscriminator : u.discriminatorCells.all Cell.isBare = true := by
        unfold UnionDecl.discriminatorCells
        cases u.discriminator <;> rfl
      exact Cell.all_isBare_counted (by simp [Cell.isBare, Cell.count, hdiscriminator])
    | object o =>
      refine Cell.all_isBare_counted ?_
      cases o.parent <;> simp [Cell.isBare, Cell.count]
    | interface i => exact Cell.all_isBare_counted (by simp [Cell.isBare, Cell.count])
    | _ => rfl
  | type t =>
    cases t with
    | _ => rfl
  | signature s =>
    refine Cell.all_isBare_counted ?_
    unfold Signature.cells Signature.resultCells
    cases s.result <;> simp [Cell.isBare, Cell.count, Cell.flags16, TypeRef.simple]
  | constant c => exact Cell.all_isBare_given fun _ => rfl

theorem Work.bare (work : Work) : ∀ c ∈ work.cells, c.Bare := fun c hc =>
  Cell.bare_of_isBare (List.all_eq_true.1 work.allBare c hc)

/-! ### Counts -/

/-- Counts stand one after another behind what is in front of them. -/
theorem Shown.count {front cs : List Cell} {ns : List Nat} {offset : Nat}
    (h : Shown d works strings img pos cs) (hcs : front ++ ns.map (.word16 <| .ofNat ·) <+: cs)
    (hfront : Cell.stop d pos front = pos + offset) (hmax : ∀ n ∈ ns, n ≤ 65535) {k n : Nat}
    (hk : ns[k]? = some n) : img.Stores (pos + offset + k * 2) 2 n := by
  obtain ⟨back, rfl⟩ := hcs
  rw [shown_append, shown_append, hfront] at h
  obtain ⟨⟨-, h⟩, -⟩ := h
  clear hfront
  induction ns generalizing offset k with
  | nil => cases hk
  | cons m ns ih =>
    rw [List.forall_mem_cons] at hmax
    obtain ⟨hm, hrest⟩ := h
    cases k with
    | zero =>
      obtain rfl : m = n := Option.some.inj hk
      have hword : (UInt16.ofNat m).toNat = m :=
        UInt16.toNat_ofNat_of_lt' (Nat.lt_succ_of_le hmax.1)
      rw [Cell.Shows, hword] at hm
      rwa [Nat.zero_mul]
    | succ k =>
      have hplace : pos + (offset + 2) + k * 2 = pos + offset + (k + 1) * 2 := by omega
      exact hplace ▸ ih hmax.2 hk hrest

namespace Work

/-- The cells in front of the counts of a body. -/
def front : Work → List Cell
  | entry (.struct s) => headCells .struct s.name s.deprecated s.gtypeName s.gtypeInit
  | entry (.boxed s) => headCells .boxed s.name s.deprecated s.gtypeName s.gtypeInit
  | entry (.enum e) => headCells .enum e.name e.deprecated e.gtypeName e.gtypeInit
  | entry (.flags e) => headCells .flags e.name e.deprecated e.gtypeName e.gtypeInit
  | entry (.union u) =>
    headCells .union u.name u.deprecated u.gtypeName u.gtypeInit u.discriminator.isSome
  | entry (.object o) =>
    headCells .object o.name o.deprecated o.gtypeName o.gtypeInit ++
      [match o.parent with
        | some parent => .slot parent
        | none => .word16 DirRef.none.raw]
  | entry (.interface i) => headCells .interface i.name i.deprecated i.gtypeName i.gtypeInit
  | type t => [.byte t.tag.code, .flags8 [t.pointer]]
  | signature s => s.resultCells
  | _ => []

/-- Behind the front of a body stand its counts, none of which is too large. -/
structure Counted (work : Work) : Prop where
  le : ∀ n ∈ work.counts, n ≤ 65535
  cells : work.front ++ work.counts.map (.word16 <| .ofNat ·) <+: work.cells
  stop : ∀ (d : Draft) (pos : Nat), Cell.stop d pos work.front = pos + work.countsOffset

theorem counted_of_clean {work : Work} {owner : String} {lists : List (String × Nat)}
    {cs : List Cell} (h : Clean work.cells) (hw : work.cells = Cell.counted owner lists cs)
    (hn : work.counts = lists.map Prod.snd)
    (hcs : work.front ++ work.counts.map (.word16 <| .ofNat ·) <+: cs)
    (hstop : ∀ (d : Draft) (pos : Nat), Cell.stop d pos work.front = pos + work.countsOffset) :
    work.Counted := by
  rw [hw] at h
  obtain ⟨hmax, heq, -⟩ := h.counted
  refine ⟨hn ▸ List.forall_mem_map.2 hmax, ?_, hstop⟩
  rw [hw, heq]
  exact hcs

/-- A body that refuses nothing counts its members. -/
theorem counted {work : Work} (h : Clean work.cells) (hne : work.counts ≠ []) :
    work.Counted := by
  cases work with
  | entry node =>
    cases node with
    | struct | boxed | enum | flags | union | interface =>
      exact counted_of_clean h rfl rfl
        (by simp [front, counts, Node.memberCounts, Cell.count]) fun _ _ => rfl
    | object o =>
      refine counted_of_clean h rfl rfl ?_ fun _ _ => ?_
      · simp only [front]
        cases o.parent <;> simp [counts, Node.memberCounts, Cell.count]
      · simp only [front]
        cases o.parent <;> rfl
    | _ => exact absurd rfl hne
  | type t =>
    by_cases hp : t.hasParams = true
    · refine ⟨?_, ?_, fun _ _ => rfl⟩
      · simp only [counts, if_pos hp, List.forall_mem_singleton]
        cases t <;> simp [Ty.inner]
      · simp [front, counts, if_pos hp, cells, Ty.cells_of_hasParams hp, paramTypeCells, Cell.count]
    · exact absurd (if_neg hp) hne
  | signature s =>
    refine counted_of_clean h rfl rfl (by simp [front, counts, Signature.cells, Cell.count])
      fun _ _ => ?_
    simp only [front, Signature.resultCells]
    cases s.result <;> rfl
  | constant c => exact absurd rfl hne

end Work

/-! ### Constants -/

/-- The row of a constant holds the length and the place of its value. -/
theorem Shown.constant {c : ConstantDecl} {bytes : List UInt8}
    (h : Shown d works strings img pos c.cells) (hb : c.encode = .ok bytes)
    (hlen : bytes.length ≤ maxWord32) :
    img.Stores (pos + 16) 4 bytes.length ∧
      img.StoresBody d works (pos + 20) (· = .constant c) := by
  have hword : (UInt32.ofNat bytes.length).toNat = bytes.length :=
    UInt32.toNat_ofNat_of_lt' (Nat.lt_succ_of_le hlen)
  simp only [ConstantDecl.cells, Cell.given, hb] at h
  obtain ⟨-, -, -, -, hsize, hvalue, -⟩ := h
  rw [Cell.Shows, hword] at hsize
  exact ⟨hsize, hvalue⟩

/-- The row of each constant of a node stands among its cells. -/
theorem Node.cells_of_constant {node : Node} (h : Clean node.cells) {c : ConstantDecl}
    (hc : c ∈ node.constants) : ∃ front back, node.cells = front ++ c.cells ++ back := by
  have split : ∀ {front : List Cell} {cs : List ConstantDecl}, c ∈ cs →
      ∃ front' back, front ++ cs.flatMap ConstantDecl.cells = front' ++ c.cells ++ back := by
    intro front cs hmem
    obtain ⟨before, after, rfl⟩ := List.append_of_mem hmem
    exact ⟨front ++ before.flatMap ConstantDecl.cells, after.flatMap ConstantDecl.cells, by simp⟩
  cases node with
  | constant c' =>
    rw [List.mem_singleton.1 hc]
    exact ⟨[], [], by simp [cells]⟩
  | union u =>
    have hcells : (Node.union u).cells = _ := h.counted.2.1
    exact hcells ▸ split hc
  | object o =>
    have hcells : (Node.object o).cells = _ := h.counted.2.1
    exact hcells ▸ split hc
  | interface i =>
    have hcells : (Node.interface i).cells = _ := h.counted.2.1
    exact hcells ▸ split hc
  | _ => cases hc

end Typelib
