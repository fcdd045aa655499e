import Typelib.Proofs.Guard.Follows

/-!
# Guarded views do not crash

A walk over the rows of an entry keeps its position in a word. It never gets far: rows that are there
end inside of the file, and the filler behind the slots of an entry reaches at most one position that
no offset reaches, from which on nothing is there.

* `FollowsWalk`: a guarded walk does what a walk does;
* `Image.Accepted.follows_objectView` and so on: so do the guarded views.
-/

namespace Typelib

/-- A guarded walk does what a walk does from each position that a walk may reach, and reaches no
other. -/
def FollowsWalk {α : Type} (w' : GuardedWalk α) (w : Walk α) : Prop :=
  ∀ pos ≤ UInt32.size, Follows (w' pos) (w pos) ∧
    ∀ a stop, w pos = .ok (a, stop) → stop ≤ UInt32.size

namespace FollowsWalk

variable {α β : Type}

theorem pure (a : α) : FollowsWalk (Pure.pure a) (Pure.pure a) :=
  fun pos hpos => ⟨.pure (a, pos), fun _ _ h => by cases h; exact hpos⟩

theorem bind {w' : GuardedWalk α} {w : Walk α} {f' : α → GuardedWalk β} {f : α → Walk β}
    (hw : FollowsWalk w' w) (hf : ∀ a, FollowsWalk (f' a) (f a)) :
    FollowsWalk (w' >>= f') (w >>= f) := by
  intro pos hpos
  obtain ⟨hfollows, hstop⟩ := hw pos hpos
  refine ⟨hfollows.bind fun part h => (hf part.1 part.2 (hstop part.1 part.2 h)).1,
    fun b last h => ?_⟩
  change (w pos >>= fun part => f part.1 part.2) = _ at h
  cases hpart : w pos with
  | error e =>
    rw [hpart] at h
    cases h
  | ok part =>
    rw [hpart] at h
    exact (hf part.1 part.2 (hstop part.1 part.2 hpart)).2 b last h

end FollowsWalk

theorem Walk.toNat_offset_min (pos : Nat) : (Walk.offset pos).toNat = min pos (UInt32.size - 1) := by
  rw [Walk.offset, UInt32.toNat_ofNat_of_lt']
  exact Nat.lt_of_le_of_lt (Nat.min_le_right _ _) (by decide)

namespace Image

variable {img : Image} {α β : Type} {offset : UInt32}

/-- Bytes that something is made of are there. -/
theorem le_of_slice {size : Nat} {f : Bytes → Except ReadError β} {b : β}
    (h : (img.slice offset size >>= f) = .ok b) : offset.toNat + size ≤ img.bytes.size := by
  cases hslice : img.slice offset size with
  | error e =>
    rw [hslice] at h
    cases h
  | ok bytes => exact (Guarded.size_of_slice hslice).2

theorem le_of_row [Row α] {a : α} (h : img.row α offset = .ok a) :
    offset.toNat + Row.width α ≤ img.bytes.size := le_of_slice h

theorem le_of_rows [Row α] {count : UInt16} {as : List α} (h : img.rows α offset count = .ok as) :
    offset.toNat + Row.width α * count.toNat ≤ img.bytes.size := le_of_slice h

theorem le_of_refs {count : UInt16} {rs : List DirRef} (h : img.refs offset count = .ok rs) :
    offset.toNat + count.toNat * 2 ≤ img.bytes.size := le_of_slice h

end Image

namespace Image.Accepted

variable {img : Image} (ha : img.Accepted) {α β : Type}

include ha

/-- What is there at the offset of a position is there at the position, and ends inside. -/
theorem lt_of_offset {pos size : Nat} (hsize : 0 < size)
    (h : (Walk.offset pos).toNat + size ≤ img.bytes.size) : pos + size < UInt32.size := by
  have hlt := ha.size_lt
  rw [Walk.toNat_offset_min] at h
  simp only [UInt32.size] at h hlt ⊢
  omega

theorem follows_walk_rows [Row α] [ConfinedRow α] (count : UInt16) :
    FollowsWalk (GuardedWalk.rows img α count) (Walk.rows img α count) := by
  intro pos hpos
  unfold GuardedWalk.rows Walk.rows
  split
  next => exact ⟨.pure _, fun _ _ h => by cases h; exact hpos⟩
  next hcount =>
    have hpositive : 0 < Row.width α * count.toNat :=
      Nat.mul_pos ConfinedRow.width_pos (Nat.pos_of_ne_zero fun h => hcount (UInt16.toNat_inj.1 h))
    have hin : ∀ as, img.rows α (Walk.offset pos) count = .ok as →
        pos + Row.width α * count.toNat < UInt32.size :=
      fun as h => ha.lt_of_offset hpositive (le_of_rows h)
    refine ⟨(Guarded.follows_rows img _ _).bind fun as h => ?_, fun as stop h => ?_⟩
    · have hlt := hin as h
      simp only [UInt32.size] at hlt
      exact .ok_bind (Guarded.follows_position (by omega))
        (.ok_bind (Guarded.follows_position (by omega)) (.pure _))
    · cases hrows : img.rows α (Walk.offset pos) count with
      | error e =>
        rw [hrows] at h
        cases h
      | ok as =>
        rw [hrows] at h
        cases h
        exact Nat.le_of_lt (hin as hrows)

theorem follows_walk_refs (count : UInt16) :
    FollowsWalk (GuardedWalk.refs img count) (Walk.refs img count) := by
  intro pos hpos
  unfold GuardedWalk.refs Walk.refs
  split
  next => exact ⟨.pure _, fun _ _ h => by cases h; exact hpos⟩
  next hcount =>
    have hpositive : 0 < count.toNat * 2 :=
      Nat.mul_pos (Nat.pos_of_ne_zero fun h => hcount (UInt16.toNat_inj.1 h)) Nat.two_pos
    -- the filler may end where no offset leads, but not further on
    have hin : ∀ rs, img.refs (Walk.offset pos) count = .ok rs →
        pos + count.toNat * 2 < UInt32.size ∧ alignUp (pos + count.toNat * 2) ≤ UInt32.size := by
      intro rs h
      have hlt := ha.lt_of_offset hpositive (le_of_refs h)
      refine ⟨hlt, ?_⟩
      simp only [alignUp, bodyAlign, UInt32.size] at hlt ⊢
      omega
    refine ⟨(Guarded.follows_refs img _ _).bind fun rs h => ?_, fun rs stop h => ?_⟩
    · obtain ⟨hlt, hfill⟩ := hin rs h
      simp only [UInt32.size] at hlt hfill
      exact .ok_bind (Guarded.follows_position (by omega)) <|
        .ok_bind (Guarded.follows_position (by omega)) <|
          .ok_bind (Guarded.follows_position (by omega)) (.pure _)
    · cases hrefs : img.refs (Walk.offset pos) count with
      | error e =>
        rw [hrefs] at h
        cases h
      | ok rs =>
        rw [hrefs] at h
        cases h
        exact (hin rs hrefs).2

theorem follows_view [Row α] [ConfinedRow α] (offset : UInt32) {members' : α → GuardedWalk β}
    {members : α → Walk β} (h : ∀ head, FollowsWalk (members' head) (members head)) :
    Follows (GuardedWalk.view img offset members') (Walk.view img offset members) := by
  unfold GuardedWalk.view Walk.view
  refine (Guarded.follows_row img offset).bind fun head hhead => ?_
  have hle := Nat.le_trans (le_of_row hhead) (Nat.le_of_lt ha.size_lt)
  have hlt := hle
  simp only [UInt32.size] at hlt
  refine .ok_bind (Guarded.follows_position (by omega)) ?_
  exact (h head _ hle).1.bind fun _ _ => .pure _

/-! ### Views -/

variable (offset : UInt32)

theorem follows_signatureView :
    Follows (Guarded.signatureView img offset) (img.signatureView offset) :=
  ha.follows_view offset fun _ => (ha.follows_walk_rows _).bind fun _ => .pure _

theorem follows_enumView : Follows (Guarded.enumView img offset) (img.enumView offset) :=
  ha.follows_view offset fun _ => (ha.follows_walk_rows _).bind fun _ => .pure _

theorem follows_structView : Follows (Guarded.structView img offset) (img.structView offset) :=
  ha.follows_view offset fun _ => (ha.follows_walk_rows _).bind fun _ =>
    (ha.follows_walk_rows _).bind fun _ => .pure _

theorem follows_unionView : Follows (Guarded.unionView img offset) (img.unionView offset) :=
  ha.follows_view offset fun _ => (ha.follows_walk_rows _).bind fun _ =>
    (ha.follows_walk_rows _).bind fun _ => (ha.follows_walk_rows _).bind fun _ => .pure _

theorem follows_objectView : Follows (Guarded.objectView img offset) (img.objectView offset) :=
  ha.follows_view offset fun _ => (ha.follows_walk_refs _).bind fun _ =>
    (ha.follows_walk_rows _).bind fun _ => (ha.follows_walk_rows _).bind fun _ =>
      (ha.follows_walk_rows _).bind fun _ => (ha.follows_walk_rows _).bind fun _ =>
        (ha.follows_walk_rows _).bind fun _ => (ha.follows_walk_rows _).bind fun _ => .pure _

theorem follows_interfaceView :
    Follows (Guarded.interfaceView img offset) (img.interfaceView offset) :=
  ha.follows_view offset fun _ => (ha.follows_walk_refs _).bind fun _ =>
    (ha.follows_walk_rows _).bind fun _ => (ha.follows_walk_rows _).bind fun _ =>
      (ha.follows_walk_rows _).bind fun _ => (ha.follows_walk_rows _).bind fun _ =>
        (ha.follows_walk_rows _).bind fun _ => .pure _

end Image.Accepted

end Typelib
