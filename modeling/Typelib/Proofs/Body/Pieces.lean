import Mathlib.Algebra.GroupWithZero.Nat
import Typelib.Build.Assembly

/-!
# Bodies in pieces

Bodies are bytes with gaps, and each gap is recorded with what belongs there. So they can be
thought of as pieces, some of which are filled in when the file is put together.

* `Section.Made`: the pieces that bodies are made of;
* `Section.Made.link`: linking fills each piece in, and nothing else.
-/

namespace Typelib

/-- A part of the bodies. -/
inductive Piece
  | bytes (bs : List UInt8)
  /-- Four bytes to be filled in. -/
  | reference (target : Target)

namespace Piece

def width : Piece → Nat
  | bytes bs => bs.length
  | reference _ => 4

/-- The bytes of a piece before it is filled in. -/
def blank : Piece → List UInt8
  | bytes bs => bs
  | reference _ => leBytes 4 0

/-- The bytes of a piece once the offsets of targets are known. -/
def fill (offset : Target → UInt32) : Piece → List UInt8
  | bytes bs => bs
  | reference target => leBytes 4 (offset target).toNat

theorem length_blank (p : Piece) : p.blank.length = p.width := by cases p <;> simp [blank, width]

theorem length_fill (offset : Target → UInt32) (p : Piece) : (p.fill offset).length = p.width := by
  cases p <;> simp [fill, width]

/-- Number of bytes of pieces. -/
def size (ps : List Piece) : Nat := (ps.map width).sum

theorem length_flatMap_blank (ps : List Piece) : (ps.flatMap blank).length = size ps := by
  simp only [List.length_flatMap, size, length_blank]

theorem length_flatMap_fill (offset : Target → UInt32) (ps : List Piece) :
    (ps.flatMap (fill offset)).length = size ps := by
  simp only [List.length_flatMap, size, length_fill]

/-- The gaps of pieces that begin at a position. -/
def relocs : Nat → List Piece → List Reloc
  | _, [] => []
  | pos, bytes bs :: ps => relocs (pos + bs.length) ps
  | pos, reference target :: ps => ⟨pos, target⟩ :: relocs (pos + 4) ps

theorem relocs_append (ps qs : List Piece) (pos : Nat) :
    relocs pos (ps ++ qs) = relocs pos ps ++ relocs (pos + size ps) qs := by
  induction ps generalizing pos with
  | nil => simp [relocs, size]
  | cons p ps ih =>
    have hsize : pos + size (p :: ps) = pos + p.width + size ps := by
      simp only [size, List.map_cons, List.sum_cons, Nat.add_assoc]
    cases p <;> simp only [List.cons_append, relocs, ih, hsize] <;> rfl

end Piece

namespace Section

/-- Writes a piece. -/
def put (s : Section) : Piece → Section
  | .bytes bs => s.append bs
  | .reference target => s.reference target

/-- Writes pieces one after another. -/
def puts (s : Section) (ps : List Piece) : Section := ps.foldl put s

theorem puts_append (s : Section) (ps qs : List Piece) : s.puts (ps ++ qs) = (s.puts ps).puts qs :=
  List.foldl_append

theorem starts_puts (s : Section) (ps : List Piece) : (s.puts ps).starts = s.starts := by
  induction ps generalizing s with
  | nil => rfl
  | cons p ps ih => cases p <;> exact ih _

theorem size_append (s : Section) (bs : List UInt8) : (s.append bs).size = s.size + bs.length := by
  simp [append, size, ← Array.length_toList]

theorem size_reference (s : Section) (target : Target) : (s.reference target).size = s.size + 4 := by
  simp [reference, size, ← Array.length_toList]

theorem size_typeRef (s : Section) (ref : TypeRef) (body : Option BodyId) :
    (s.typeRef ref body).size = s.size + 8 := by
  have hlen : (TypeRef.record.encode ref).length = 8 := TypeRef.record_lawful.length_encode ref
  cases body <;> simp [typeRef, append, size, ← Array.length_toList, hlen]

theorem size_align (s : Section) : s.align.size = alignUp s.size := by
  have hle := le_alignUp s.size
  rw [align, size_append, List.length_replicate]
  omega

theorem size_puts (s : Section) (ps : List Piece) : (s.puts ps).size = s.size + Piece.size ps := by
  induction ps generalizing s with
  | nil => rfl
  | cons p ps ih =>
    have hput : (s.put p).size = s.size + p.width := by
      cases p with
      | bytes bs => exact size_append s bs
      | reference target => exact size_reference s target
    have hsum : Piece.size (p :: ps) = p.width + Piece.size ps := by simp [Piece.size]
    rw [hsum, ← Nat.add_assoc, ← hput]
    exact ih (s.put p)

/-- The bodies are made of pieces. -/
structure Made (s : Section) (ps : List Piece) : Prop where
  bytes : s.bytes.toList = ps.flatMap Piece.blank
  relocs : s.relocs.toList = Piece.relocs 0 ps

variable {s : Section} {ps : List Piece}

theorem made_empty : ({} : Section).Made [] := ⟨rfl, rfl⟩

theorem Made.size (h : s.Made ps) : s.size = Piece.size ps := by
  rw [Section.size, ← Array.length_toList, h.bytes, Piece.length_flatMap_blank]

theorem Made.put (h : s.Made ps) (p : Piece) : (s.put p).Made (ps ++ [p]) := by
  constructor
  · cases p <;> simp [Section.put, append, reference, Piece.blank, h.bytes]
  · rw [Piece.relocs_append, ← h.relocs, Nat.zero_add, ← h.size]
    cases p <;> simp [Section.put, append, reference, Piece.relocs]

theorem Made.puts (h : s.Made ps) (qs : List Piece) : (s.puts qs).Made (ps ++ qs) := by
  induction qs generalizing s ps with
  | nil => rwa [List.append_nil]
  | cons q qs ih =>
    have := ih (h.put q)
    rwa [List.append_assoc] at this

end Section

/-! ### Linking -/

theorem toList_patch (bs : List UInt8) : ∀ {bytes : Bytes} {before old rest : List UInt8},
    bytes.toList = before ++ (old ++ rest) → old.length = bs.length →
    (patch before.length bs bytes).toList = before ++ (bs ++ rest) := by
  induction bs with
  | nil =>
    intro bytes before old rest h hlen
    rw [patch, h, List.eq_nil_of_length_eq_zero hlen]
  | cons b bs ih =>
    intro bytes before old rest h hlen
    cases old with
    | nil => simp at hlen
    | cons c old =>
      have hset : (bytes.setIfInBounds before.length b).toList =
          (before ++ [b]) ++ (old ++ rest) := by
        rw [Array.toList_setIfInBounds, h]
        simp
      have := ih hset (by simpa using hlen)
      simpa [patch] using this

/-- The offset of a target, or zero where there is none. -/
def Placement.offset (p : Placement) (s : Section) (target : Target) : UInt32 :=
  match p.target s target with
  | .ok offset => offset
  | .error _ => 0

/-- Linking the gaps of pieces fills them in, if each leads somewhere. -/
theorem foldlM_relocs {p : Placement} {s : Section} (ps : List Piece) :
    ∀ {bytes out : Bytes} {before rest : List UInt8},
    bytes.toList = before ++ (ps.flatMap Piece.blank ++ rest) →
    (Piece.relocs before.length ps).foldlM (fun bytes reloc => do
      let offset ← p.target s reloc.target
      .ok (patch reloc.pos (leBytes 4 offset.toNat) bytes)) bytes = .ok out →
    out.toList = before ++ (ps.flatMap (Piece.fill (p.offset s)) ++ rest) := by
  induction ps with
  | nil =>
    intro bytes out before rest h hl
    cases hl
    exact h
  | cons q ps ih =>
    intro bytes out before rest h hl
    cases q with
    | bytes bs =>
      have h' : bytes.toList = (before ++ bs) ++ (ps.flatMap Piece.blank ++ rest) := by
        simpa [Piece.blank] using h
      rw [Piece.relocs, ← List.length_append] at hl
      simpa [Piece.fill] using ih h' hl
    | reference target =>
      rw [Piece.relocs, List.foldlM_cons] at hl
      cases ht : p.target s target with
      | error e =>
        rw [ht] at hl
        cases hl
      | ok offset =>
        have hoffset : p.offset s target = offset := by rw [Placement.offset, ht]
        rw [ht] at hl
        have hgap : bytes.toList =
            before ++ (leBytes 4 0 ++ (ps.flatMap Piece.blank ++ rest)) := by
          simpa [Piece.blank] using h
        -- the gap is filled in, and counts among the bytes in front of the next one
        have hpatch := toList_patch (leBytes 4 offset.toNat) hgap (by simp)
        have h' : (patch before.length (leBytes 4 offset.toNat) bytes).toList =
            (before ++ leBytes 4 offset.toNat) ++ (ps.flatMap Piece.blank ++ rest) := by
          rw [hpatch, List.append_assoc]
        have hlen : before.length + 4 = (before ++ leBytes 4 offset.toNat).length := by simp
        rw [hlen] at hl
        simpa [Piece.fill, hoffset] using ih h' hl

/-- Linking fills each piece in. -/
theorem Section.Made.link {s : Section} {ps : List Piece} (h : s.Made ps) {p : Placement}
    {out : Bytes} (hl : s.link p = .ok out) :
    out.toList = ps.flatMap (Piece.fill (p.offset s)) := by
  rw [Section.link, h.relocs] at hl
  have hbytes : s.bytes.toList = [] ++ (ps.flatMap Piece.blank ++ []) := by simpa using h.bytes
  have := foldlM_relocs ps hbytes hl
  simpa using this

end Typelib
