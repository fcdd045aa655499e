import Typelib.Proofs.Acceptance.Spec
import Typelib.Proofs.Image.Place

/-!
# Where things stand in a file

While a file is built, positions are counted from the start of the pool or of the bodies, and some
are kept in 32 bits. Here each thing has a place in the file that is a number without bound. A file
is exact if its words hold these numbers, with no part of them cut off.

* `Draft.stringPlace`, `Draft.bodyPlace`, `Draft.HasSlot`: the places of strings, bodies and entries;
* `Cell.Shows`: what a cell refers to is what its words lead to;
* `Draft.Exact`: all words of a file hold what they should.
-/

namespace Typelib

namespace Image

/-- A number stands in a word of a file, and no part of it is cut off. -/
structure Stores (img : Image) (pos width n : Nat) : Prop where
  fits : n < byteSpan width
  bytes : img.At pos (leBytes width n)

/-- Between two places of a file there is filler, of three zero bytes at most. -/
structure Gap (img : Image) (start stop : Nat) : Prop where
  le : start ≤ stop
  short : stop ≤ start + 3
  bytes : img.At start (zeros start stop)

end Image

/-! ### Places -/

namespace Draft

variable (d : Draft)

/-- The place of a string in the file, if these are the strings of the pool in their order. -/
def stringPlace (strings : List String) (s : String) : Nat :=
  d.placement.strings + StringPool.position strings s

/-- The place of a body in the file. -/
def bodyPlace (id : BodyId) : Nat := d.placement.bodies + (d.body.startOf? id).getD 0

/-- The directory slot at a position is that of the entry that a name stands for. -/
def HasSlot (name : String) (i : Nat) : Prop :=
  match d.symbols.meaning name with
  | .entry symbol =>
    ∃ entryName, d.symbols.localNames[i]? = some entryName ∧
      d.symbols.lookup entryName = some symbol
  | .external ns symbol =>
    ∃ offset nsOffset, d.symbols.slots[i]? = some ⟨.invalid, offset, .foreign nsOffset⟩ ∧
      d.symbols.pool.get? symbol = some offset ∧ d.symbols.pool.get? ns = some nsOffset

end Draft

namespace Cell

/-- The place behind a cell. -/
def next (d : Draft) (pos : Nat) : Cell → Nat
  | byte _ => pos + 1
  | word16 _ | slot _ => pos + 2
  | word32 _ | Cell.name _ | optName _ | signature _ | value _ => pos + 4
  | typeRef _ | type _ => pos + 8
  | errorType _ domains => alignUp (pos + 8 + (d.domainRefs domains).length * 2)
  | raw bytes => pos + bytes.length
  | align => alignUp pos
  | reject _ => pos

/-- The place behind cells that stand one after another. -/
def stop (d : Draft) (pos : Nat) (cs : List Cell) : Nat := cs.foldl (next d) pos

end Cell

/-! ### References -/

section

variable (d : Draft) (works : List Work) (strings : List String) (img : Image)

/-- The slot of a name, as a reference that is its position plus one. -/
def Image.StoresSlot (pos : Nat) (name : String) : Prop :=
  ∃ i, d.HasSlot name i ∧ img.Stores pos 2 (i + 1)

/-- The place of a string. -/
def Image.StoresString (pos : Nat) (s : String) : Prop :=
  s ∈ strings ∧ img.Stores pos 4 (d.stringPlace strings s)

/-- The place of a body that was promised to something. -/
def Image.StoresBody (pos : Nat) (p : Work → Prop) : Prop :=
  ∃ id work, works[id.toNat]? = some work ∧ p work ∧ img.Stores pos 4 (d.bodyPlace id)

/-- The two references of a type: its slot if it is an interface, and its body if it is complex, which
is that of a type of the same shape. -/
def Image.StoresType (pos : Nat) : Ty → Prop
  | .scalar .. => img.Stores (pos + 2) 2 0 ∧ img.Stores (pos + 4) 4 0
  | .interface name _ => img.StoresSlot d (pos + 2) name ∧ img.Stores (pos + 4) 4 0
  | t => img.Stores (pos + 2) 2 0 ∧ img.StoresBody d works (pos + 4) fun work =>
      ∃ t', work = .type t' ∧ t'.shape d.symbols.slotOf = t.shape d.symbols.slotOf

/-- The words of a cell at a place hold what the cell refers to. -/
def Cell.Shows (pos : Nat) : Cell → Prop
  | .byte n => img.At pos [n]
  | .word16 n => img.Stores pos 2 n.toNat
  | .word32 n => img.Stores pos 4 n.toNat
  | .name s => img.StoresString d strings pos s
  | .optName (some s) => img.StoresString d strings pos s
  | .optName none => img.Stores pos 4 0
  | .slot s => img.StoresSlot d pos s
  | .typeRef ref => ref.interface = 0 ∧ ref.offset = 0 ∧ img.At pos (TypeRef.record.encode ref)
  | .type t => img.StoresType d works pos t
  | .signature s => img.StoresBody d works pos (· = .signature s)
  | .value c => img.StoresBody d works pos (· = .constant c)
  | .errorType _ domains =>
    let count := (d.domainRefs domains).length
    img.Stores (pos + 2) 2 count ∧
      (∀ k < count, ∃ s ∈ domains, img.StoresSlot d (pos + 8 + k * 2) s) ∧
      img.Gap (pos + 8 + count * 2) (alignUp (pos + 8 + count * 2))
  | .raw bytes => img.At pos bytes
  | .align => img.Gap pos (alignUp pos)
  | .reject _ => False

/-- Cells stand one after another from a place on. -/
def Shown : Nat → List Cell → Prop
  | _, [] => True
  | pos, c :: cs => c.Shows d works strings img pos ∧ Shown (c.next d pos) cs

/-- A directory entry holds the places of the name and the body of a local entry, or those of the
symbol and the namespace of another one. -/
def Draft.EntryShows (nodes : List Node) (i : Nat) (e : DirEntry) : Prop :=
  match nodes[i]? with
  | some node => e.isLocal = true ∧ works[i]? = some (.entry node) ∧ node.name ∈ strings ∧
      e.name.toNat = d.stringPlace strings node.name ∧ e.offset.toNat = d.bodyPlace (.ofNat i)
  | none => e.isLocal = false ∧ ∃ ns ∈ strings, ∃ symbol ∈ strings,
      e.name.toNat = d.stringPlace strings symbol ∧ e.offset.toNat = d.stringPlace strings ns

end

/-! ### Counts -/

/-- The counts in the row that a body begins with. -/
def Work.counts : Work → List Nat
  | entry node => node.memberCounts.map Prod.snd
  | type t => if t.hasParams then [t.inner.length] else []
  | signature s => [s.params.length]
  | constant _ => []

/-- The place of the first count in that row. -/
def Work.countsOffset : Work → Nat
  | entry (.object _) => 18
  | entry _ => 16
  | type _ => 2
  | signature _ => 10
  | constant _ => 0

/-! ### Files -/

/-- All words of a file hold the numbers that they should, as large as they are: places of strings
and bodies, positions of slots, counts and lengths. -/
structure Draft.Exact (d : Draft) (nodes : List Node) (sharedLibrary : Option String)
    (works : List Work) (strings : List String) (img : Image) : Prop where
  /-- Each work has an identity of its own. -/
  few : works.length < UInt32.size
  pool : d.symbols.pool.Lists strings
  entryCount : img.header.entryCount.toNat = d.symbols.slots.size
  localCount : img.header.localCount.toNat = nodes.length
  directory : img.header.directory.toNat = Header.width
  size : img.header.size.toNat = img.bytes.size
  namespaceName : d.symbols.namespaceName ∈ strings ∧
    img.header.namespaceName.toNat = d.stringPlace strings d.symbols.namespaceName
  sharedLibrary : match sharedLibrary with
    | some s => s ∈ strings ∧ img.header.sharedLibrary.toNat = d.stringPlace strings s
    | none => img.header.sharedLibrary = 0
  entry : ∀ i < d.symbols.slots.size, ∃ e,
    img.At (Header.width + i * Row.width DirEntry) (DirEntry.record.encode e) ∧
      d.EntryShows works strings nodes i e
  string : ∀ s ∈ strings, img.At (d.stringPlace strings s) (nulTerminated s)
  body : ∀ (id : BodyId) (work : Work), works[id.toNat]? = some work →
    Shown d works strings img (d.bodyPlace id) work.cells
  count : ∀ (id : BodyId) (work : Work), works[id.toNat]? = some work → ∀ (k n : Nat),
    work.counts[k]? = some n → img.Stores (d.bodyPlace id + work.countsOffset + k * 2) 2 n
  /-- The row of a constant holds the length and the place of its value. -/
  constant : ∀ (id : BodyId) (node : Node), works[id.toNat]? = some (.entry node) →
    ∀ c ∈ node.constants, ∃ front back bytes, node.cells = front ++ c.cells ++ back ∧
      c.encode = .ok bytes ∧
      img.Stores (Cell.stop d (d.bodyPlace id) front + 16) 4 bytes.length ∧
      img.StoresBody d works (Cell.stop d (d.bodyPlace id) front + 20) (· = .constant c)

end Typelib
