import Typelib.Proofs.Acceptance.Assembly
import Typelib.Proofs.Layout.Rows
import Typelib.Proofs.Reading.Document

/-!
# No offset and no count is cut off

The file of a draft is exact: its words hold places, positions, counts and lengths as they are. The
offsets of the pool may have lost their upper bits while strings were added, but then the draft is too
large to be put together. When the last identity was handed out, the next one tells that there was
none; then there are too many bodies for their number, and the draft is refused as well.

* `Ledger.charted`: in a draft that can be put together, offsets are places;
* `Ledger.shown`, `Ledger.stores_count`, `Ledger.stores_constant`: what the bodies hold;
* `Finished.exact`: the file of a draft is exact;
* `assemble_exact`: so is the file of every draft that a build reaches, unless it is refused.
-/

namespace Typelib

variable {nodes : List Node} {works : List Work} {d : Draft} {ps : List Piece} {bytes : Bytes}
  {strings : List String} {idss : List (List BodyId)} {ns : String} {sharedLibrary : Option String}
  {options : Options}

/-! ### Offsets -/

theorem Ledger.charted (hl : Ledger works d ps) (h : d.assemble = .ok bytes)
    (hp : d.symbols.pool.Lists strings) : Charted works d strings := by
  have hc := (Draft.assemble_ok hl.made h).1
  refine ⟨hl.accounts, fun s hs => ?_, fun id work hw => ?_⟩
  · obtain ⟨offset, ho⟩ := Option.isSome_iff_exists.1 hs
    obtain ⟨hmem, hposition⟩ := hp.toNat_offset hc.pool ho
    have hoffset := Draft.toNat_stringOffset hc hl.accounts.symbols.pool ho
    rw [hposition] at hoffset
    exact ⟨hmem, hoffset⟩
  · obtain ⟨start, _, hstart, -⟩ :=
      hl.written_of_bodyCount hc.bodyCount (List.getElem?_eq_some_iff.1 hw).1
    rw [Draft.toNat_bodyOffset hc hstart (hl.start_lt id start hstart), Draft.bodyPlace, hstart]
    rfl

/-- The offset of a string in the pool, moved to where the pool stands, is the place of the string. -/
theorem Charted.toNat_string (hch : Charted works d strings) {s : String} {offset : UInt32}
    (ho : d.symbols.pool.get? s = some offset) :
    s ∈ strings ∧ (d.placement.string offset).toNat = d.stringPlace strings s := by
  have hstring := hch.string s (by rw [ho]; rfl)
  rw [Draft.stringOffset, ho] at hstring
  exact hstring

/-! ### Bodies -/

namespace Ledger

variable {id : BodyId} {work : Work}

/-- Each body stands in its place, and what it was promised to became the bytes that stand there. -/
theorem fills_bodyPlace (hl : Ledger works d ps) (h : d.assemble = .ok bytes)
    (hch : Charted works d strings) (hw : works[id.toNat]? = some work) : ∃ bs ids,
      Image.At ⟨bytes, d.header⟩ (d.bodyPlace id) bs ∧
      Fills d works (d.bodyPlace id) work.cells bs ids := by
  obtain ⟨ids, bs, hat, hfills, -⟩ := (hl.assembled h).body id work hw
  rw [hch.body id work hw] at hat hfills
  exact ⟨bs, ids, hat, hfills⟩

theorem shown (hl : Ledger works d ps) (h : d.assemble = .ok bytes)
    (hch : Charted works d strings) (hw : works[id.toNat]? = some work) :
    Shown d works strings ⟨bytes, d.header⟩ (d.bodyPlace id) work.cells := by
  obtain ⟨bs, ids, hat, hfills⟩ := hl.fills_bodyPlace h hch hw
  exact hch.shown work.bare hfills hat

theorem stores_count (hl : Ledger works d ps) (h : d.assemble = .ok bytes)
    (hch : Charted works d strings) (hw : works[id.toNat]? = some work) {k n : Nat}
    (hk : work.counts[k]? = some n) :
    Image.Stores ⟨bytes, d.header⟩ (d.bodyPlace id + work.countsOffset + k * 2) 2 n := by
  obtain ⟨bs, ids, -, hfills⟩ := hl.fills_bodyPlace h hch hw
  have hcounted := Work.counted hfills.clean fun hnil => by simp [hnil] at hk
  exact (hl.shown h hch hw).count hcounted.cells (hcounted.stop d _) hcounted.le hk

/-- A value that stands in a file is not longer than the file. -/
theorem length_le (hl : Ledger works d ps) (h : d.assemble = .ok bytes)
    (hch : Charted works d strings) {c : ConstantDecl} (hw : works[id.toNat]? = some (.constant c))
    {encoded : List UInt8} (hb : c.encode = .ok encoded) : encoded.length ≤ maxWord32 := by
  obtain ⟨bs, ids, hat, hfills⟩ := hl.fills_bodyPlace h hch hw
  simp only [Work.cells, Cell.given, hb] at hfills
  obtain ⟨_, _, _, _, ⟨rfl, -⟩, ⟨rfl, -⟩, rfl, -⟩ := hfills
  have hle := hat.left.le
  have hmax := (hl.assembled h).size
  exact Nat.le_trans (Nat.le_trans (Nat.le_add_left _ _) hle) hmax

theorem stores_constant (hl : Ledger works d ps) (h : d.assemble = .ok bytes)
    (hch : Charted works d strings) {node : Node} (hw : works[id.toNat]? = some (.entry node))
    {c : ConstantDecl} (hc : c ∈ node.constants) :
    ∃ front back encoded, node.cells = front ++ c.cells ++ back ∧ c.encode = .ok encoded ∧
      Image.Stores ⟨bytes, d.header⟩ (Cell.stop d (d.bodyPlace id) front + 16) 4 encoded.length ∧
      Image.StoresBody d works ⟨bytes, d.header⟩ (Cell.stop d (d.bodyPlace id) front + 20)
        (· = .constant c) := by
  obtain ⟨bs, ids, -, hfills⟩ := hl.fills_bodyPlace h hch hw
  have hwell := Node.wellFormed_of_clean hfills.clean
  obtain ⟨encoded, hencode⟩ := hwell.constants c hc
  obtain ⟨front, back, hcells⟩ := Node.cells_of_constant hfills.clean hc
  have hrow := hl.shown h hch hw
  rw [Work.cells, hcells, shown_append, shown_append] at hrow
  -- the value was promised a body, and that one stands in the file as well
  obtain ⟨_, _, _, valueId, hvalue, -⟩ := hfills.exists_of_mem (hwell.constant c hc).2
  exact ⟨front, back, encoded, hcells, hencode,
    hrow.1.2.constant hencode (hl.length_le h hch hvalue hencode)⟩

end Ledger

/-! ### Entries -/

namespace Finished

variable (hf : Finished nodes works d ps idss)
include hf

theorem localCount : d.symbols.localCount = nodes.length := by
  have hnames := congrArg List.length hf.localNames
  rwa [Array.length_toList, List.length_map] at hnames

theorem work {i : Nat} {node : Node} (hi : nodes[i]? = some node) :
    works[i]? = some (.entry node) := by
  have hlt : i < idss.length := by
    rw [← hf.entries.length_eq]
    exact (List.getElem?_eq_some_iff.1 hi).1
  exact (hf.written hi (List.getElem?_eq_getElem hlt)).1

/-- The directory entries hold the places of names, bodies and namespaces. -/
theorem entryShows (hch : Charted works d strings) {i : Nat} {slot : Slot}
    (hi : d.symbols.slots[i]? = some slot) :
    d.EntryShows works strings nodes i (d.dirEntry slot) := by
  unfold Draft.EntryShows
  cases hn : nodes[i]? with
  | some node =>
    obtain ⟨kind, offset, ref, -, -, -, hslot, ho⟩ := hf.slot i node hn
    rw [hi] at hslot
    cases hslot
    have hwork := hf.work hn
    have hname := hch.toNat_string ho
    have hplace := hch.body (.ofNat i) _ ((hf.toNat_id hn).symm ▸ hwork)
    exact ⟨rfl, hwork, hname.1, hname.2, hplace⟩
  | none =>
    have hle : d.symbols.localNames.size ≤ i := by
      rw [← SymbolTable.localCount, hf.localCount]
      exact List.getElem?_eq_none_iff.1 hn
    obtain ⟨ns, symbol, offset, _, hslot, ho, ⟨nsOffset, ht, hns⟩, -⟩ :=
      hch.accounts.symbols.foreignSlot i slot hle hi
    have hsymbol := hch.toNat_string ho
    have hnamespace := hch.toNat_string hns
    rw [hslot, ht]
    exact ⟨rfl, ns, hnamespace.1, symbol, hsymbol.1, hsymbol.2, hnamespace.2⟩

/-! ### Files -/

/-- The file of a draft is exact. -/
theorem exact (ht : d.Titled ns sharedLibrary options) (h : d.assemble = .ok bytes)
    (hp : d.symbols.pool.Lists strings) :
    d.Exact nodes sharedLibrary works strings ⟨bytes, d.header⟩ := by
  have hl := hf.ledger
  have hc := (Draft.assemble_ok hl.made h).1
  have hch := hl.charted h hp
  refine ⟨hl.accounts.length ▸ hl.accounts.few, hp, UInt16.toNat_ofNat_of_lt' hc.slots, ?_, rfl, ?_,
    hch.toNat_string hl.accounts.symbols.namespaceName, ?_, fun i hi => ?_, fun s hs => ?_,
    fun _ _ => hl.shown h hch, fun _ _ hw _ _ => hl.stores_count h hch hw,
    fun _ _ hw _ => hl.stores_constant h hch hw⟩
  · have hle := hl.accounts.symbols.count
    rw [← hf.localCount]
    exact UInt16.toNat_ofNat_of_lt' (Nat.lt_of_le_of_lt hle hc.slots)
  · rw [Draft.size_assemble hl.made h]
    exact UInt32.toNat_ofNat_of_lt' (Nat.lt_succ_of_le hc.total)
  · have hlib := ht.sharedLibrary
    cases sharedLibrary with
    | none =>
      have hnone : d.sharedLibrary = none := Option.map_eq_none_iff.1 hlib
      simp only [Draft.header, hnone]
      rfl
    | some s =>
      obtain ⟨offset, hoffset, ho⟩ := Option.map_eq_some_iff.1 hlib
      simp only [Draft.header, hoffset]
      exact hch.toNat_string ho.symm
  · have hslot := Array.getElem?_eq_getElem hi
    exact ⟨_, (Draft.parts_assemble hl.made h).directory.getElem?_flatMap
      DirEntry.record_lawful.length_encode (Draft.getElem?_directory hslot), hf.entryShows hch hslot⟩
  · obtain ⟨before, after, hsplit, hlength⟩ := StringPool.exists_split hs
    have hat := (Draft.parts_assemble hl.made h).pool
    rw [hp.bytes, hsplit] at hat
    have hplace := hat.right.left
    rwa [hlength] at hplace

end Finished

end Typelib
