import Typelib.Proofs.Layout.Numbers

/-!
# The regions of a file

Header, directory, string pool and bodies follow one another, and the bodies fill their region one
after another. Between any two of them there is nothing but filler.

* `Draft.LaidOut`: the regions of a file, and where the bodies and the strings stand in them;
* `Stacked.tiles`: bodies that were written one after another fill the region of the bodies;
* `compile_layout`: the file of every description is laid out like this.
-/

namespace Typelib

variable {nodes : List Node} {works : List Work} {d : Draft} {ps : List Piece} {bytes : Bytes}
  {strings : List String} {img : Image} {ns : String} {sharedLibrary : Option String}
  {options : Options}

/-! ### Bodies one after another -/

/-- The place behind a body. -/
def Draft.bodyStop (d : Draft) (works : List Work) (id : BodyId) : Nat :=
  Cell.stop d (d.bodyPlace id) ((works[id.toNat]?.map Work.cells).getD [])

/-- Bodies fill a region in a certain order: each begins at a boundary and is not empty, with nothing
but filler in front of it. -/
inductive Tiles (d : Draft) (works : List Work) (img : Image) : Nat → List BodyId → Nat → Prop
  | nil {pos : Nat} : Tiles d works img pos [] pos
  | cons {pos stop : Nat} {id : BodyId} {ids : List BodyId} : img.Gap pos (d.bodyPlace id) →
      d.bodyPlace id % bodyAlign = 0 → d.bodyPlace id < d.bodyStop works id →
      Tiles d works img (d.bodyStop works id) ids stop → Tiles d works img pos (id :: ids) stop

namespace Tiles

variable {pos stop : Nat} {id : BodyId} {ids : List BodyId}

theorem le (h : Tiles d works img pos ids stop) : pos ≤ stop := by
  induction h with
  | nil => exact Nat.le_refl _
  | cons hgap _ hlt _ ih => exact Nat.le_trans hgap.le (Nat.le_trans (Nat.le_of_lt hlt) ih)

/-- One more body at the end. -/
theorem concat (h : Tiles d works img pos ids stop) (hgap : img.Gap stop (d.bodyPlace id))
    (halign : d.bodyPlace id % bodyAlign = 0) (hlt : d.bodyPlace id < d.bodyStop works id) :
    Tiles d works img pos (ids ++ [id]) (d.bodyStop works id) := by
  induction h with
  | nil => exact .cons hgap halign hlt .nil
  | cons hgap' halign' hlt' _ ih => exact .cons hgap' halign' hlt' (ih hgap)

/-- Each body begins at a boundary inside the region and ends inside it. -/
theorem mem (h : Tiles d works img pos ids stop) (hid : id ∈ ids) :
    d.bodyPlace id % bodyAlign = 0 ∧ pos ≤ d.bodyPlace id ∧
      d.bodyPlace id < d.bodyStop works id ∧ d.bodyStop works id ≤ stop := by
  induction h with
  | nil => cases hid
  | cons hgap halign hlt hrest ih =>
    rcases List.mem_cons.1 hid with rfl | hid
    · exact ⟨halign, hgap.le, hlt, hrest.le⟩
    · obtain ⟨halign', hle, hlt', hstop⟩ := ih hid
      exact ⟨halign', Nat.le_trans (Nat.le_trans hgap.le (Nat.le_of_lt hlt)) hle, hlt', hstop⟩

/-- No two bodies overlap. -/
theorem disjoint (h : Tiles d works img pos ids stop) {id' : BodyId} (hid : id ∈ ids)
    (hid' : id' ∈ ids) (hne : id ≠ id') :
    d.bodyStop works id ≤ d.bodyPlace id' ∨ d.bodyStop works id' ≤ d.bodyPlace id := by
  induction h with
  | nil => cases hid
  | cons hgap halign hlt hrest ih =>
    rcases List.mem_cons.1 hid with rfl | hmem <;> rcases List.mem_cons.1 hid' with rfl | hmem'
    · exact absurd rfl hne
    · exact .inl (hrest.mem hmem').2.1
    · exact .inr (hrest.mem hmem).2.1
    · exact ih hmem hmem'

end Tiles

/-- Where a body stands that was written at a boundary. -/
theorem Holds.place {start : Nat} {id : BodyId} {body : List Piece}
    (h : Holds works d start id body) (hs : start % bodyAlign = 0) :
    d.bodyPlace id = d.placement.bodies + start ∧ d.bodyPlace id % bodyAlign = 0 ∧
      d.bodyStop works id = d.bodyPlace id + Piece.size body ∧ 0 < Piece.size body := by
  obtain ⟨work, ids, hwork, hstart, hfill⟩ := h
  have hplace : d.bodyPlace id = d.placement.bodies + start := by
    rw [Draft.bodyPlace, hstart]
    rfl
  have halign : d.bodyPlace id % bodyAlign = 0 := by
    have hbodies : d.placement.bodies % bodyAlign = 0 := alignUp_mod _
    simp only [bodyAlign] at hs hbodies ⊢
    omega
  -- the region begins at a boundary, so the body has the same length as if it began at zero
  have hfills := (hfill works d (List.prefix_refl _) (.refl d)).congr_pos (hs.trans halign.symm)
  have hpos := List.length_pos_of_ne_nil (Work.ne_nil_of_fills hfills)
  have hstop := hfills.stop
  rw [Piece.length_flatMap_fill] at hpos hstop
  refine ⟨hplace, halign, ?_, hpos⟩
  rw [Draft.bodyStop, hwork]
  exact hstop

/-- Filler up to a boundary is a gap wherever the region begins. -/
theorem Image.At.gap_add {base pos : Nat} (h : img.At (base + pos) (padding pos)) :
    img.Gap (base + pos) (base + alignUp pos) := by
  have hle := le_alignUp pos
  have hlt := alignUp_lt pos
  have hzeros : zeros (base + pos) (base + alignUp pos) = padding pos := by
    rw [zeros, padding, Nat.add_sub_add_left]
  simp only [bodyAlign] at hlt
  exact ⟨by omega, by omega, hzeros ▸ h⟩

/-- Bodies that were written one after another fill the region where they stand in the file. -/
theorem Stacked.tiles {order : List BodyId} (h : Stacked works d order ps)
    (hat : img.At d.placement.bodies (ps.flatMap (Piece.fill d.offset))) :
    Tiles d works img d.placement.bodies order (d.placement.bodies + Piece.size ps) := by
  induction h with
  | nil => exact .nil
  | @snoc order ps body id _ hholds ih =>
    rw [List.flatMap_append, List.flatMap_cons] at hat
    have hfiller := hat.right.left
    rw [Piece.length_flatMap_fill] at hfiller
    obtain ⟨hplace, halign, hstop, hpos⟩ := hholds.place (alignUp_mod _)
    have hsize : Piece.size (ps ++ .bytes (padding (Piece.size ps)) :: body) =
        alignUp (Piece.size ps) + Piece.size body := by
      have hpadding := length_padding (Piece.size ps)
      simp only [Piece.size, List.map_append, List.map_cons, List.sum_append, List.sum_cons,
        Piece.width] at hpadding ⊢
      omega
    have hend : d.placement.bodies +
        Piece.size (ps ++ .bytes (padding (Piece.size ps)) :: body) = d.bodyStop works id := by
      rw [hstop, hplace, hsize, Nat.add_assoc]
    rw [hend]
    exact (ih hat.left).concat (hplace ▸ Image.At.gap_add hfiller) halign (by omega)

/-! ### Files -/

/-- The regions of a file follow one another: the header, the directory, the strings one after
another, and the bodies, with filler in front of the bodies and behind them. Each body that was ever
begun stands in the last region, and no two overlap. -/
structure Draft.LaidOut (d : Draft) (works : List Work) (strings : List String) (img : Image) :
    Prop where
  header : img.At 0 (Header.record.encode img.header)
  directory : ∃ entries : List DirEntry, entries.length = img.header.entryCount.toNat ∧
    img.At Header.width (entries.flatMap DirEntry.record.encode)
  directoryStop : d.placement.strings =
    Header.width + img.header.entryCount.toNat * Row.width DirEntry
  pool : img.At d.placement.strings (strings.flatMap nulTerminated)
  poolStop : img.Gap (d.placement.strings + (strings.flatMap nulTerminated).length)
    d.placement.bodies
  bodies : ∃ order : List BodyId, order.Perm (BodyId.range' 0 works.length) ∧
    Tiles d works img d.placement.bodies order (d.placement.bodies + d.body.size)
  bodiesStop : img.Gap (d.placement.bodies + d.body.size) img.bytes.size
  /-- Each string stands inside the pool. -/
  string : ∀ s ∈ strings, d.placement.strings ≤ d.stringPlace strings s ∧
    d.stringPlace strings s + (nulTerminated s).length ≤
      d.placement.strings + (strings.flatMap nulTerminated).length
  begun : ∀ id : BodyId, (d.body.startOf? id).isSome = true ↔ id.toNat < works.length
  /-- Each body begins at a boundary and stands inside the region of the bodies. -/
  body : ∀ id : BodyId, id.toNat < works.length → d.bodyPlace id % bodyAlign = 0 ∧
    d.placement.bodies ≤ d.bodyPlace id ∧ d.bodyPlace id < d.bodyStop works id ∧
    d.bodyStop works id ≤ d.placement.bodies + d.body.size
  disjoint : ∀ id id' : BodyId, id.toNat < works.length → id'.toNat < works.length → id ≠ id' →
    d.bodyStop works id ≤ d.bodyPlace id' ∨ d.bodyStop works id' ≤ d.bodyPlace id

/-- There is filler in front of the bodies and behind them. -/
theorem Draft.gaps (hm : d.body.Made ps) (h : d.assemble = .ok bytes) :
    Image.Gap ⟨bytes, d.header⟩ (d.placement.strings + d.symbols.pool.bytes.size)
      d.placement.bodies ∧
    Image.Gap ⟨bytes, d.header⟩ (d.placement.bodies + d.body.size) bytes.size := by
  have hsize := size_assemble hm h
  have hparts := parts_assemble hm h
  have hbodies : d.placement.bodies =
      alignUp (d.placement.strings + d.symbols.pool.bytes.size) := rfl
  have htotal : d.placement.total = alignUp (d.placement.bodies + d.body.size) := rfl
  have hle := le_alignUp (d.placement.strings + d.symbols.pool.bytes.size)
  have hlt := alignUp_lt (d.placement.strings + d.symbols.pool.bytes.size)
  have hle' := le_alignUp (d.placement.bodies + d.body.size)
  have hlt' := alignUp_lt (d.placement.bodies + d.body.size)
  rw [← hbodies] at hle hlt
  rw [← htotal, ← hsize] at hle' hlt'
  simp only [bodyAlign] at hlt hlt'
  exact ⟨⟨hle, by omega, hparts.front⟩, hle', by omega, hsize ▸ hparts.back⟩

theorem Ledger.laidOut (hl : Ledger works d ps) (h : d.assemble = .ok bytes)
    (hp : d.symbols.pool.Lists strings) : d.LaidOut works strings ⟨bytes, d.header⟩ := by
  have hc := (Draft.assemble_ok hl.made h).1
  have hentries : d.header.entryCount.toNat = d.symbols.slots.size :=
    UInt16.toNat_ofNat_of_lt' hc.slots
  have hpool : (strings.flatMap nulTerminated).length = d.symbols.pool.bytes.size := by
    rw [← hp.bytes, Array.length_toList]
  have hbegun : ∀ id : BodyId, (d.body.startOf? id).isSome = true ↔ id.toNat < works.length := by
    refine fun id => ⟨fun hs => ?_, fun hid => ?_⟩
    · obtain ⟨start, hstart⟩ := Option.isSome_iff_exists.1 hs
      exact hl.lt_of_start hstart
    · obtain ⟨start, _, hstart, -⟩ := hl.written_of_bodyCount hc.bodyCount hid
      rw [hstart]
      rfl
  obtain ⟨order, hstacked, hnodup, hmem⟩ := hl.stacked
  have hparts := Draft.parts_assemble hl.made h
  have htiles := hstacked.tiles hparts.bodies
  rw [← hl.made.size] at htiles
  have horder : ∀ id : BodyId, id ∈ order ↔ id.toNat < works.length := fun id =>
    (hmem id).symm.trans (hbegun id)
  have hgaps := Draft.gaps hl.made h
  refine ⟨hparts.header, ⟨d.directory, ?_, hparts.directory⟩, ?_,
    hp.bytes ▸ hparts.pool, hpool ▸ hgaps.1, ⟨order, ?_, htiles⟩, hgaps.2,
    fun s hs => ?_, hbegun, fun id hid => htiles.mem ((horder id).2 hid),
    fun id id' hid hid' => htiles.disjoint ((horder id).2 hid) ((horder id').2 hid')⟩
  · rw [hentries, Draft.directory, List.length_map, Array.length_toList]
  · rw [hentries]
    rfl
  · have hle : 0 + works.length ≤ UInt32.size := by
      rw [Nat.zero_add, hl.accounts.length]
      exact Nat.le_of_lt hl.accounts.few
    refine (List.perm_ext_iff_of_nodup hnodup (BodyId.nodup_range' hle)).2 fun id => ?_
    rw [horder, BodyId.mem_range' hle, Nat.zero_add]
    exact (and_iff_right (Nat.zero_le _)).symm
  · have hle := hp.position_le hs
    rw [hpool, Draft.stringPlace]
    omega

/-- **Layout of every file.** The file of a description that compiles is loaded. Its header says where
the directory begins, how long the file is and how many entries are local; its regions follow one
another; and whatever refers to a string or a body holds the place where the string begins, or the
body that was promised to it. -/
theorem compile_layout {a : Artifact} (h : compile ns nodes sharedLibrary options = .ok a) :
    let d := Draft.final ns nodes sharedLibrary options
    ∃ img works strings, Image.load a.bytes = .ok img ∧ img.bytes = a.bytes ∧
      img.header.directory = 96 ∧ img.header.size.toNat = a.bytes.size ∧
      a.bytes.size % 4 = 0 ∧ img.header.localCount.toNat = nodes.length ∧
      d.LaidOut works strings img ∧ d.Exact nodes sharedLibrary works strings img := by
  intro d
  obtain ⟨hyields, hbytes, -⟩ := yields_of_compile h
  obtain ⟨ht, works, ps, idss, hf⟩ := Build.finished_assemble hyields hbytes
  have hl := hf.ledger
  obtain ⟨strings, hp⟩ := hl.accounts.symbols.pool
  have hexact := hf.exact ht hbytes hp
  have hsize := Draft.size_assemble hl.made hbytes
  refine ⟨_, works, strings, Draft.load_assemble hl.accounts.symbols hl.made hbytes, rfl, rfl,
    hexact.size, ?_, hexact.localCount, hl.laidOut hbytes hp, hexact⟩
  rw [hsize]
  exact alignUp_mod _

/-- The file of a small description is laid out like this. -/
theorem compile_layout_sample :
    ∃ a, compile "Sample" Sample.nodes (some "libsample.so") {} = .ok a ∧
      ∃ img works strings, Image.load a.bytes = .ok img ∧ img.header.localCount.toNat = 3 ∧
        (Draft.final "Sample" Sample.nodes (some "libsample.so") {}).LaidOut works strings img := by
  obtain ⟨a, ha⟩ := Sample.exists_compile
  obtain ⟨img, works, strings, hload, -, -, -, -, hcount, hlaid, -⟩ := compile_layout ha
  exact ⟨a, ha, img, works, strings, hload, hcount, hlaid⟩

end Typelib
