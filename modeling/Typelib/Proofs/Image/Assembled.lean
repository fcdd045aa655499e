import Typelib.Proofs.Image.Assembly

/-!
# What stands in a file

In the file of a finished build each string and each body stands where the references to it lead,
and no two bodies stand in one place.

* `Draft.Parts`: the parts of a file, one after another;
* `Stands`: a body stands in its place, with what it was promised to;
* `Assembled`: the strings, the bodies and the directory of a file;
* `compile_ok`: a description that compiles becomes such a file.
-/

namespace Typelib

/-- A body stands where its references lead. It holds what it was promised to, and promised further
bodies in turn. -/
def Stands (works : List Work) (d : Draft) (img : Image) (id : BodyId) (work : Work)
    (ids : List BodyId) : Prop :=
  ∃ bs, img.At (d.bodyOffset id).toNat bs ∧
    Fills d works (d.bodyOffset id).toNat work.cells bs ids ∧
    0 < (d.bodyOffset id).toNat ∧ (d.bodyOffset id).toNat % bodyAlign = 0

/-- Strings, bodies and directory of the file of a draft. -/
structure Assembled (works : List Work) (d : Draft) (img : Image) : Prop where
  accounts : Accounts works d
  header : img.header = d.header
  size : img.bytes.size ≤ maxWord32
  string : ∀ s, (d.symbols.pool.get? s).isSome →
    d.stringOffset s ≠ 0 ∧ img.string (d.stringOffset s) = .ok (Text.cut s)
  body : ∀ id work, works[id.toNat]? = some work → ∃ ids, Stands works d img id work ids
  injective : ∀ id id' : BodyId, id.toNat < works.length → id'.toNat < works.length →
    d.bodyOffset id = d.bodyOffset id' → id = id'
  entry : ∀ (i : Nat) (ref : DirRef) (slot : Slot), DirRef.ofIndex? i = some ref →
    d.symbols.slots[i]? = some slot → img.entry? ref = some (d.dirEntry slot)

namespace Draft

variable {d : Draft} {ps : List Piece} {bytes : Bytes}

/-! ### Places of the parts -/

/-- The parts of a file stand one after another, with filler around the bodies. -/
structure Parts (d : Draft) (ps : List Piece) (img : Image) : Prop where
  header : img.At 0 (Header.record.encode d.header)
  directory : img.At Header.width (d.directory.flatMap DirEntry.record.encode)
  pool : img.At d.placement.strings d.symbols.pool.bytes.toList
  front : img.At (d.placement.strings + d.symbols.pool.bytes.size)
    (zeros (d.placement.strings + d.symbols.pool.bytes.size) d.placement.bodies)
  bodies : img.At d.placement.bodies (ps.flatMap (Piece.fill d.offset))
  back : img.At (d.placement.bodies + d.body.size)
    (zeros (d.placement.bodies + d.body.size) d.placement.total)

theorem parts_assemble (hm : d.body.Made ps) (h : d.assemble = .ok bytes) :
    d.Parts ps ⟨bytes, d.header⟩ := by
  have hle : d.placement.strings + d.symbols.pool.bytes.size ≤ d.placement.bodies := le_alignUp _
  have hstrings : d.placement.strings =
      Header.width + d.symbols.slots.size * Row.width DirEntry := rfl
  have hall : Image.At ⟨bytes, d.header⟩ 0 bytes.toList := ⟨[], [], by simp, rfl⟩
  rw [(assemble_ok hm h).2] at hall
  have hdirectory := hall.right
  have hpool := hdirectory.right
  have hfront := hpool.right
  have hbodies := hfront.right
  have hback := hbodies.right
  simp only [length_header, length_directory, Array.length_toList, Nat.zero_add, ← hstrings, zeros,
    List.length_replicate, Nat.add_sub_cancel' hle, Piece.length_flatMap_fill, ← hm.size]
    at hdirectory hpool hfront hbodies hback
  exact ⟨hall.left, hdirectory.left, hpool.left, hfront.left, hbodies.left, hback⟩

/-! ### Offsets -/

theorem toNat_stringOffset (hc : d.Complete) (hs : d.symbols.pool.Sound) {s : String}
    {offset : UInt32} (ho : d.symbols.pool.get? s = some offset) :
    (d.stringOffset s).toNat = d.placement.strings + offset.toNat := by
  obtain ⟨before, after, hb, hlen⟩ := hs.toNat_offset hc.pool ho
  have hle : before.length ≤ d.symbols.pool.bytes.size := by
    rw [← Array.length_toList, hb]
    simp
  have hbodies : d.placement.strings + d.symbols.pool.bytes.size ≤ d.placement.bodies :=
    le_alignUp _
  have htotal : d.placement.bodies + d.body.size ≤ d.placement.total := le_alignUp _
  have hmax := hc.total
  simp only [stringOffset, ho, Option.getD_some]
  refine UInt32.toNat_ofNat_of_lt' (Nat.lt_succ_of_le (Nat.le_trans ?_ hmax))
  omega

theorem toNat_bodyOffset (hc : d.Complete) {id : BodyId} {start : Nat}
    (hs : d.body.startOf? id = some start) (hlt : start < d.body.size) :
    (d.bodyOffset id).toNat = d.placement.bodies + start := by
  have htotal : d.placement.bodies + d.body.size ≤ d.placement.total := le_alignUp _
  have hmax := hc.total
  have hoffset : d.bodyOffset id = .ofNat (d.placement.bodies + start) := by
    simp only [bodyOffset, Draft.offset, Placement.offset, Placement.target, Placement.body, hs]
  rw [hoffset]
  refine UInt32.toNat_ofNat_of_lt' (Nat.lt_succ_of_le (Nat.le_trans ?_ hmax))
  omega

/-- The strings of the pool are read in the file of a draft, whatever its bodies are. -/
theorem string_assemble (hs : d.symbols.pool.Sound) (h : d.assemble = .ok bytes) {img : Image}
    (himg : img.bytes = bytes) {s : String} (hget : (d.symbols.pool.get? s).isSome) :
    d.stringOffset s ≠ 0 ∧ img.string (d.stringOffset s) = .ok (Text.cut s) := by
  obtain ⟨offset, ho⟩ := Option.isSome_iff_exists.1 hget
  obtain ⟨body, -, hbytes⟩ := exists_link_of_assemble h
  have hc := complete_of_assemble h
  have hoffset := toNat_stringOffset hc hs ho
  obtain ⟨before, after, hb, hlen⟩ := hs.toNat_offset hc.pool ho
  have hat : img.At 0 bytes.toList := ⟨[], [], by simp [himg], rfl⟩
  have hstrings : d.placement.strings =
      Header.width + d.symbols.slots.size * Row.width DirEntry := rfl
  rw [hbytes] at hat
  have hpool := hat.right.right.left
  rw [length_header, length_directory, Nat.zero_add, ← hstrings, hb, List.append_assoc] at hpool
  have hstring := hpool.right.left
  rw [hlen, ← hoffset] at hstring
  have hne : d.stringOffset s ≠ 0 := by
    intro h0
    have hpos : 0 < d.placement.strings := Nat.lt_of_lt_of_le (by decide) (Nat.le_add_right 96 _)
    rw [h0, UInt32.toNat_zero] at hoffset
    omega
  exact ⟨hne, hstring.string hne⟩

/-- So are the slots of the directory. -/
theorem entry?_assemble (h : d.assemble = .ok bytes) {i : Nat} {ref : DirRef} {slot : Slot}
    (hr : DirRef.ofIndex? i = some ref) (hslot : d.symbols.slots[i]? = some slot) :
    Image.entry? ⟨bytes, d.header⟩ ref = some (d.dirEntry slot) := by
  have hc := complete_of_assemble h
  have law := DirEntry.record_lawful
  have hi := (Array.getElem?_eq_some_iff.1 hslot).1
  have hslots : (UInt16.ofNat d.symbols.slots.size).toNat = d.symbols.slots.size :=
    UInt16.toNat_ofNat_of_lt' hc.slots
  have hextract := ((directory_at h).getElem?_flatMap law.length_encode
    (getElem?_directory hslot)).extract
  rw [law.length_encode] at hextract
  have hdecode := law.decode_encode (d.dirEntry slot) []
  rw [List.append_nil] at hdecode
  have hin : i < d.header.entryCount.toNat := hslots ▸ hi
  simp only [Image.entry?, DirRef.index?_eq_of_ofIndex? hr, if_pos hin, Option.some.injEq]
  exact (congrArg (fun bs : Bytes => DirEntry.record.decode bs.toList) hextract).trans hdecode

end Draft

/-! ### Bodies -/

variable {works : List Work} {d : Draft} {ps : List Piece} {bytes : Bytes} {id : BodyId}
  {ids : List BodyId}

/-- What is written in a body stands in its place in the file. -/
theorem Written.stands (hl : Ledger works d ps) (h : d.assemble = .ok bytes)
    (hw : Written works d ps id ids) :
    ∃ work, works[id.toNat]? = some work ∧ Stands works d ⟨bytes, d.header⟩ id work ids := by
  obtain ⟨work, before, body, rest, hwork, rfl, hstart, halign, hfill⟩ := hw
  have hc := (Draft.assemble_ok hl.made h).1
  have hoffset := Draft.toNat_bodyOffset hc hstart (hl.start_lt id _ hstart)
  have hat := (Draft.parts_assemble hl.made h).bodies
  rw [List.flatMap_append, List.flatMap_append] at hat
  have hbody := hat.right.left
  rw [Piece.length_flatMap_fill, ← hoffset] at hbody
  have hbodies : d.placement.bodies % bodyAlign = 0 := alignUp_mod _
  -- all bodies are moved by the same multiple of a boundary, so filler keeps its length
  have hsame : (d.bodyOffset id).toNat % bodyAlign = Piece.size before % bodyAlign := by
    rw [hoffset, Nat.add_mod, hbodies, Nat.zero_add, Nat.mod_mod]
  refine ⟨work, hwork, _, hbody,
    (hfill works d (List.prefix_refl _) (.refl d)).congr_pos hsame.symm, ?_, hsame.trans halign⟩
  have hpos : 96 ≤ d.placement.bodies :=
    Nat.le_trans (Nat.le_add_right 96 _) (Nat.le_trans (Nat.le_add_right _ _) (le_alignUp _))
  omega

/-- The file of a draft whose bodies are all written. -/
theorem Ledger.assembled (hl : Ledger works d ps) (h : d.assemble = .ok bytes) :
    Assembled works d ⟨bytes, d.header⟩ := by
  have hc := (Draft.assemble_ok hl.made h).1
  have hpool := hl.accounts.symbols.pool
  refine ⟨hl.accounts, rfl, ?_, fun s => Draft.string_assemble hpool h rfl,
    fun id work hwork => ?_, fun id id' hid hid' he => ?_,
    fun i ref slot hr hslot => Draft.entry?_assemble h hr hslot⟩
  · exact Nat.le_trans (Nat.le_of_eq (Draft.size_assemble hl.made h)) hc.total
  · have hid := (List.getElem?_eq_some_iff.1 hwork).1
    obtain ⟨_, ids, -, hw⟩ := hl.written_of_bodyCount hc.bodyCount hid
    obtain ⟨work', hwork', hstands⟩ := hw.stands hl h
    rw [hwork] at hwork'
    cases hwork'
    exact ⟨ids, hstands⟩
  · obtain ⟨start, _, hs, -⟩ := hl.written_of_bodyCount hc.bodyCount hid
    obtain ⟨start', _, hs', -⟩ := hl.written_of_bodyCount hc.bodyCount hid'
    have ho := Draft.toNat_bodyOffset hc hs (hl.start_lt id start hs)
    have ho' := Draft.toNat_bodyOffset hc hs' (hl.start_lt id' start' hs')
    -- bodies with one offset begin in one place
    have hsame : start = start' := by
      rw [he] at ho
      omega
    subst hsame
    exact hl.injective id id' start hs hs'

/-! ### Descriptions -/

/-- The draft that the build of a description leaves. -/
def Draft.final (ns : String) (nodes : List Node) (sharedLibrary : Option String)
    (options : Options) : Draft := (Build.document nodes).after (.new ns sharedLibrary options)

/-- The entries of a description have the first slots of the directory, and their bodies stand in
the file with what they promised, in order. -/
structure Entered (nodes : List Node) (works : List Work) (d : Draft) (img : Image)
    (idss : List (List BodyId)) : Prop where
  localNames : d.symbols.localNames.toList = nodes.map Node.name
  length : idss.length = nodes.length
  increasing : idss.flatten.Pairwise (· < ·)
  slot : ∀ (i : Nat) (node : Node), nodes[i]? = some node → ∃ kind offset ref,
    node.entryKind? = some kind ∧ DirRef.ofIndex? i = some ref ∧
    d.symbols.lookup node.name = some ⟨.ofNat i, ref⟩ ∧
    d.symbols.slots[i]? = some ⟨kind, offset, .body (.ofNat i)⟩ ∧
    d.symbols.pool.get? node.name = some offset
  stands : ∀ (i : Nat) (node : Node) (ids : List BodyId), nodes[i]? = some node →
    idss[i]? = some ids → Stands works d img (.ofNat i) (.entry node) ids

theorem Finished.entered {nodes : List Node} {idss : List (List BodyId)}
    (hf : Finished nodes works d ps idss) (h : d.assemble = .ok bytes) :
    Entered nodes works d ⟨bytes, d.header⟩ idss := by
  refine ⟨hf.localNames, hf.entries.length_eq.symm, hf.increasing, hf.slot,
    fun i node ids hi hids => ?_⟩
  obtain ⟨hwork, hw⟩ := hf.written hi hids
  obtain ⟨work, hwork', hstands⟩ := hw.stands hf.ledger h
  rw [hf.toNat_id hi, hwork] at hwork'
  cases hwork'
  exact hstands

/-- A description that compiles was built, and what was built is put together. -/
theorem yields_of_compile {ns : String} {nodes : List Node} {sharedLibrary : Option String}
    {options : Options} {a : Artifact} (h : compile ns nodes sharedLibrary options = .ok a) :
    let d := Draft.final ns nodes sharedLibrary options
    (Build.document nodes).Yields (.new ns sharedLibrary options) () d ∧
      d.assemble = .ok a.bytes ∧ a.namespaceName = ns := by
  intro d
  unfold compile at h
  cases hrun : (Build.document nodes).run (.new ns sharedLibrary options) with
  | mk outcome d' =>
    rw [hrun] at h
    cases outcome with
    | error e => cases h
    | ok _ =>
      have hd : d = d' := congrArg Prod.snd hrun
      subst hd
      cases hbytes : d.assemble with
      | error e =>
        simp only [hbytes] at h
        cases h
      | ok bytes =>
        simp only [hbytes] at h
        cases h
        exact ⟨hrun, rfl, rfl⟩

/-- What was built is finished if it can be put together: there were identities for all bodies. -/
theorem Build.finished_assemble {ns : String} {nodes : List Node} {sharedLibrary : Option String}
    {options : Options} (h : (document nodes).Yields (.new ns sharedLibrary options) () d)
    (hbytes : d.assemble = .ok bytes) :
    d.Titled ns sharedLibrary options ∧ ∃ works ps idss, Finished nodes works d ps idss := by
  have hc := Draft.complete_of_assemble hbytes
  exact finished_document h (few_document h hc.queues hc.bodyCount)

/-- A description that compiles becomes a file that can be read. -/
theorem compile_ok {ns : String} {nodes : List Node} {sharedLibrary : Option String}
    {options : Options} {a : Artifact} (h : compile ns nodes sharedLibrary options = .ok a) :
    let d := Draft.final ns nodes sharedLibrary options
    let img : Image := ⟨a.bytes, d.header⟩
    Image.load a.bytes = .ok img ∧ a.namespaceName = ns ∧ d.Titled ns sharedLibrary options ∧
      d.Complete ∧ ∃ works idss, Assembled works d img ∧ Entered nodes works d img idss := by
  intro d img
  obtain ⟨hyields, hbytes, hns⟩ := yields_of_compile h
  obtain ⟨ht, works, ps, idss, hf⟩ := Build.finished_assemble hyields hbytes
  have hl := hf.ledger
  exact ⟨Draft.load_assemble hl.accounts.symbols hl.made hbytes, hns, ht,
    Draft.complete_of_assemble hbytes, works, idss,
    hl.assembled hbytes, hf.entered hbytes⟩

end Typelib
