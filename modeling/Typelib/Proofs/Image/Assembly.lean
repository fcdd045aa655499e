import Typelib.Proofs.Body.Count
import Typelib.Proofs.Image.Place

/-!
# The parts of a file

A draft that is put together becomes header, directory, string pool and bodies, one after another,
and the header that is read back is the one that was written.

* `Draft.assemble_ok`: the bytes of the file of a draft;
* `Draft.load_assemble`: the file is not refused.
-/

namespace Typelib

/-! ### The directory -/

/-- The directory entry that a slot becomes in the file of a draft. -/
def Draft.dirEntry (d : Draft) (slot : Slot) : DirEntry where
  kind := slot.kind.code
  isLocal := slot.isLocal
  name := d.offset (.string slot.name)
  offset := match slot.target with
    | .body id => d.bodyOffset id
    | .foreign namespaceName => d.offset (.string namespaceName)

namespace Draft

variable {d : Draft} {ps : List Piece} {bytes : Bytes}

theorem entry_eq_ok {slot : Slot} {e : DirEntry} (h : d.placement.entry d.body slot = .ok e) :
    e = d.dirEntry slot := by
  obtain ⟨kind, name, target⟩ := slot
  cases target with
  | foreign ns => exact (Except.ok.inj h).symm
  | body id =>
    simp only [Placement.entry] at h
    cases hb : d.placement.body d.body id with
    | error e => rw [hb] at h; cases h
    | ok offset =>
      rw [hb] at h
      cases h
      simp only [dirEntry, bodyOffset, Draft.offset, Placement.offset, Placement.target, hb]
      rfl

theorem mapM_entry_eq_ok {slots : List Slot} : ∀ {directory : List DirEntry},
    slots.mapM (d.placement.entry d.body) = .ok directory →
    directory = slots.map d.dirEntry := by
  induction slots with
  | nil =>
    intro directory h
    cases h
    rfl
  | cons slot slots ih =>
    intro directory h
    rw [List.mapM_cons] at h
    cases he : d.placement.entry d.body slot with
    | error e => rw [he] at h; cases h
    | ok e =>
      rw [he] at h
      cases hes : slots.mapM (d.placement.entry d.body) with
      | error e' => rw [hes] at h; cases h
      | ok es =>
        rw [hes] at h
        cases h
        rw [List.map_cons, ← entry_eq_ok he, ← ih hes]

/-! ### The whole file -/

/-- A draft that can be put together has written all that it promised, and nothing in it is too
large for the format. -/
structure Complete (d : Draft) : Prop where
  queues : d.queues.isEmpty = true
  bodyCount : d.body.bodyCount = d.symbols.allocated
  pool : d.symbols.pool.bytes.size ≤ maxWord32
  slots : d.symbols.slots.size < UInt16.size
  total : d.placement.total ≤ maxWord32

theorem check_eq_ok (h : d.check = .ok ()) : d.Complete := by
  unfold check at h
  cases hv : d.symbols.pool.validate with
  | error e =>
    rw [hv] at h
    split_ifs at h <;> cases h
  | ok =>
    rw [hv] at h
    split_ifs at h with hq hb hs ht <;> cases h
    exact ⟨by simpa using hq, by simpa using hb, StringPool.size_le_of_validate hv,
      Nat.lt_of_not_le hs, Nat.le_of_not_lt ht⟩

/-- The directory of the file of a draft. -/
def directory (d : Draft) : List DirEntry := d.symbols.slots.toList.map d.dirEntry

theorem getElem?_directory {i : Nat} {slot : Slot} (h : d.symbols.slots[i]? = some slot) :
    d.directory[i]? = some (d.dirEntry slot) := by
  rw [directory, List.getElem?_map, Array.getElem?_toList, h]
  rfl

/-- Only a draft that was checked becomes a file. -/
theorem complete_of_assemble (h : d.assemble = .ok bytes) : d.Complete := by
  unfold assemble at h
  cases hcheck : d.check with
  | error e =>
    rw [hcheck] at h
    cases h
  | ok => exact check_eq_ok hcheck

/-- The file of a draft holds its parts one after another. -/
theorem exists_link_of_assemble (h : d.assemble = .ok bytes) :
    ∃ body, d.body.link d.placement = .ok body ∧
      bytes.toList = Header.record.encode d.header ++
        (d.directory.flatMap DirEntry.record.encode ++ (d.symbols.pool.bytes.toList ++
          (zeros (d.placement.strings + d.symbols.pool.bytes.size) d.placement.bodies ++
            (body.toList ++ zeros (d.placement.bodies + body.size) d.placement.total)))) := by
  unfold assemble at h
  cases hcheck : d.check with
  | error e => rw [hcheck] at h; cases h
  | ok =>
    rw [hcheck] at h
    cases hlink : d.body.link d.placement with
    | error e => simp only [hlink] at h; cases h
    | ok body =>
      simp only [hlink] at h
      cases hdir : d.symbols.slots.toList.mapM (d.placement.entry d.body) with
      | error e => simp only [hdir] at h; cases h
      | ok entries =>
        simp only [hdir] at h
        refine ⟨body, rfl, ?_⟩
        rw [← Except.ok.inj h, directory, ← mapM_entry_eq_ok hdir]
        simp

/-- Where the bodies are made of pieces, the file holds them with their references filled in. -/
theorem assemble_ok (hm : d.body.Made ps) (h : d.assemble = .ok bytes) :
    d.Complete ∧ bytes.toList = Header.record.encode d.header ++
      (d.directory.flatMap DirEntry.record.encode ++ (d.symbols.pool.bytes.toList ++
        (zeros (d.placement.strings + d.symbols.pool.bytes.size) d.placement.bodies ++
          (ps.flatMap (Piece.fill d.offset) ++
            zeros (d.placement.bodies + d.body.size) d.placement.total)))) := by
  obtain ⟨body, hlink, hbytes⟩ := exists_link_of_assemble h
  have hfill : body.toList = ps.flatMap (Piece.fill d.offset) := hm.link hlink
  have hsize : body.size = d.body.size := by
    rw [← Array.length_toList, hfill, Piece.length_flatMap_fill, hm.size]
  refine ⟨complete_of_assemble h, ?_⟩
  rw [hbytes, hfill, hsize]

theorem length_directory (d : Draft) : (d.directory.flatMap DirEntry.record.encode).length =
    d.symbols.slots.size * Row.width DirEntry := by
  have hlen := DirEntry.record_lawful.length_flatMap d.directory
  rw [directory, List.length_map, Array.length_toList] at hlen
  exact hlen

theorem length_header (h : Header) : (Header.record.encode h).length = Header.width :=
  Header.record_lawful.length_encode h

/-- The file ends where the placement says. -/
theorem size_assemble (hm : d.body.Made ps) (h : d.assemble = .ok bytes) :
    bytes.size = d.placement.total := by
  have hbytes := congrArg List.length (assemble_ok hm h).2
  have hstrings : d.placement.strings =
      Header.width + d.symbols.slots.size * Row.width DirEntry := rfl
  have hbodies : d.placement.strings + d.symbols.pool.bytes.size ≤ d.placement.bodies :=
    le_alignUp _
  have htotal : d.placement.bodies + d.body.size ≤ d.placement.total := le_alignUp _
  simp only [List.length_append, length_header, length_directory, zeros, List.length_replicate,
    Piece.length_flatMap_fill, Array.length_toList, ← hm.size] at hbytes
  omega

/-- There is no reason to refuse the file. -/
theorem refusal?_assemble (hs : d.symbols.Sound) (hm : d.body.Made ps)
    (h : d.assemble = .ok bytes) : Image.refusal? bytes d.header = none := by
  have hc := (assemble_ok hm h).1
  have hsize := size_assemble hm h
  have hword : (UInt32.ofNat d.placement.total).toNat = d.placement.total :=
    UInt32.toNat_ofNat_of_lt' (Nat.lt_succ_of_le hc.total)
  have hslots : (UInt16.ofNat d.symbols.slots.size).toNat = d.symbols.slots.size :=
    UInt16.toNat_ofNat_of_lt' hc.slots
  have hlocals : (UInt16.ofNat d.symbols.localCount).toNat = d.symbols.localCount :=
    UInt16.toNat_ofNat_of_lt' (Nat.lt_of_le_of_lt hs.count hc.slots)
  have hstrings : Header.width + d.symbols.slots.size * Row.width DirEntry ≤ bytes.size := by
    have hbodies : d.placement.strings + d.symbols.pool.bytes.size ≤ d.placement.bodies :=
      le_alignUp _
    have htotal : d.placement.bodies + d.body.size ≤ d.placement.total := le_alignUp _
    have hstrings : d.placement.strings =
        Header.width + d.symbols.slots.size * Row.width DirEntry := rfl
    omega
  have hsame : d.header.mismatch? = none := Header.mismatch?_eq_none rfl
  have hcount : ¬ d.header.entryCount < d.header.localCount := by
    rw [UInt16.lt_iff_toNat_lt]
    change ¬ (UInt16.ofNat d.symbols.slots.size).toNat < (UInt16.ofNat d.symbols.localCount).toNat
    rw [hslots, hlocals]
    exact Nat.not_lt.2 hs.count
  have hdir : ¬ (d.header.directory.toNat < Header.width ∨ bytes.size <
      d.header.directory.toNat + d.header.entryCount.toNat * Row.width DirEntry) := by
    change ¬ (Header.width < Header.width ∨ bytes.size <
      Header.width + (UInt16.ofNat d.symbols.slots.size).toNat * Row.width DirEntry)
    rw [hslots]
    omega
  have hfile : ¬ d.header.size.toNat ≠ bytes.size := by
    change ¬ (UInt32.ofNat d.placement.total).toNat ≠ bytes.size
    rw [hword, hsize]
    exact fun hne => hne rfl
  have hmagic : d.header.magicOk = true := by rfl
  have hversion : d.header.versionOk = true := by rfl
  simp only [Image.refusal?, hmagic, hversion, hsame, if_neg hfile, if_neg hcount, if_neg hdir]
  rfl

/-! ### Loading -/

theorem header_at (h : d.assemble = .ok bytes) :
    Image.At ⟨bytes, d.header⟩ 0 (Header.record.encode d.header) := by
  obtain ⟨body, -, hbytes⟩ := exists_link_of_assemble h
  exact ⟨[], _, hbytes, rfl⟩

theorem directory_at (h : d.assemble = .ok bytes) :
    Image.At ⟨bytes, d.header⟩ Header.width (d.directory.flatMap DirEntry.record.encode) := by
  obtain ⟨body, -, hbytes⟩ := exists_link_of_assemble h
  have hat : Image.At ⟨bytes, d.header⟩ 0 bytes.toList := ⟨[], [], by simp, rfl⟩
  rw [hbytes] at hat
  have hdirectory := hat.right.left
  rwa [length_header, Nat.zero_add] at hdirectory

/-- The header that was written is read back. -/
theorem decode_header (h : d.assemble = .ok bytes) :
    Header.record.decode (bytes.extract 0 Header.width).toList = d.header := by
  have hextract := (header_at h).extract
  rw [length_header, Nat.zero_add] at hextract
  have hdecode := Header.record_lawful.decode_encode d.header []
  rw [List.append_nil] at hdecode
  rw [hextract]
  exact hdecode

/-- The file is loaded. -/
theorem load_assemble (hs : d.symbols.Sound) (hm : d.body.Made ps) (h : d.assemble = .ok bytes) :
    Image.load bytes = .ok ⟨bytes, d.header⟩ := by
  have hle := (header_at h).le
  rw [length_header, Nat.zero_add] at hle
  simp only [Image.load, if_neg (Nat.not_lt.2 hle), decode_header h, refusal?_assemble hs hm h]

end Draft

end Typelib
