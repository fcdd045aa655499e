import Typelib.Proofs.Directory.Document
import Typelib.Proofs.Guard.Follows
import Typelib.Proofs.Image.Directory
import Typelib.Proofs.Symbols.Drafts

/-!
# Local entries

A directory says twice which of its entries are local: each entry has a flag, and the header counts
the entries in front. In every file that is written the two agree. A file is not refused if they do
not, since only its header is checked; a lookup then goes by the header.

* `Image.FlagsAgree`: the flags say what the header says;
* `Draft.flagsAgree`: they do so in the file of a draft;
* `findLocal?_flagged`: what a lookup finds, in any file and in one that was written.
-/

namespace Typelib

/-- The entries that are flagged as local are those that the header counts as local. -/
def Image.FlagsAgree (img : Image) : Prop :=
  ∀ r, (∃ e, img.entry? r = some e ∧ e.isLocal = true) ↔
    1 ≤ r.raw.toNat ∧ r.raw.toNat ≤ img.header.localCount.toNat

variable {bytes : Bytes} {img : Image}

/-- In a file whose flags agree with its header, what a lookup finds is flagged as local. -/
theorem Image.FlagsAgree.isLocal (h : img.FlagsAgree) {name : String} {r : DirRef} {e : DirEntry}
    (hf : img.FirstNamed name r e) : e.isLocal = true := by
  obtain ⟨i, hi, he⟩ := entry?_eq_some_iff.1 hf.entry
  have hr : r.raw.toNat = i + 1 := by simpa [he] using toNat_entryAt hi
  obtain ⟨e', he', hlocal⟩ := (h r).2 ⟨by omega, hf.counted⟩
  rw [hf.entry] at he'
  cases he'
  exact hlocal

namespace Draft

variable {d : Draft}

/-- A file of a draft that is loaded has the header of the draft. -/
theorem eq_of_load (h : d.assemble = .ok bytes) (hload : Image.load bytes = .ok img) :
    img = ⟨bytes, d.header⟩ := by
  have hheader := Image.header_of_load hload
  rw [decode_header h] at hheader
  obtain rfl := (Image.accepted_of_load hload).1
  cases img
  cases hheader
  rfl

/-- In the file of a draft the flags say what the header says. -/
theorem flagsAgree (hs : d.symbols.Sound) (h : d.assemble = .ok bytes) :
    Image.FlagsAgree ⟨bytes, d.header⟩ := by
  have hslots := (complete_of_assemble h).slots
  have hcount := hs.count
  have hentries : d.header.entryCount.toNat = d.symbols.slots.size :=
    UInt16.toNat_ofNat_of_lt' hslots
  have hlocals : d.header.localCount.toNat = d.symbols.localNames.size :=
    UInt16.toNat_ofNat_of_lt' (Nat.lt_of_le_of_lt hcount hslots)
  intro r
  rw [hlocals]
  constructor
  · rintro ⟨e, he, hlocal⟩
    obtain ⟨i, hi, hat⟩ := Image.entry?_eq_some_iff.1 he
    have hr : r.raw.toNat = i + 1 := by simpa [hat] using Image.toNat_entryAt hi
    have href := Image.ofIndex?_entryAt hi
    rw [hat] at href
    have hslot : d.symbols.slots[i]? = some d.symbols.slots[i] :=
      Array.getElem?_eq_getElem (hentries ▸ hi)
    rw [entry?_assemble h href hslot] at he
    cases he
    have hlt := (hs.isLocal_iff hslot).1 hlocal
    omega
  · rintro ⟨hpos, hle⟩
    obtain ⟨i, hi⟩ := Nat.exists_eq_add_of_le' hpos
    have href : DirRef.ofIndex? i = some r :=
      DirRef.ofIndex?_eq_some.2 ⟨by omega, by rw [← hi, UInt16.ofNat_toNat]⟩
    have hslot : d.symbols.slots[i]? = some d.symbols.slots[i] :=
      Array.getElem?_eq_getElem (by omega)
    exact ⟨_, entry?_assemble h href hslot, (hs.isLocal_iff hslot).2 (by omega)⟩

end Draft

/-- **What a lookup finds is local.** In a file that is loaded, a lookup finds the first entry with
the name among those that the header counts as local. It is flagged as local if the flags agree with
the header, and they do so in every file that is written, whatever was asked of its draft before. -/
theorem findLocal?_flagged (h : Image.load bytes = .ok img) :
    (∀ name r e, img.findLocal? name = some (r, e) ↔ img.FirstNamed name r e) ∧
    (img.FlagsAgree → ∀ name r e, img.findLocal? name = some (r, e) → e.isLocal = true) ∧
    ∀ (ns : String) (sharedLibrary : Option String) (options : Options) (ops : List Operation),
      (Operation.after ops (.new ns sharedLibrary options)).assemble = .ok bytes →
        img.FlagsAgree := by
  refine ⟨fun name r e => Image.findLocal?_eq_some_iff, fun hagree name r e hfound => ?_,
    fun ns sharedLibrary options ops hassemble => ?_⟩
  · exact hagree.isLocal (Image.findLocal?_eq_some_iff.1 hfound)
  · obtain ⟨_, htracks, -⟩ := Operation.symbols_after ns sharedLibrary options ops
    rw [Draft.eq_of_load hassemble h]
    exact Draft.flagsAgree htracks.sound hassemble

/-- The file of a description has local entries and one of another namespace. -/
theorem findLocal?_flagged_sample : ∃ a img, Sample.library.compile {} = .ok a ∧
    Image.load a.bytes = .ok img ∧ img.FlagsAgree ∧
    ∀ name r e, img.findLocal? name = some (r, e) → e.isLocal = true := by
  obtain ⟨a, ha⟩ : ∃ a, Sample.library.compile {} = .ok a := Sample.exists_compile
  obtain ⟨hload, -⟩ := compile_ok ha
  obtain ⟨-, hlocal, hwritten⟩ := findLocal?_flagged hload
  have hagree := hwritten _ _ _ [.document Sample.library.nodes] (yields_of_compile ha).2.1
  exact ⟨a, _, ha, hload, hagree, hlocal hagree⟩

namespace Sample

/-- An entry of another namespace, which the header counts as local. -/
def miscountedEntry : DirEntry := ⟨EntryKind.invalid.code, false, 117, 113⟩

def miscountedHeader : Header :=
  { entryCount := 1, localCount := 1, directory := 96, size := 124, namespaceName := 108,
    sharedLibrary := 0 }

/-- The file of this entry. -/
def miscounted : Image where
  bytes := (Header.record.encode miscountedHeader ++ DirEntry.record.encode miscountedEntry ++
    nulTerminated "Demo" ++ nulTerminated "Gtk" ++ nulTerminated "Widget").toArray
  header := miscountedHeader

theorem load_miscounted : Image.load miscounted.bytes = .ok miscounted :=
  Image.load_of_header (by decide +kernel)

end Sample

/-- The file is loaded, and a lookup of the symbol finds the entry of the other namespace. -/
theorem foreign_entry_found : Image.load Sample.miscounted.bytes = .ok Sample.miscounted ∧
    Sample.miscounted.header.localCount = 1 ∧
    Sample.miscounted.entry? ⟨1⟩ = some Sample.miscountedEntry ∧
    Sample.miscountedEntry.isLocal = false ∧
    Sample.miscounted.findLocal? "Widget" = some (⟨1⟩, Sample.miscountedEntry) :=
  ⟨Sample.load_miscounted, rfl, by decide +kernel, rfl, by decide +kernel⟩

end Typelib
