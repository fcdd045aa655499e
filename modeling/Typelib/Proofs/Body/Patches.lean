import Typelib.Proofs.Body.Writes

/-!
# Filling in the references

When a file is put together, each gap of the bodies gets four bytes. Gaps lie apart from one
another, so each of them holds what was filled in for it, and all other bytes stay what they were.

* `Section.patched`: the bodies with values in their gaps;
* `Section.Filled`: what the bytes are then;
* `Section.link_eq_ok_iff`: linking fills in what the references lead to;
* `Section.runs_sound`: all that holds of bodies, in whatever order they were written.
-/

namespace Typelib

/-! ### One patch -/

theorem size_patch (bs : List UInt8) : ∀ (pos : Nat) (bytes : Bytes),
    (patch pos bs bytes).size = bytes.size := by
  induction bs with
  | nil => exact fun _ _ => rfl
  | cons b bs ih =>
    intro pos bytes
    rw [patch, ih, Array.size_setIfInBounds]

/-- A patch leaves the bytes in front of it and behind it. -/
theorem getElem?_patch_outside {k : Nat} (bs : List UInt8) : ∀ {pos : Nat} {bytes : Bytes},
    k < pos ∨ pos + bs.length ≤ k → (patch pos bs bytes)[k]? = bytes[k]? := by
  induction bs with
  | nil => exact fun _ => rfl
  | cons b bs ih =>
    intro pos bytes hk
    rw [List.length_cons] at hk
    rw [patch, ih (by omega), Array.getElem?_setIfInBounds_ne (by omega)]

/-- A patch that lies inside the bytes is there afterwards. -/
theorem getElem?_patch_inside (bs : List UInt8) : ∀ {pos : Nat} {bytes : Bytes} {i : Nat},
    pos + bs.length ≤ bytes.size → i < bs.length → (patch pos bs bytes)[pos + i]? = bs[i]? := by
  induction bs with
  | nil =>
    intro pos bytes i _ hi
    cases hi
  | cons b bs ih =>
    intro pos bytes i hle hi
    rw [List.length_cons] at hle hi
    rw [patch]
    cases i with
    | zero =>
      -- the first byte is written first, and the rest goes behind it
      rw [getElem?_patch_outside bs (by omega), Nat.add_zero, List.getElem?_cons_zero,
        Array.getElem?_setIfInBounds_self_of_lt (by omega)]
    | succ i =>
      have hsize : pos + 1 + bs.length ≤ (bytes.setIfInBounds pos b).size := by
        rw [Array.size_setIfInBounds]
        omega
      rw [List.getElem?_cons_succ, ← ih hsize (Nat.lt_of_succ_lt_succ hi)]
      congr 1
      omega

namespace Section

/-! ### All patches -/

/-- The bytes with a value in place of one reference. -/
def fillIn (value : Reloc → UInt32) (bytes : Bytes) (reloc : Reloc) : Bytes :=
  patch reloc.pos (leBytes 4 (value reloc).toNat) bytes

/-- The bodies with values in place of the references. -/
def patched (s : Section) (value : Reloc → UInt32) : Bytes :=
  s.relocs.toList.foldl (fillIn value) s.bytes

/-- Bytes that hold certain values in the gaps of the bodies, and are those of the bodies everywhere
else. -/
structure Filled (s : Section) (value : Reloc → UInt32) (out : Bytes) : Prop where
  size : out.size = s.size
  gaps : ∀ reloc ∈ s.relocs.toList, ∀ i < 4,
    out[reloc.pos + i]? = (leBytes 4 (value reloc).toNat)[i]?
  others : ∀ k, (∀ reloc ∈ s.relocs.toList, k < reloc.pos ∨ reloc.pos + 4 ≤ k) →
    out[k]? = s.bytes[k]?

variable {s : Section} {value : Reloc → UInt32} {ts : List Target}

theorem size_foldl_fillIn (relocs : List Reloc) : ∀ bytes : Bytes,
    (relocs.foldl (fillIn value) bytes).size = bytes.size := by
  induction relocs with
  | nil => exact fun _ => rfl
  | cons reloc relocs ih =>
    intro bytes
    rw [List.foldl_cons, ih, fillIn, size_patch]

theorem getElem?_foldl_fillIn_outside {k : Nat} {relocs : List Reloc}
    (hk : ∀ reloc ∈ relocs, k < reloc.pos ∨ reloc.pos + 4 ≤ k) : ∀ bytes : Bytes,
    (relocs.foldl (fillIn value) bytes)[k]? = bytes[k]? := by
  induction relocs with
  | nil => exact fun _ => rfl
  | cons reloc relocs ih =>
    intro bytes
    rw [List.forall_mem_cons] at hk
    rw [List.foldl_cons, ih hk.2, fillIn, getElem?_patch_outside]
    rw [length_leBytes]
    exact hk.1

/-- What is filled into a gap is not touched by the gaps behind it. -/
theorem getElem?_foldl_fillIn {relocs : List Reloc}
    (hapart : relocs.Pairwise fun reloc later => reloc.pos + 4 ≤ later.pos) :
    ∀ {bytes : Bytes}, (∀ reloc ∈ relocs, reloc.pos + 4 ≤ bytes.size) →
    ∀ reloc ∈ relocs, ∀ i < 4, (relocs.foldl (fillIn value) bytes)[reloc.pos + i]? =
      (leBytes 4 (value reloc).toNat)[i]? := by
  induction hapart with
  | nil =>
    intro bytes _ reloc hmem
    cases hmem
  | @cons first relocs hfirst _ ih =>
    intro bytes hinside reloc hmem i hi
    rw [List.forall_mem_cons] at hinside
    rw [List.foldl_cons]
    rcases List.mem_cons.1 hmem with rfl | hmem
    · have hbehind : ∀ later ∈ relocs,
          reloc.pos + i < later.pos ∨ later.pos + 4 ≤ reloc.pos + i := by
        intro later hlater
        have := hfirst later hlater
        omega
      rw [getElem?_foldl_fillIn_outside hbehind, fillIn]
      exact getElem?_patch_inside _ (by rw [length_leBytes]; exact hinside.1)
        (by rwa [length_leBytes])
    · refine ih (fun later hlater => ?_) reloc hmem i hi
      rw [fillIn, size_patch]
      exact hinside.2 later hlater

theorem Gapped.filled (h : s.Gapped ts) (value : Reloc → UInt32) :
    s.Filled value (s.patched value) where
  size := size_foldl_fillIn _ _
  gaps := getElem?_foldl_fillIn h.apart h.inside
  others _ hk := getElem?_foldl_fillIn_outside hk _

/-! ### Linking -/

/-- One step of linking: a reference is filled in with what it leads to. -/
def linkStep (s : Section) (p : Placement) (bytes : Bytes) (reloc : Reloc) :
    Except BuildError Bytes := do
  let offset ← p.target s reloc.target
  .ok (patch reloc.pos (leBytes 4 offset.toNat) bytes)

theorem link_eq (s : Section) (p : Placement) :
    s.link p = s.relocs.toList.foldlM (s.linkStep p) s.bytes := rfl

variable {p : Placement} {out : Bytes}

theorem linkStep_eq {reloc : Reloc} (h : p.target s reloc.target = .ok (value reloc))
    (bytes : Bytes) : s.linkStep p bytes reloc = .ok (fillIn value bytes reloc) := by
  rw [linkStep, h]
  rfl

/-- What the references lead to is filled in. -/
theorem foldlM_linkStep {relocs : List Reloc}
    (h : ∀ reloc ∈ relocs, p.target s reloc.target = .ok (value reloc)) : ∀ bytes : Bytes,
    relocs.foldlM (s.linkStep p) bytes = .ok (relocs.foldl (fillIn value) bytes) := by
  induction relocs with
  | nil => exact fun _ => rfl
  | cons reloc relocs ih =>
    intro bytes
    rw [List.forall_mem_cons] at h
    rw [List.foldlM_cons, linkStep_eq h.1, List.foldl_cons]
    exact ih h.2 _

/-- If linking does not fail, each reference leads somewhere. -/
theorem target_of_foldlM_linkStep {relocs : List Reloc} : ∀ {bytes : Bytes},
    relocs.foldlM (s.linkStep p) bytes = .ok out →
    ∀ reloc ∈ relocs, p.target s reloc.target = .ok (p.offset s reloc.target) := by
  induction relocs with
  | nil =>
    intro bytes _ reloc hmem
    cases hmem
  | cons first relocs ih =>
    intro bytes h reloc hmem
    rw [List.foldlM_cons] at h
    cases ht : p.target s first.target with
    | error e =>
      rw [linkStep, ht] at h
      cases h
    | ok offset =>
      rcases List.mem_cons.1 hmem with rfl | hmem
      · rw [Placement.offset, ht]
      · rw [linkStep, ht] at h
        exact ih h reloc hmem

/-- Linking fills in what the references lead to, and fails only if one of them leads nowhere. -/
theorem link_eq_ok_iff (s : Section) (p : Placement) (out : Bytes) :
    s.link p = .ok out ↔ ∃ value, (∀ reloc ∈ s.relocs.toList,
      p.target s reloc.target = .ok (value reloc)) ∧ out = s.patched value := by
  rw [link_eq]
  constructor
  · intro h
    have htarget := target_of_foldlM_linkStep h
    refine ⟨fun reloc => p.offset s reloc.target, htarget, ?_⟩
    rw [foldlM_linkStep htarget] at h
    exact (Except.ok.inj h).symm
  · rintro ⟨value, hvalue, rfl⟩
    exact foldlM_linkStep hvalue _

/-- **References are filled in, and nothing else is changed.** In whatever order bodies are written,
as long as each is begun once: the gaps lie inside the bytes that are written, one behind another,
one for each reference; bodies start at boundaries, none in front of an earlier one; whatever is filled
into the gaps, they hold it and all other bytes stay; and putting a file together fills in what the
references lead to. -/
theorem runs_sound (writes : List Write) (hfresh : (begun writes).Nodup) :
    ∃ s, ({} : Section).runs writes = .ok s ∧ s.Gapped (targets writes) ∧
      s.Started (begun writes) ∧ (∀ value, s.Filled value (s.patched value)) ∧
      ∀ (p : Placement) (out : Bytes), s.link p = .ok out ↔
        ∃ value, (∀ reloc ∈ s.relocs.toList, p.target s reloc.target = .ok (value reloc)) ∧
          out = s.patched value := by
  obtain ⟨s, hruns⟩ := exists_runs writes started_empty (by rwa [List.nil_append])
  have hgapped : s.Gapped (targets writes) := gapped_empty.runs writes hruns
  exact ⟨s, hruns, hgapped, started_empty.runs writes hruns, hgapped.filled, s.link_eq_ok_iff⟩

end Section

namespace Sample

/-- References at odd places, a type whose offset is not empty, and bodies that are begun out of
order. -/
def writes : List Section.Write :=
  [.byte 7, .stringRef (some 5), .word16 1, .start 2, .typeRef ⟨22, 1, 0, 9⟩ (some 0),
    .stringRef none, .raw [1, 2, 3], .start 0, .bodyRef 2, .int32 (-1), .start 1]

end Sample

/-- The gaps are those of the string, of the type and of the body, and all of them are filled in. -/
theorem Section.runs_sound_sample : (Section.begun Sample.writes).Nodup ∧
    ∃ s, ({} : Section).runs Sample.writes = .ok s ∧
      s.relocs.toList.map Reloc.pos = [1, 12, 24] ∧ s.startOf? 0 = some 24 ∧
      s.Gapped (Section.targets Sample.writes) ∧
      (s.patched fun _ => 0xffffffff)[13]? = some 0xff ∧
      (s.patched fun _ => 0xffffffff)[11]? = s.bytes[11]? := by
  have hfresh : (Section.begun Sample.writes).Nodup := by decide
  obtain ⟨s, hruns, hgapped, -, hfilled, -⟩ := Section.runs_sound Sample.writes hfresh
  have hs : ({} : Section).runs Sample.writes =
      .ok (Sample.writes.foldl (fun s w => (w.run s).toOption.getD s) {}) := by rfl
  obtain rfl := Except.ok.inj (hruns.symm.trans hs)
  refine ⟨hfresh, _, hs, rfl, rfl, hgapped, ?_, ?_⟩
  · exact (hfilled _).gaps ⟨12, .body 0⟩ (by decide) 1 (by decide)
  · exact (hfilled _).others 11 (by decide)

end Typelib
