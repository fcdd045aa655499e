import Typelib.Proofs.Reading.Document

/-!
# Round trips

What compiles is read back: every row of every entry, every type wherever it is used, and the bodies
of signatures and values that rows refer to.

* `compile_reads_entries`: all rows hold what was described;
* `compile_reads_types`: all types are the ones that were described;
* `compile_reads_bodies`: each signature and each value is that of its own row.
-/

namespace Typelib

variable {ns : String} {nodes : List Node} {sharedLibrary : Option String} {options : Options}
  {a : Artifact}

/-! ### Entries -/

/-- **Rows are read back.** Each node of a description has the local entry at its position, of its
own kind, with all its members in order and all that is said of each of them. -/
theorem compile_reads_entries (h : compile ns nodes sharedLibrary options = .ok a) :
    ∃ r : Reading, Image.load a.bytes = .ok r.img ∧
      r.slot = (Draft.final ns nodes sharedLibrary options).symbols.slotOf ∧
      r.Holds ns sharedLibrary nodes ∧
      ∀ (i : Nat) (node : Node), nodes[i]? = some node → ∃ ref e kind view,
        DirRef.ofIndex? i = some ref ∧ r.img.entry? ref = some e ∧ e.isLocal = true ∧
        e.kind? = some kind ∧ node.entryKind? = some kind ∧ r.ReadsName e.name node.name ∧
        r.img.view e.offset kind = .ok view ∧ r.ReadsEntry view node := by
  obtain ⟨r, views, hload, hslot, hholds, hviews, -⟩ := compile_reading h
  refine ⟨r, hload, hslot, hholds, fun i node hi => ?_⟩
  obtain ⟨view, -, hnode⟩ := hviews.exists_view hi
  obtain ⟨ref, e, kind, href, he, hlocal, hkind, hnodeKind, hname, hview⟩ := hnode.entry
  exact ⟨ref, e, kind, view, href, he, hlocal, hkind, hnodeKind, hname, hview, hnode.reads⟩

/-- The function of a small description is read back. -/
theorem compile_reads_entries_sample :
    ∃ a, compile "Sample" Sample.nodes (some "libsample.so") {} = .ok a ∧
      ∃ r : Reading, Image.load a.bytes = .ok r.img ∧
        r.Holds "Sample" (some "libsample.so") Sample.nodes ∧ ∃ ref e kind view,
          DirRef.ofIndex? 1 = some ref ∧ r.img.entry? ref = some e ∧
          r.img.view e.offset kind = .ok view ∧ r.ReadsEntry view (.function Sample.find) := by
  obtain ⟨a, ha⟩ := Sample.exists_compile
  obtain ⟨r, hload, -, hholds, hall⟩ := compile_reads_entries ha
  obtain ⟨ref, e, kind, view, href, he, -, -, -, -, hview, hreads⟩ := hall 1 _ rfl
  exact ⟨a, ha, r, hload, hholds, ref, e, kind, view, href, he, hview, hreads⟩

/-! ### Types -/

/-- **Types are read back.** In each entry and its signatures there are as many references as the
node uses types, in the same order, and each of them leads to the type that it stands for. -/
theorem compile_reads_types (h : compile ns nodes sharedLibrary options = .ok a) :
    ∃ r : Reading, Image.load a.bytes = .ok r.img ∧
      r.slot = (Draft.final ns nodes sharedLibrary options).symbols.slotOf ∧
      r.Holds ns sharedLibrary nodes ∧
      ∀ (i : Nat) (node : Node), nodes[i]? = some node → ∃ view refs,
        r.img.entryView? i = some view ∧ r.img.typeRefs? view = some refs ∧
        List.Forall₂ r.ReadsType refs node.types := by
  obtain ⟨r, views, hload, hslot, hholds, hviews, -⟩ := compile_reading h
  refine ⟨r, hload, hslot, hholds, fun i node hi => ?_⟩
  obtain ⟨view, -, hnode⟩ := hviews.exists_view hi
  obtain ⟨refs, hread, hrefs⟩ := hnode.reads.types
  exact ⟨view, refs, hnode.entryView?, hread, hrefs⟩

/-- The list and the error of a small description are read back. -/
theorem compile_reads_types_sample :
    ∃ a, compile "Sample" Sample.nodes (some "libsample.so") {} = .ok a ∧
      ∃ r : Reading, Image.load a.bytes = .ok r.img ∧ ∃ view refs,
        r.img.entryView? 1 = some view ∧ r.img.typeRefs? view = some refs ∧
        List.Forall₂ r.ReadsType refs
          [.list (.interface "Sample.Point" true) true, .error ["Base.Failure", "Mask"] true] := by
  obtain ⟨a, ha⟩ := Sample.exists_compile
  obtain ⟨r, hload, -, -, hall⟩ := compile_reads_types ha
  obtain ⟨view, refs, hview, hrefs, hreads⟩ := hall 1 _ rfl
  exact ⟨a, ha, r, hload, view, refs, hview, hrefs, hreads⟩

/-! ### Signatures and values -/

/-- **Bodies belong to their rows.** Each signature offset leads to the signature of its own
callable, no two callables have the same one, and each constant leads to the bytes of its own value.
-/
theorem compile_reads_bodies (h : compile ns nodes sharedLibrary options = .ok a) :
    ∃ (r : Reading) (views : List EntryView), Image.load a.bytes = .ok r.img ∧
      r.slot = (Draft.final ns nodes sharedLibrary options).symbols.slotOf ∧
      r.Holds ns sharedLibrary nodes ∧ views.length = nodes.length ∧
      (∀ (i : Nat) (node : Node) (view : EntryView), nodes[i]? = some node →
        views[i]? = some view → r.img.entryView? i = some view ∧
          List.Forall₂ r.ReadsSignature view.signatures node.signatures ∧
          List.Forall₂ r.ReadsConstantValue view.constants node.constants) ∧
      (views.flatMap EntryView.signatures).Nodup := by
  obtain ⟨r, views, hload, hslot, hholds, hviews, -⟩ := compile_reading h
  refine ⟨r, views, hload, hslot, hholds, hviews.length, fun i node view hi hv => ?_,
    hviews.nodup_signatures⟩
  have hnode := hviews.node i node view hi hv
  exact ⟨hnode.entryView?, hnode.reads.signatures, hnode.reads.constants.imp fun _ _ hc => hc.value⟩

/-- The value in a small description is read back. -/
theorem compile_reads_bodies_sample :
    ∃ a, compile "Sample" Sample.nodes (some "libsample.so") {} = .ok a ∧
      ∃ r : Reading, Image.load a.bytes = .ok r.img ∧ ∃ view, r.img.entryView? 2 = some view ∧
        List.Forall₂ r.ReadsConstantValue view.constants [Sample.limit] := by
  obtain ⟨a, ha⟩ := Sample.exists_compile
  obtain ⟨r, views, hload, -, -, hlength, hall, -⟩ := compile_reads_bodies ha
  have hlt : 2 < views.length := by
    rw [hlength]
    decide
  obtain ⟨hview, -, hconstants⟩ := hall 2 _ _ rfl (List.getElem?_eq_getElem hlt)
  exact ⟨a, ha, r, hload, views[2], hview, hconstants⟩

end Typelib
