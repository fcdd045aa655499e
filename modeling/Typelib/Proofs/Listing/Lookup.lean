import Typelib.Proofs.Listing.Document

/-!
# Entries are found by their names

A file holds of each name what comes in front of its first NUL, and it is this part that a lookup
compares with. Names that differ only behind a NUL are different names of a description and the same
name in its file, where the first one is found.

* `Image.Catalogues.findLocal?_eq`: a lookup goes through the nodes in their order;
* `compile_lookup`: what is found in the file of a description.
-/

namespace Typelib

/-- The entry of a node at a position of the description: its reference, its kind, and an offset that
leads to all that the node describes. -/
structure Reading.EntryOf (r : Reading) (i : Nat) (node : Node) (ref : DirRef) (e : DirEntry) :
    Prop where
  position : ref.raw.toNat = i + 1
  entry : r.img.entry? ref = some e
  isLocal : e.isLocal = true
  kind : e.kind? = node.entryKind?
  body : ∃ kind view, node.entryKind? = some kind ∧ r.img.view e.offset kind = .ok view ∧
    r.ReadsEntry view node

variable {doc : Document} {options : Options} {a : Artifact}

theorem Reading.ReadsNode.entryOf {r : Reading} {i : Nat} {node : Node} {view : EntryView}
    {ref : DirRef} {e : DirEntry} (h : r.ReadsNode i node view)
    (href : DirRef.ofIndex? i = some ref) (he : r.img.entry? ref = some e) :
    r.EntryOf i node ref e := by
  obtain ⟨ref', e', kind, href', he', hlocal, hkind, hnode, -, hview⟩ := h.entry
  rw [href] at href'
  cases href'
  rw [he] at he'
  cases he'
  exact ⟨DirRef.toNat_of_ofIndex? href, he, hlocal, hkind.trans hnode.symm,
    kind, view, hnode, hview, h.reads⟩

/-! ### What a lookup goes through -/

/-- The position of the first node whose name is stored as a string. -/
def Document.stored? (doc : Document) (s : String) : Option Nat :=
  doc.nodes.findIdx? fun node => Text.cut node.name == s

/-- A search through positions is a search through what stands there. -/
theorem find?_range_eq_findIdx? {α : Type} {l : List α} {p : Nat → Bool} {q : α → Bool}
    (h : ∀ (i : Nat) (hi : i < l.length), p i = q l[i]) :
    (List.range l.length).find? p = l.findIdx? q := by
  ext i
  rw [List.find?_range_eq_some, List.findIdx?_eq_some_iff_getElem]
  constructor
  · rintro ⟨hp, hi, hfirst⟩
    have hi := List.mem_range.1 hi
    refine ⟨hi, h i hi ▸ hp, fun j hj => ?_⟩
    simpa [h j (hj.trans hi)] using hfirst j hj
  · rintro ⟨hi, hq, hfirst⟩
    refine ⟨(h i hi).trans hq, List.mem_range.2 hi, fun j hj => ?_⟩
    simpa [h j (hj.trans hi)] using hfirst j hj

/-- A lookup compares the stored names of the nodes, one after another. -/
theorem Image.Catalogues.findLocal?_eq {img : Image} {nodes : List Node}
    {externals : List (String × String)} (h : img.Catalogues nodes externals) :
    ∃ f : Nat → DirRef × DirEntry,
      (∀ i < nodes.length, DirRef.ofIndex? i = some (f i).1 ∧ img.entry? (f i).1 = some (f i).2) ∧
      ∀ s, img.findLocal? s = (nodes.findIdx? fun node => Text.cut node.name == s).map f := by
  obtain ⟨f, hentries, hf⟩ := h.entries_eq
  have hnode : ∀ i < nodes.length,
      DirRef.ofIndex? i = some (f i).1 ∧ img.entry? (f i).1 = some (f i).2 :=
    fun i hi => hf i (Nat.lt_add_right _ hi)
  refine ⟨f, hnode, fun s => ?_⟩
  have hlocal : img.entries.take img.header.localCount.toNat =
      (List.range nodes.length).map f := by
    rw [h.localCount, hentries, ← List.map_take, List.take_range, Nat.min_eq_left (by omega)]
  rw [findLocal?, hlocal, List.find?_map]
  refine congrArg (Option.map f) (find?_range_eq_findIdx? fun i hi => ?_)
  obtain ⟨href, he⟩ := hnode i hi
  obtain ⟨-, -, -, -, hname⟩ := h.node_entry (List.getElem?_eq_getElem hi) href he
  simp only [Function.comp_apply, hname]

/-! ### What is found -/

/-- Names without a NUL are stored whole, so each of them finds its own node. -/
theorem Document.stored?_name (hdistinct : (doc.nodes.map Node.name).Nodup)
    (hwhole : ∀ node ∈ doc.nodes, '\x00' ∉ node.name.toList) {i : Nat} {node : Node}
    (hi : doc.nodes[i]? = some node) : doc.stored? node.name = some i := by
  have stored : ∀ node ∈ doc.nodes, Text.cut node.name = node.name :=
    fun node hnode => Text.cut_eq_self (hwhole node hnode)
  obtain ⟨hlt, rfl⟩ := List.getElem?_eq_some_iff.1 hi
  rw [stored?, List.findIdx?_eq_some_iff_getElem]
  refine ⟨hlt, by simpa using stored _ (List.getElem_mem hlt), fun j hj hsame => ?_⟩
  have hlt' : j < doc.nodes.length := hj.trans hlt
  have hname : doc.nodes[j].name = doc.nodes[i].name :=
    (stored _ (List.getElem_mem hlt')).symm.trans (by simpa using hsame)
  have hnames : (doc.nodes.map Node.name)[j]? = (doc.nodes.map Node.name)[i]? := by
    simp [hlt, hlt', hname]
  exact absurd ((List.getElem?_inj (by simpa using hlt') hdistinct).1 hnames) (Nat.ne_of_lt hj)

theorem Document.stored?_eq_none {s : String} :
    doc.stored? s = none ↔ ∀ node ∈ doc.nodes, Text.cut node.name ≠ s := by
  simp [stored?, List.findIdx?_eq_none_iff]

/-- A lookup in the file of a description finds the entry of the first node that has the name. -/
theorem Document.findLocal?_of_compile (h : doc.compile options = .ok a) :
    ∃ r : Reading, Image.load a.bytes = .ok r.img ∧
      r.Holds doc.namespaceName doc.sharedLibrary doc.nodes ∧
      (∀ s i, doc.stored? s = some i → ∃ node ref e, doc.nodes[i]? = some node ∧
        r.EntryOf i node ref e ∧ r.img.findLocal? s = some (ref, e)) ∧
      ∀ s, doc.stored? s = none → r.img.findLocal? s = none := by
  obtain ⟨r, views, hload, -, hholds, hviews, -⟩ := compile_reading h
  obtain ⟨img, hload', hcatalogues⟩ := Document.catalogues h
  rw [hload] at hload'
  cases hload'
  obtain ⟨f, hf, hfind⟩ := hcatalogues.findLocal?_eq
  refine ⟨r, hload, hholds, fun s i hs => ?_, fun s hs => ?_⟩
  · obtain ⟨hlt, -⟩ := List.findIdx?_eq_some_iff_getElem.1 hs
    have hi := List.getElem?_eq_getElem hlt
    obtain ⟨href, he⟩ := hf i hlt
    obtain ⟨view, -, hnode⟩ := hviews.exists_view hi
    refine ⟨_, _, _, hi, hnode.entryOf href he, ?_⟩
    rw [hfind, ← Document.stored?, hs, Option.map_some]
  · rw [hfind, ← Document.stored?, hs, Option.map_none]

/-- **Lookup finds what is stored.** In the file of a description a string finds the entry of the
first node whose name is that string up to the first NUL, and nothing if there is no such node. So in
a description without NULs in its names each name finds its own entry, and no other string finds
anything. -/
theorem compile_lookup (h : doc.compile options = .ok a) :
    ∃ r : Reading, Image.load a.bytes = .ok r.img ∧
      r.Holds doc.namespaceName doc.sharedLibrary doc.nodes ∧
      (∀ s i, doc.stored? s = some i → ∃ node ref e, doc.nodes[i]? = some node ∧
        r.EntryOf i node ref e ∧ r.img.findLocal? s = some (ref, e)) ∧
      (∀ s, (∀ node ∈ doc.nodes, Text.cut node.name ≠ s) → r.img.findLocal? s = none) ∧
      ((∀ node ∈ doc.nodes, '\x00' ∉ node.name.toList) →
        (∀ i node, doc.nodes[i]? = some node →
          ∃ ref e, r.EntryOf i node ref e ∧ r.img.findLocal? node.name = some (ref, e)) ∧
        ∀ s, s ∉ doc.nodes.map Node.name → r.img.findLocal? s = none) := by
  obtain ⟨r, hload, hholds, hfound, hmissing⟩ := Document.findLocal?_of_compile h
  refine ⟨r, hload, hholds, hfound, fun s hs => hmissing s (Document.stored?_eq_none.2 hs),
    fun hwhole => ⟨fun i node hi => ?_, fun s hs => ?_⟩⟩
  · have hdistinct := (Document.acceptable_of_compile h).distinct
    obtain ⟨node', ref, e, hi', hentry, hfind⟩ :=
      hfound _ _ (Document.stored?_name hdistinct hwhole hi)
    rw [hi] at hi'
    cases hi'
    exact ⟨ref, e, hentry, hfind⟩
  · refine hmissing s (Document.stored?_eq_none.2 fun node hnode hsame => hs ?_)
    rw [← hsame, Text.cut_eq_self (hwhole node hnode)]
    exact List.mem_map_of_mem hnode

/-- The function of a small description is found by its name, and there is no entry named `Sample`. -/
theorem compile_lookup_sample : ∃ (a : Artifact) (r : Reading),
    Sample.library.compile {} = .ok a ∧ Image.load a.bytes = .ok r.img ∧
    (∃ ref e, r.EntryOf 1 (.function Sample.find) ref e ∧
      r.img.findLocal? "find" = some (ref, e)) ∧
    r.img.findLocal? "Sample" = none := by
  obtain ⟨a, h⟩ : ∃ a, Sample.library.compile {} = .ok a := Sample.exists_compile
  obtain ⟨r, hload, -, -, -, hwhole⟩ := compile_lookup h
  obtain ⟨hfound, hmissing⟩ := hwhole (by decide +kernel)
  exact ⟨a, r, h, hload, hfound 1 (.function Sample.find) rfl, hmissing "Sample" (by decide)⟩

namespace Sample

/-- A description with a NUL in the name of its only entry. -/
def torn : Document where
  namespaceName := "Sample"
  nodes := [.enum { name := "a\x00b" }]

theorem exists_compile_torn : ∃ a, torn.compile {} = .ok a := exists_of_isOk (by decide +kernel)

end Sample

/-- A name with a NUL is not found, and what comes in front of its NUL is found in its place. -/
theorem torn_name_not_found : ∃ a img, Sample.torn.compile {} = .ok a ∧
    Image.load a.bytes = .ok img ∧ "a\x00b" ∈ Sample.torn.nodes.map Node.name ∧
    img.findLocal? "a\x00b" = none ∧
    "a" ∉ Sample.torn.nodes.map Node.name ∧ ∃ x, img.findLocal? "a" = some x := by
  obtain ⟨a, h⟩ := Sample.exists_compile_torn
  obtain ⟨r, hload, -, hfound, hmissing⟩ := Document.findLocal?_of_compile h
  obtain ⟨_, ref, e, -, -, hfind⟩ := hfound "a" 0 (by decide +kernel)
  exact ⟨a, r.img, h, hload, by decide, hmissing "a\x00b" (by decide +kernel), by decide,
    (ref, e), hfind⟩

end Typelib
