import Typelib.Proofs.Directory.Run
import Typelib.Proofs.Reading.Document

/-!
# What a directory lists

The directory of a file lists the nodes of the description in their order. Behind them stands each
entry that is referred to and is not local, once, in the order in which the description first refers
to it, and nothing else.

* `Document.externals`: the entries of a description that are not local;
* `Image.Catalogues`: the directory of a file lists nodes and entries of other namespaces;
* `compile_directory`: the file of a description.
-/

namespace Typelib

/-- The entries that a description refers to and that are not local, each once, in the order in which
they are first referred to. -/
def Document.externals (doc : Document) (options : Options) : List (String × String) :=
  (doc.scope options).mentions (doc.scope options).names

/-- The directory of a file lists the nodes, and behind them entries of other namespaces, each with
its namespace and its symbol. -/
structure Image.Catalogues (img : Image) (nodes : List Node) (externals : List (String × String)) :
    Prop where
  localCount : img.header.localCount.toNat = nodes.length
  entryCount : img.header.entryCount.toNat = nodes.length + externals.length
  node : ∀ (i : Nat) (node : Node), nodes[i]? = some node →
    ∃ ref e kind, DirRef.ofIndex? i = some ref ∧ img.entry? ref = some e ∧ e.isLocal = true ∧
      e.kind? = some kind ∧ node.entryKind? = some kind ∧
      img.string e.name = .ok (Text.cut node.name)
  external : ∀ (j : Nat) (ns symbol : String), externals[j]? = some (ns, symbol) →
    ∃ ref e, DirRef.ofIndex? (nodes.length + j) = some ref ∧ img.entry? ref = some e ∧
      e.isLocal = false ∧ e.kind? = some .invalid ∧ img.string e.name = .ok (Text.cut symbol) ∧
      img.string e.offset = .ok (Text.cut ns)

variable {doc : Document} {options : Options} {a : Artifact}

/-- The directory of a description that compiled, as the build left it. -/
theorem Document.lists_draft (h : doc.compile options = .ok a) :
    (doc.scope options).Lists (doc.scope options).names [] (doc.draft options) :=
  Build.lists_document (yields_of_compile h).1

namespace Assembled

variable {works : List Work} {d : Draft} {img : Image}

/-- The slot of an entry of another namespace is read back. -/
theorem readsExternal (ha : Assembled works d img) {i : Nat} {ref : DirRef} {ns symbol : String}
    (hi : DirRef.ofIndex? i = some ref) (hx : d.symbols.External i ns symbol) :
    ∃ e, img.entry? ref = some e ∧ e.isLocal = false ∧ e.kind? = some .invalid ∧
      img.string e.name = .ok (Text.cut symbol) ∧ img.string e.offset = .ok (Text.cut ns) := by
  obtain ⟨offset, nsOffset, hslot, ho, hns⟩ := hx
  have hsymbol := (ha.string symbol (by rw [ho]; rfl)).2
  have hnamespace := (ha.string ns (by rw [hns]; rfl)).2
  simp only [Draft.stringOffset, ho, hns, Option.getD_some] at hsymbol hnamespace
  exact ⟨d.dirEntry ⟨.invalid, offset, .foreign nsOffset⟩, ha.entry i ref _ hi hslot, rfl,
    EntryKind.ofCode?_code .invalid, hsymbol, hnamespace⟩

end Assembled

/-- A directory that lists the nodes and the entries that were mentioned is read back as it is. -/
theorem Scope.Lists.catalogues {s : Scope} {seen : List String} {waiting : List Signature} {d : Draft}
    {works : List Work} {img : Image} {nodes : List Node} (h : s.Lists seen waiting d)
    (ha : Assembled works d img) (hc : d.Complete) (hlocals : s.locals = nodes.map Node.name)
    (hnodes : ∀ (i : Nat) (node : Node), nodes[i]? = some node →
      ∃ view, (d.reading img).ReadsNode i node view) :
    img.Catalogues nodes (s.mentions seen) := by
  have hlength : s.locals.length = nodes.length := by rw [hlocals, List.length_map]
  refine ⟨ha.localCount (h.governs.locals.trans hlocals) hc, ?_, fun i node hi => ?_,
    fun j ns symbol hj => ?_⟩
  · have hsize := h.size
    rw [hlength] at hsize
    rw [ha.header]
    exact (UInt16.toNat_ofNat_of_lt' hc.slots).trans hsize
  · obtain ⟨view, hread⟩ := hnodes i node hi
    obtain ⟨ref, e, kind, href, hentry, hlocal, hkind, hnode, hname, -⟩ := hread.entry
    exact ⟨ref, e, kind, href, hentry, hlocal, hkind, hnode, hname⟩
  · obtain ⟨ref, href, hk⟩ := h.slot j (ns, symbol) hj
    obtain ⟨name, -, hforeign⟩ := Scope.mem_mentions.1 (List.mem_of_getElem? hj)
    obtain ⟨i, hi, hx⟩ := h.governs.symbols.slot_of_external (Scope.foreign?_dotless hforeign) hk
    obtain ⟨e, hread⟩ := ha.readsExternal hi hx
    exact ⟨ref, e, hlength ▸ href, hread⟩

/-- The file of a description, with the entries that the description has and mentions. -/
theorem Document.catalogues (h : doc.compile options = .ok a) :
    ∃ img, Image.load a.bytes = .ok img ∧ img.Catalogues doc.nodes (doc.externals options) := by
  obtain ⟨hload, -, -, hcomplete, works, idss, ha, he⟩ := compile_ok h
  obtain ⟨views, hviews⟩ := ha.readsNodes he
  refine ⟨_, hload, (Document.lists_draft h).catalogues ha hcomplete rfl fun i node hi => ?_⟩
  obtain ⟨view, -, hread⟩ := hviews.exists_view hi
  exact ⟨view, hread⟩

/-- **The directory lists exactly what the description mentions.** In the file of a description the
nodes come first, in their order. Behind them stand the entries of other namespaces that references
of the description stand for, wherever these stand: all of them, none twice, and no others. -/
theorem compile_directory (h : doc.compile options = .ok a) :
    (∃ img, Image.load a.bytes = .ok img ∧ img.Catalogues doc.nodes (doc.externals options)) ∧
      (doc.externals options).Nodup ∧
      ∀ p, p ∈ doc.externals options ↔
        ∃ node ∈ doc.nodes, ∃ name ∈ node.names, (doc.scope options).foreign? name = some p := by
  refine ⟨Document.catalogues h, Scope.nodup_mentions _, fun p => ?_⟩
  rw [Document.externals, Scope.mem_mentions]
  simp only [Document.scope, List.mem_flatMap]
  constructor
  · rintro ⟨name, ⟨node, hnode, hname⟩, hp⟩
    exact ⟨node, hnode, name, hname, hp⟩
  · rintro ⟨node, hnode, name, hname, hp⟩
    exact ⟨name, ⟨node, hnode, hname⟩, hp⟩

namespace Sample

/-- A structure, a function that returns a list of it, and a constant. -/
def library : Document where
  namespaceName := "Sample"
  sharedLibrary := some "libsample.so"
  nodes

theorem externals_library :
    library.externals {} = [("Base", "Failure"), ("Sample", "Mask")] := by decide +kernel

end Sample

/-- The description refers to an entry of another namespace, and to one of its own that it lacks. -/
theorem compile_directory_sample : ∃ a img, Sample.library.compile {} = .ok a ∧
    Image.load a.bytes = .ok img ∧
    img.Catalogues Sample.nodes [("Base", "Failure"), ("Sample", "Mask")] := by
  obtain ⟨a, h⟩ : ∃ a, Sample.library.compile {} = .ok a := Sample.exists_compile
  obtain ⟨⟨img, hload, hdirectory⟩, -⟩ := compile_directory h
  exact ⟨a, img, h, hload, Sample.externals_library ▸ hdirectory⟩

end Typelib
