import Typelib.Proofs.Acceptance.Accepted
import Typelib.Proofs.Image.Directory
import Typelib.Proofs.Listing.Entries

/-!
# The text of a file is that of its description

Every file of a description can be shown, and what is shown is what the description says: nothing of
it is lost, nothing is added, and all of it stands in the order of the description.

* `Image.Catalogues.forall₂`: the entries of a file go with those of the description;
* `Document.legend`: names in the file of a description;
* `compile_dump`: the text of the file.
-/

namespace Typelib

open Listing

/-! ### Entries of a file -/

namespace Image

variable {img : Image}

/-- The file has as many bytes as its header says. -/
theorem size_of_load {bytes : Bytes} (h : Image.load bytes = .ok img) :
    img.header.size.toNat = bytes.size := by
  unfold load at h
  split at h
  next => cases h
  next =>
    simp only at h
    split at h
    next => cases h
    next hnone =>
      cases h
      -- every other length is refused
      by_contra hne
      unfold refusal? at hnone
      split_ifs at hnone

namespace Catalogues

variable {nodes : List Node} {externals : List (String × String)}

/-- The entries of a file, by their positions. -/
theorem entries_eq (h : img.Catalogues nodes externals) : ∃ f : Nat → DirRef × DirEntry,
    img.entries = (List.range (nodes.length + externals.length)).map f ∧
      ∀ i < nodes.length + externals.length,
        DirRef.ofIndex? i = some (f i).1 ∧ img.entry? (f i).1 = some (f i).2 := by
  refine ⟨img.entryAt, ?_, fun i hi => ?_⟩
  · rw [Image.entries_eq, h.entryCount]
  · rw [← h.entryCount] at hi
    exact ⟨ofIndex?_entryAt hi, entry?_entryAt hi⟩

/-- The entries of a file go with the nodes and with the entries of other namespaces, in order. -/
theorem forall₂ (h : img.Catalogues nodes externals) {β : Type} {R : DirRef × DirEntry → β → Prop}
    {A : Nat → Node → β} {B : Nat → String × String → β}
    (hA : ∀ i node ref e, nodes[i]? = some node → DirRef.ofIndex? i = some ref →
      img.entry? ref = some e → R (ref, e) (A i node))
    (hB : ∀ j p ref e, externals[j]? = some p →
      DirRef.ofIndex? (nodes.length + j) = some ref → img.entry? ref = some e →
      R (ref, e) (B j p)) :
    List.Forall₂ R img.entries (nodes.mapIdx A ++ externals.mapIdx B) := by
  obtain ⟨f, hentries, hf⟩ := h.entries_eq
  rw [hentries, List.forall₂_iff_get]
  refine ⟨by simp, fun i hi hi' => ?_⟩
  have hlt : i < nodes.length + externals.length := by simpa using hi
  obtain ⟨href, hentry⟩ := hf i hlt
  simp only [List.get_eq_getElem, List.getElem_map, List.getElem_range, List.getElem_append,
    List.length_mapIdx, List.getElem_mapIdx]
  split
  next hnode => exact hA i _ _ _ (List.getElem?_eq_getElem hnode) href hentry
  next hnode =>
    have hpos : nodes.length + (i - nodes.length) = i := by omega
    have hexternal : i - nodes.length < externals.length := by omega
    exact hB _ _ _ _ (List.getElem?_eq_getElem hexternal) (by rw [hpos]; exact href) hentry

theorem node_entry (h : img.Catalogues nodes externals) {i : Nat} {node : Node} {ref : DirRef}
    {e : DirEntry} (hi : nodes[i]? = some node) (href : DirRef.ofIndex? i = some ref)
    (he : img.entry? ref = some e) : ∃ kind, e.isLocal = true ∧ e.kind? = some kind ∧
      node.entryKind? = some kind ∧ img.string e.name = .ok (Text.cut node.name) := by
  obtain ⟨ref', e', kind, href', he', hentry⟩ := h.node i node hi
  rw [href] at href'
  cases href'
  rw [he] at he'
  cases he'
  exact ⟨kind, hentry⟩

theorem external_entry (h : img.Catalogues nodes externals) {j : Nat} {p : String × String}
    {ref : DirRef} {e : DirEntry} (hj : externals[j]? = some p)
    (href : DirRef.ofIndex? (nodes.length + j) = some ref) (he : img.entry? ref = some e) :
    e.isLocal = false ∧ img.string e.name = .ok (Text.cut p.2) ∧
      img.string e.offset = .ok (Text.cut p.1) := by
  obtain ⟨ref', e', href', he', hforeign, -, hname, hns⟩ := h.external j p.1 p.2 hj
  rw [href] at href'
  cases href'
  rw [he] at he'
  cases he'
  exact ⟨hforeign, hname, hns⟩

/-- The names of the entries of a file. -/
theorem mapM_entryName (h : img.Catalogues nodes externals) :
    (img.entries.mapM fun (r, _) => img.entryName r) = .ok
      ((nodes.mapIdx fun _ node => Text.cut node.name) ++
        externals.mapIdx fun _ p => (Entity.foreign p.1 p.2).text) := by
  refine mapM_eq_ok (h.forall₂ (fun i node ref e hi href he => ?_) fun j p ref e hj href he => ?_)
  · obtain ⟨_, hlocal, -, -, hname⟩ := h.node_entry hi href he
    simp only [entryName, he, read_bind hname, hlocal]
    rfl
  · obtain ⟨hforeign, hname, hns⟩ := h.external_entry hj href he
    simp only [entryName, he, read_bind hname, hforeign, read_bind hns]
    rfl

end Catalogues

end Image

/-! ### Names -/

namespace Scope

variable {s : Scope} {r : Reading} {name : String}

/-- A name that stands for the local entry at a position stands for it in the description. -/
theorem entity_of_entry (hl : r.locals = s.locals) (hns : r.namespaceName = s.namespaceName) {i : Nat}
    (h : r.referent name = .entry i) : ∃ n, s.locals[i]? = some n ∧ s.entity name = .entry n := by
  have found {n : String} {j : Nat} (hj : s.locals.idxOf? n = some j) :
      s.locals[j]? = some n ∧ n ∈ s.locals := by
    obtain ⟨hlt, hn, -⟩ := List.idxOf?_eq_some_iff.1 hj
    have hget : s.locals[j]? = some n := by
      rw [List.getElem?_eq_getElem hlt]
      simpa using hn
    exact ⟨hget, List.mem_of_getElem? hget⟩
  unfold Reading.referent at h
  rw [hl, hns] at h
  split at h
  next j hj =>
    cases h
    obtain ⟨hget, hmem⟩ := found hj
    exact ⟨name, hget, if_pos hmem⟩
  next hnone =>
    rw [List.idxOf?_eq_none_iff] at hnone
    split at h
    next => cases h
    next ns symbol hsplit =>
      split_ifs at h with hsame
      split at h
      next j hj =>
        cases h
        obtain ⟨hget, hmem⟩ := found hj
        refine ⟨symbol, hget, ?_⟩
        simp only [entity, if_neg hnone, hsplit]
        exact if_pos ⟨hsame, hmem⟩
      next => cases h

theorem entity_of_external (hl : r.locals = s.locals) (hns : r.namespaceName = s.namespaceName)
    {ns symbol : String} (h : r.referent name = .external ns symbol) :
    s.foreign? name = some (ns, symbol) ∧ s.entity name = .foreign ns symbol := by
  unfold Reading.referent at h
  rw [hl, hns] at h
  split at h
  next => cases h
  next hnone =>
    rw [List.idxOf?_eq_none_iff] at hnone
    split at h
    next hsplit =>
      cases h
      exact entity_of_bare hnone hsplit
    next ns' symbol' hsplit =>
      split_ifs at h with hsame
      · split at h
        next => cases h
        next hmissing =>
          cases h
          exact entity_of_qualified hnone hsplit fun hlocal =>
            List.idxOf?_eq_none_iff.1 hmissing hlocal.2
      · cases h
        exact entity_of_qualified hnone hsplit fun hlocal => hsame hlocal.1

/-- The local entries come first. -/
theorem directory_local {i : Nat} {n : String} (h : s.locals[i]? = some n) :
    s.directory[i]? = some (.entry n) := by
  rw [directory, List.getElem?_append_left (by simpa using (List.getElem?_eq_some_iff.1 h).1),
    List.getElem?_map, h]
  rfl

theorem directory_foreign {j : Nat} {p : String × String} (h : (s.mentions s.names)[j]? = some p) :
    s.directory[s.locals.length + j]? = some (.foreign p.1 p.2) := by
  rw [directory, List.getElem?_append_right (by simp), List.length_map, Nat.add_sub_cancel_left,
    List.getElem?_map, h]
  rfl

theorem entityAt?_of_ofIndex? {i : Nat} {ref : DirRef} (h : DirRef.ofIndex? i = some ref) :
    s.entityAt? ref = s.directory[i]? := by
  rw [entityAt?, DirRef.index?_eq_of_ofIndex? h]
  rfl

/-- No entry of a directory occurs twice. -/
theorem nodup_directory (h : s.locals.Nodup) : s.directory.Nodup := by
  refine List.nodup_append.2 ⟨h.map fun a b he => Entity.entry.inj he,
    (nodup_mentions s.names).map fun p q he => ?_, ?_⟩
  · injection he with hns hsymbol
    exact Prod.ext hns hsymbol
  · rintro a ha b hb rfl
    obtain ⟨_, -, rfl⟩ := List.mem_map.1 ha
    obtain ⟨_, -, hsame⟩ := List.mem_map.1 hb
    cases hsame

/-- In the file of a draft whose directory lists what some names mention, each of these has the slot of
what it stands for. -/
theorem Lists.legend {waiting : List Signature} {d : Draft} {works : List Work} {img : Image}
    {dump : Dump} (h : s.Lists s.names waiting d) (ha : Assembled works d img)
    (hnodup : s.locals.Nodup) (hslots : ∀ name ∈ s.names, d.symbols.slotOf name ≠ .none)
    (himg : dump.img = img) (hnames : dump.names.toList = s.directory.map Entity.text) :
    Legend s (d.reading img) dump := by
  have hl : (d.reading img).locals = s.locals := h.governs.locals
  have hns : (d.reading img).namespaceName = s.namespaceName := h.governs.namespaceName
  refine ⟨himg, hnames, nodup_directory hnodup, fun name hn => ?_⟩
  have hrefers := ha.refers (hslots name hn)
  unfold Reading.Refers at hrefers
  cases href : (d.reading img).referent name with
  | entry i =>
    rw [href] at hrefers
    obtain ⟨n, hi, hentity⟩ := entity_of_entry hl hns href
    rw [entityAt?_of_ofIndex? hrefers, hentity]
    exact directory_local hi
  | external ns symbol =>
    obtain ⟨hforeign, hentity⟩ := entity_of_external hl hns href
    obtain ⟨j, hj⟩ := List.getElem?_of_mem (mem_mentions.2 ⟨name, hn, hforeign⟩)
    obtain ⟨ref, hi, hk⟩ := h.slot j _ hj
    have hmeaning := Draft.meaning_eq h.governs.symbols img name
    rw [href] at hmeaning
    have hslot : (d.reading img).slot name = ref := by
      change d.symbols.slotOf name = ref
      simp only [SymbolTable.slotOf, hmeaning]
      exact congrArg (Option.getD · .none) hk
    rw [hslot, entityAt?_of_ofIndex? hi, hentity]
    exact directory_foreign hj

theorem mapIdx_const {α β : Type} (f : α → β) (as : List α) :
    (as.mapIdx fun _ a => f a) = as.map f := List.ext_getElem (by simp) (by simp)

/-- The names of all entries, in order. -/
theorem directory_text {nodes : List Node} (hlocals : s.locals = nodes.map Node.name) :
    s.directory.map Entity.text = (nodes.mapIdx fun _ node => Text.cut node.name) ++
      (s.mentions s.names).mapIdx fun _ p => (Entity.foreign p.1 p.2).text := by
  rw [mapIdx_const (fun node : Node => Text.cut node.name), mapIdx_const
    (fun p : String × String => (Entity.foreign p.1 p.2).text), directory, List.map_append,
    List.map_map, List.map_map, hlocals]
  exact congrArg (· ++ _) (List.map_map ..)

end Scope

/-- The entry of a node that is read back is shown as the node. -/
theorem Legend.node_lines {s : Scope} {r : Reading} {d : Dump} {i : Nat} {node : Node}
    {view : EntryView} {ref : DirRef} {e : DirEntry} {kind : EntryKind} (h : Legend s r d)
    (hr : r.ReadsNode i node view) (href : DirRef.ofIndex? i = some ref)
    (he : d.img.entry? ref = some e) (hkind : e.kind? = some kind)
    (hn : ∀ name ∈ node.names, name ∈ s.names) :
    d.entry kind e.offset = .ok (s.nodeLines node) := by
  obtain ⟨ref', e', kind', href', he', -, hkind', hnode, -, hview⟩ := hr.entry
  rw [href] at href'
  cases href'
  rw [← h.img] at he' hview
  rw [he] at he'
  cases he'
  rw [hkind] at hkind'
  cases hkind'
  exact h.entry hnode hview hr.reads hn

namespace Document

variable {doc : Document} {options : Options} {a : Artifact} {works : List Work} {img : Image}

/-- The file of a description, with the names of its entries. -/
def dump (doc : Document) (options : Options) (img : Image) : Dump where
  img
  names := ((doc.scope options).directory.map Entity.text).toArray
  palette := .plain

/-- In the file of a description each name has the slot of what it stands for. -/
theorem legend (h : doc.compile options = .ok a)
    (ha : Assembled works (doc.draft options) img) :
    Legend (doc.scope options) ((doc.draft options).reading img) (doc.dump options img) :=
  (lists_draft h).legend ha (acceptable_of_compile h).distinct
    (fun _ hn => (settled_of_compile h hn).ne_none) rfl rfl

end Document

/-! ### Sections -/

theorem Node.name_of_entryKind? {node : Node} {kind : EntryKind} (h : node.entryKind? = some kind) :
    kind.name = node.kindName := by
  cases node <;> cases h <;> rfl

/-- A reference is shown as its position. -/
theorem Dump.refText_eq {d : Dump} {ref : DirRef} {i : Nat} (h : DirRef.ofIndex? i = some ref) :
    d.refText ref = Listing.refText d.names.size i := by
  rw [Dump.refText, Listing.refText, Dump.refWidth, DirRef.toNat_of_ofIndex? h]

namespace Document

variable {doc : Document} {options : Options} {a : Artifact} {img : Image}

theorem size_names : (doc.dump options img).names.size = doc.slotCount options := by
  simp [dump, Scope.directory, slotCount, scope, externals]

variable {r : Reading}

theorem headerLines_eq (hcat : img.Catalogues doc.nodes (doc.externals options))
    (hns : img.namespaceName = .ok (Text.cut doc.namespaceName))
    (hlibrary : img.sharedLibrary = .ok (doc.sharedLibrary.map Text.cut))
    (hversion : img.header.major = majorVersion ∧ img.header.minor = minorVersion) {size : Nat}
    (hsize : img.header.size.toNat = size) :
    (doc.dump options img).headerLines = .ok (doc.headerLines options size) := by
  have hname : (doc.dump options img).img.namespaceName = .ok (Text.cut doc.namespaceName) := hns
  have hlib : (doc.dump options img).img.sharedLibrary = .ok (doc.sharedLibrary.map Text.cut) :=
    hlibrary
  rw [Dump.headerLines, read_bind hname, read_bind hlib]
  simp only [dump, hversion, hsize, hcat.entryCount, hcat.localCount, Dump.heading, Palette.plain,
    String.append_empty, String.empty_append]
  rfl

section Slots

variable (hlegend : Legend (doc.scope options) r (doc.dump options img))
include hlegend

theorem nameOf_node {i : Nat} {node : Node} {ref : DirRef} (hi : doc.nodes[i]? = some node)
    (href : DirRef.ofIndex? i = some ref) :
    (doc.dump options img).nameOf ref = Text.cut node.name := by
  have hlocal : (doc.scope options).locals[i]? = some node.name := by
    rw [scope, List.getElem?_map, hi]
    rfl
  exact hlegend.nameOf_of_entityAt?
    ((Scope.entityAt?_of_ofIndex? href).trans (Scope.directory_local hlocal))

theorem nameOf_external {j : Nat} {p : String × String} {ref : DirRef}
    (hj : (doc.externals options)[j]? = some p)
    (href : DirRef.ofIndex? (doc.nodes.length + j) = some ref) :
    (doc.dump options img).nameOf ref = (Entity.foreign p.1 p.2).text := by
  have hlength : (doc.scope options).locals.length = doc.nodes.length := List.length_map _
  rw [← hlength] at href
  exact hlegend.nameOf_of_entityAt?
    ((Scope.entityAt?_of_ofIndex? href).trans (Scope.directory_foreign hj))

variable (hcat : img.Catalogues doc.nodes (doc.externals options))
include hcat

theorem directoryLines_eq :
    (doc.dump options img).directoryLines = doc.directoryLines options := by
  rw [Dump.directoryLines, directoryLines]
  refine congrArg₂ List.cons rfl ?_
  rw [← List.forall₂_eq_eq_eq, List.forall₂_map_left_iff]
  refine hcat.forall₂ (fun i node ref e hi href he => ?_) fun j p ref e hj href he => ?_
  · obtain ⟨kind, hlocal, hkind, hnode, -⟩ := hcat.node_entry hi href he
    have hword : Dump.kindText e = column node.kindName := by
      rw [Dump.kindText, hlocal, hkind]
      simp only [Option.map_some, Option.getD_some, if_pos, Node.name_of_entryKind? hnode]
      rfl
    simp only [Dump.refText_eq href, hword, nameOf_node hlegend hi href, size_names]
    simp only [dump, Palette.plain, String.append_empty]
  · obtain ⟨hforeign, -⟩ := hcat.external_entry hj href he
    have hword : Dump.kindText e = column "extern" := by
      rw [Dump.kindText, hforeign]
      rfl
    simp only [Dump.refText_eq href, hword, nameOf_external hlegend hj href, size_names]
    simp only [dump, Palette.plain, String.append_empty]

omit hcat in
/-- The entry of a node is shown as the node. -/
theorem node_lines {views : List EntryView} (hr : r.ReadsNodes doc.nodes views) {i : Nat}
    {node : Node} {ref : DirRef} {e : DirEntry} {kind : EntryKind} (hi : doc.nodes[i]? = some node)
    (href : DirRef.ofIndex? i = some ref) (he : img.entry? ref = some e)
    (hkind : e.kind? = some kind) :
    (doc.dump options img).entry kind e.offset = .ok ((doc.scope options).nodeLines node) := by
  obtain ⟨view, -, hread⟩ := hr.exists_view hi
  exact hlegend.node_lines hread href he hkind fun name hn =>
    List.mem_flatMap.2 ⟨node, List.mem_of_getElem? hi, hn⟩

theorem entryLines_eq {views : List EntryView} (hr : r.ReadsNodes doc.nodes views) :
    (doc.dump options img).entryLines = .ok (doc.entryLines options) := by
  have hall : (doc.dump options img).img.entries.mapM
      (fun (ref, e) => (doc.dump options img).localEntry ref e) = .ok
      ((doc.nodes.mapIdx fun i node =>
        (Listing.refText (doc.slotCount options) i ++ " " ++ node.kindName ++ " " ++
          Text.cut node.name) :: (doc.scope options).nodeLines node) ++
        (doc.externals options).mapIdx fun _ _ => []) := by
    refine mapM_eq_ok
      (hcat.forall₂ (fun i node ref e hi href he => ?_) fun j p ref e hj href he => ?_)
    · obtain ⟨kind, hlocal, hkind, hnode, -⟩ := hcat.node_entry hi href he
      have hlines := node_lines hlegend hr hi href he hkind
      simp only [Dump.localEntry, hlocal, hkind]
      rw [read_bind hlines, Dump.refText_eq href, nameOf_node hlegend hi href, size_names,
        Node.name_of_entryKind? hnode]
      simp only [dump, Palette.plain, String.append_empty]
      rfl
    · obtain ⟨hforeign, -⟩ := hcat.external_entry hj href he
      simp only [Dump.localEntry, hforeign]
  -- entries of other namespaces have no lines
  have hnone : ((doc.externals options).mapIdx fun _ _ => ([] : List String)).flatten = [] := by
    simp [List.flatten_eq_nil_iff]
  rw [Dump.entryLines, read_bind hall, List.flatten_append, hnone, List.append_nil]
  rfl

end Slots

end Document

/-- **The text of a file is that of its description.** Every file of a description can be shown, and
its text is the one that is printed from the description alone: its names, a line of the directory for
each node and for each entry of another namespace, and below the name of each node the members that
the node describes. -/
theorem compile_dump {doc : Document} {options : Options} {a : Artifact}
    (h : doc.compile options = .ok a) :
    ∃ img, Image.load a.bytes = .ok img ∧
      img.dump .plain = .ok (doc.listing options a.bytes.size) := by
  obtain ⟨img, hload, hcat⟩ := Document.catalogues h
  obtain ⟨hload', -, ht, -, works, idss, ha, he⟩ := compile_ok h
  rw [hload] at hload'
  cases hload'
  obtain ⟨views, hviews⟩ := ha.readsNodes he
  have hlegend := Document.legend h ha
  have hheader := Document.headerLines_eq hcat (ha.readsNamespace ht) (ha.readsLibrary ht)
    ⟨rfl, rfl⟩ (Image.size_of_load hload)
  have hnames := hcat.mapM_entryName
  rw [Document.externals, ← Scope.directory_text (s := doc.scope options) rfl] at hnames
  refine ⟨_, hload, ?_⟩
  rw [Image.dump, read_bind hnames]
  refine (read_bind hheader).trans
    ((read_bind (Document.entryLines_eq hlegend hcat hviews)).trans ?_)
  have hdirectory := Document.directoryLines_eq hlegend hcat
  rw [Document.dump] at hdirectory
  rw [hdirectory]
  rfl

namespace Sample

/-- The entries of the library, printed. -/
def entryLines : List String :=
  ["[entries]",
    "#1 struct Point",
    "  gtype ",
    "  field xs: list<int32>* [bits=3]",
    "  field ys: list<int32>*",
    "#2 function find",
    "  symbol sample_find",
    "  fn find(error: error<Base.Failure, Sample.Mask>*) -> list<Point*>*",
    "#3 constant LIMIT",
    "  const LIMIT: int8 = -7"]

/-- The directory of the library, printed. -/
def directoryLines : List String :=
  ["[directory]",
    "#1 struct       Point",
    "#2 function     find",
    "#3 constant     LIMIT",
    "#4 extern       Base.Failure",
    "#5 extern       Sample.Mask"]

theorem listing_library (size : Nat) : library.listing {} size =
    Text.ofLines (library.headerLines {} size ++ "" :: directoryLines ++ "" :: entryLines) := by
  have hdirectory : library.directoryLines {} = directoryLines := by decide +kernel
  have hentries : library.entryLines {} = entryLines := by decide +kernel
  rw [Document.listing, hdirectory, hentries]

end Sample

/-- The file of a library, shown. -/
theorem compile_dump_sample : ∃ a img, Sample.library.compile {} = .ok a ∧
    Image.load a.bytes = .ok img ∧
    img.dump .plain = .ok (Text.ofLines (Sample.library.headerLines {} a.bytes.size ++
      "" :: Sample.directoryLines ++ "" :: Sample.entryLines)) := by
  obtain ⟨a, h⟩ : ∃ a, Sample.library.compile {} = .ok a := Sample.exists_compile
  obtain ⟨img, hload, hdump⟩ := compile_dump h
  exact ⟨a, img, h, hload, hdump.trans (congrArg _ (Sample.listing_library _))⟩

end Typelib
