import Mathlib.Data.List.Flatten
import Typelib.Proofs.Reading.Entries
import Typelib.Proofs.Reading.Uses

/-!
# Descriptions are read back

The file of a description has an entry for each node, in the same order, and all bodies that its
entries refer to are different ones.

* `Reading.Holds`, `Reading.ReadsNodes`: a file has the names and the entries of a description;
* `compile_reading`: the file of a description that compiles.
-/

namespace Typelib

namespace Reading

/-- The entry at a position of the directory is local, and holds what a node describes. -/
structure ReadsNode (r : Reading) (i : Nat) (node : Node) (view : EntryView) : Prop where
  entry : ∃ ref e kind, DirRef.ofIndex? i = some ref ∧ r.img.entry? ref = some e ∧
    e.isLocal = true ∧ e.kind? = some kind ∧ node.entryKind? = some kind ∧
    r.ReadsName e.name node.name ∧ r.img.view e.offset kind = .ok view
  reads : r.ReadsEntry view node

/-- A file is that of a namespace whose entries have certain names. -/
structure Holds (r : Reading) (ns : String) (sharedLibrary : Option String) (nodes : List Node) :
    Prop where
  namespaceName : r.namespaceName = ns
  locals : r.locals = nodes.map Node.name
  readsNamespace : r.img.namespaceName = .ok (Text.cut ns)
  readsLibrary : r.img.sharedLibrary = .ok (sharedLibrary.map Text.cut)
  localCount : r.img.header.localCount.toNat = nodes.length

/-- The entries of a file hold what nodes describe, and no body is referred to twice. -/
structure ReadsNodes (r : Reading) (nodes : List Node) (views : List EntryView) : Prop where
  length : views.length = nodes.length
  node : ∀ (i : Nat) (node : Node) (view : EntryView), nodes[i]? = some node →
    views[i]? = some view → r.ReadsNode i node view
  bodies : (views.flatMap EntryView.bodies).Nodup

variable {r : Reading} {i : Nat} {node : Node} {view : EntryView} {nodes : List Node}
  {views : List EntryView}

theorem ReadsNode.entryView? (h : r.ReadsNode i node view) : r.img.entryView? i = some view := by
  obtain ⟨ref, e, kind, href, he, hlocal, hkind, -, -, hview⟩ := h.entry
  simp [Image.entryView?, href, he, hlocal, hkind, hview, Except.toOption]

/-- Each node has its entry. -/
theorem ReadsNodes.exists_view (h : r.ReadsNodes nodes views) (hi : nodes[i]? = some node) :
    ∃ view, views[i]? = some view ∧ r.ReadsNode i node view := by
  have hlt : i < views.length := by
    rw [h.length]
    exact (List.getElem?_eq_some_iff.1 hi).1
  exact ⟨views[i], List.getElem?_eq_getElem hlt, h.node i node _ hi (List.getElem?_eq_getElem hlt)⟩

/-- The offsets of signatures are among those of all bodies. -/
theorem sublist_bodies (view : EntryView) : view.signatures.Sublist view.bodies := by
  have functions (rows : List FunctionRow) :
      rows.flatMap FunctionRow.bodies = rows.map FunctionRow.signature := List.map_eq_flatMap.symm
  have signals (rows : List SignalRow) :
      rows.flatMap SignalRow.bodies = rows.map SignalRow.signature := List.map_eq_flatMap.symm
  have vfuncs (rows : List VFuncRow) :
      rows.flatMap VFuncRow.bodies = rows.map VFuncRow.signature := List.map_eq_flatMap.symm
  cases view <;>
    simp only [EntryView.signatures, EntryView.bodies, functions, signals, vfuncs,
      List.sublist_append_left, List.Sublist.refl, FunctionRow.bodies, CallbackRow.bodies,
      List.nil_sublist]

/-- No two callables have one signature. -/
theorem ReadsNodes.nodup_signatures (h : r.ReadsNodes nodes views) :
    (views.flatMap EntryView.signatures).Nodup :=
  h.bodies.sublist (List.Sublist.flatMap_right _ fun view _ => sublist_bodies view)

end Reading

namespace Assembled

variable {works : List Work} {d : Draft} {img : Image} {nodes : List Node}
  {idss : List (List BodyId)} {ns : String} {sharedLibrary : Option String} {options : Options}

/-! ### The names of the file -/

theorem readsNamespace (ha : Assembled works d img) (ht : d.Titled ns sharedLibrary options) :
    img.namespaceName = .ok (Text.cut ns) := by
  have hget := ha.accounts.symbols.namespaceName
  rw [ht.namespaceName] at hget
  have hread := (ha.string ns (by rw [hget]; rfl)).2
  rw [Draft.stringOffset, hget] at hread
  rw [Image.namespaceName, ha.header]
  exact hread

theorem readsLibrary (ha : Assembled works d img) (ht : d.Titled ns sharedLibrary options) :
    img.sharedLibrary = .ok (sharedLibrary.map Text.cut) := by
  have hlib := ht.sharedLibrary
  rw [Image.sharedLibrary, ha.header]
  have hoffset : d.header.sharedLibrary = d.optOffset sharedLibrary := by
    cases sharedLibrary with
    | none =>
      have hnone : d.sharedLibrary = none := Option.map_eq_none_iff.1 hlib
      simp only [Draft.header, hnone, Draft.optOffset, Option.map_none]
    | some s =>
      obtain ⟨offset, ho, hget⟩ := Option.map_eq_some_iff.1 hlib
      simp only [Draft.header, ho, Draft.optOffset, Option.map_some, Option.getD_some,
        Draft.stringOffset, ← hget]
      rfl
  rw [hoffset]
  refine ha.readsOptName fun s hs => ?_
  subst hs
  obtain ⟨offset, -, hget⟩ := Option.map_eq_some_iff.1 hlib
  rw [← hget]
  rfl

/-! ### Nodes -/

/-- The entry of a node is read from its slot. -/
theorem readsSlotted {i : Nat} {id : BodyId} {node : Node} {ids : List BodyId}
    (ha : Assembled works d img)
    (hslot : ∃ kind offset ref, node.entryKind? = some kind ∧ DirRef.ofIndex? i = some ref ∧
      d.symbols.lookup node.name = some ⟨id, ref⟩ ∧
      d.symbols.slots[i]? = some ⟨kind, offset, .body id⟩ ∧
      d.symbols.pool.get? node.name = some offset)
    (hstands : Stands works d img id (.entry node) ids) :
    ∃ view, (d.reading img).ReadsNode i node view ∧ view.bodies = ids.map d.bodyOffset := by
  obtain ⟨kind, offset, ref, hkind, href, -, hslot, hget⟩ := hslot
  obtain ⟨kind', view, hkind', hview, hreads, hbodies⟩ := ha.readsEntry hstands
  rw [hkind] at hkind'
  cases hkind'
  have hname : (d.reading img).ReadsName (d.stringOffset node.name) node.name :=
    ha.readsName (by rw [hget]; rfl)
  refine ⟨view, ⟨⟨ref, d.dirEntry ⟨kind, offset, .body id⟩, kind, href, ha.entry i ref _ href hslot,
    rfl, EntryKind.ofCode?_code kind, hkind, ?_, hview⟩, hreads⟩, hbodies⟩
  rw [Draft.stringOffset, hget] at hname
  exact hname

theorem readsNodes (ha : Assembled works d img) (he : Entered nodes works d img idss) :
    ∃ views, (d.reading img).ReadsNodes nodes views := by
  have hlen := he.length
  have hall : ∀ i : Fin nodes.length, ∃ view, (d.reading img).ReadsNode i nodes[i] view ∧
      view.bodies = idss[i].map d.bodyOffset := fun i =>
    have hi : nodes[i.val]? = some nodes[i] := List.getElem?_eq_getElem i.isLt
    ha.readsSlotted (he.slot i _ hi) (he.stands i _ _ hi (List.getElem?_eq_getElem (by omega)))
  choose view hnode hbodies using hall
  have hids : ((List.ofFn view).map EntryView.bodies) = idss.map (List.map d.bodyOffset) := by
    apply List.ext_getElem
    · simp [hlen]
    · intro i _ _
      simp [hbodies]
  refine ⟨List.ofFn view, List.length_ofFn, fun i node v hi hv => ?_, ?_⟩
  · obtain ⟨hlt, rfl⟩ := List.getElem?_eq_some_iff.1 hi
    obtain ⟨_, rfl⟩ := List.getElem?_eq_some_iff.1 hv
    rw [List.getElem_ofFn]
    exact hnode ⟨i, hlt⟩
  · rw [List.flatMap_def, hids, ← List.map_flatten]
    -- bodies are handed out in order, and each has a place of its own
    rw [List.Nodup, List.pairwise_map]
    have hlt : ∀ id ∈ idss.flatten, id.toNat < works.length := by
      intro id hid
      obtain ⟨ids, hmem, hid⟩ := List.mem_flatten.1 hid
      obtain ⟨i, hi⟩ := List.getElem?_of_mem hmem
      have hi' : i < nodes.length := hlen ▸ (List.getElem?_eq_some_iff.1 hi).1
      obtain ⟨bs, -, hfill, -⟩ := he.stands i _ ids (List.getElem?_eq_getElem hi') hi
      exact hfill.lt id hid
    refine he.increasing.imp_of_mem fun hid hid' horder hsame => ?_
    exact UInt32.ne_of_lt horder (ha.injective _ _ (hlt _ hid) (hlt _ hid') hsame)

/-- The header counts the nodes. -/
theorem localCount (ha : Assembled works d img)
    (hlocals : d.symbols.localNames.toList = nodes.map Node.name) (hc : d.Complete) :
    img.header.localCount.toNat = nodes.length := by
  have hcount : d.symbols.localCount = nodes.length := by
    rw [SymbolTable.localCount, ← Array.length_toList, hlocals, List.length_map]
  have hle : nodes.length ≤ d.symbols.slots.size := hcount ▸ ha.accounts.symbols.count
  rw [ha.header, Draft.header, hcount]
  exact UInt16.toNat_ofNat_of_lt' (Nat.lt_of_le_of_lt hle hc.slots)

end Assembled

/-- A description that compiles becomes a file that can be loaded and holds it. -/
theorem compile_reading {ns : String} {nodes : List Node} {sharedLibrary : Option String}
    {options : Options} {a : Artifact} (h : compile ns nodes sharedLibrary options = .ok a) :
    ∃ (r : Reading) (views : List EntryView), Image.load a.bytes = .ok r.img ∧
      r.slot = (Draft.final ns nodes sharedLibrary options).symbols.slotOf ∧
      r.Holds ns sharedLibrary nodes ∧ r.ReadsNodes nodes views ∧
      ∀ s s' offset, r.place s = some offset → r.place s' = some offset → s = s' := by
  obtain ⟨hload, -, ht, hc, works, idss, ha, he⟩ := compile_ok h
  obtain ⟨views, hviews⟩ := ha.readsNodes he
  refine ⟨(Draft.final ns nodes sharedLibrary options).reading _, views, hload, rfl, ?_, hviews,
    fun s s' offset => ha.place_injective⟩
  exact ⟨ht.namespaceName, he.localNames, ha.readsNamespace ht, ha.readsLibrary ht,
    ha.localCount he.localNames hc⟩

/-! ### A small description -/

theorem exists_of_isOk {ε α : Type} {x : Except ε α} (h : x.isOk = true) : ∃ a, x = .ok a := by
  cases x with
  | ok a => exact ⟨a, rfl⟩
  | error e => cases h

namespace Sample

/-- A structure with two fields of one type. -/
def point : StructDecl where
  name := "Point"
  gtypeName := some ""
  fields := [{ name := "xs", type := .list (.scalar .int32 false) true, bits := 3 },
    { name := "ys", type := .list (.scalar .int32 false) true }]

/-- A function that returns a list of structures, or fails. -/
def find : FunctionDecl where
  name := "find"
  symbol := "sample_find"
  signature :=
    { result := some { type := .list (.interface "Sample.Point" true) true, transfer := .full }
      params := [{ name := "error", type := .error ["Base.Failure", "Mask"] true }] }

def limit : ConstantDecl where
  name := "LIMIT"
  type := .scalar .int8 false
  value := "-7"

def nodes : List Node := [.struct point, .function find, .constant limit]

theorem exists_compile : ∃ a, compile "Sample" nodes (some "libsample.so") {} = .ok a :=
  exists_of_isOk (by decide +kernel)

end Sample

end Typelib
