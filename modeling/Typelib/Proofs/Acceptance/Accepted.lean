import Typelib.Proofs.Acceptance.Assembly
import Typelib.Proofs.Acceptance.Clean
import Typelib.Proofs.Image.Assembled

/-!
# What a file says about its description

Everything that a description calls for stands in its file. So none of its cells was refused, all
its names have slots, and each condition under which it is accepted holds.

* `Fills.clean`: cells that became bytes refuse nothing;
* `Assembled.of_entry`: all names of an entry have slots;
* `Document.acceptable_of_compile`: the description is acceptable.
-/

namespace Typelib

variable {works : List Work} {d : Draft} {cs : List Cell} {c : Cell} {ids : List BodyId}

/-! ### Cells that became bytes -/

theorem Fills.exists_of_mem (hc : c ∈ cs) : ∀ {pos : Nat} {bs : List UInt8} {ids : List BodyId},
    Fills d works pos cs bs ids → ∃ pos bs ids, c.Fills d works pos bs ids := by
  induction cs with
  | nil => cases hc
  | cons c' cs ih =>
    rintro pos bs ids ⟨bs₁, ids₁, bs₂, ids₂, h₁, h₂, -⟩
    rcases List.mem_cons.1 hc with rfl | hc
    · exact ⟨pos, bs₁, ids₁, h₁⟩
    · exact ih hc h₂

theorem Fills.clean {pos : Nat} {bs : List UInt8} (h : Fills d works pos cs bs ids) : Clean cs := by
  intro e he
  obtain ⟨_, _, _, hreject⟩ := h.exists_of_mem he
  exact hreject

/-! ### Names that have slots -/

theorem Draft.Stores.settled {t : Ty} (h : d.Stores t) {name : String} (hn : name ∈ t.names) :
    d.symbols.Settled d.options name := h.knows name hn

/-- The body of a signature stands somewhere, so its parameters were counted and its types are
known. -/
theorem Signature.of_fills {s : Signature} {pos : Nat} {bs : List UInt8}
    (h : Fills d works pos (Work.signature s).cells bs ids) :
    s.params.length ≤ 65535 ∧
      ∀ t ∈ s.types, ∀ name ∈ t.names, d.symbols.Settled d.options name := by
  obtain ⟨hmax, h⟩ := h.counted
  refine ⟨hmax _ (List.mem_singleton_self _), fun t ht name hn => ?_⟩
  have stored : Cell.type t ∈ s.cells → d.symbols.Settled d.options name := fun hmem => by
    obtain ⟨_, _, _, hstores, -⟩ := h.exists_of_mem hmem
    exact hstores.settled hn
  rcases List.mem_cons.1 ht with rfl | ht
  · cases hr : s.result with
    | none =>
      rw [hr] at hn
      cases hn
    | some r =>
      rw [hr] at stored hn
      refine stored ?_
      simp [Signature.cells, Signature.resultCells, hr]
  · obtain ⟨p, hp, rfl⟩ := List.mem_map.1 ht
    refine stored ?_
    simp only [Signature.cells, List.mem_append, List.mem_flatMap]
    exact .inr ⟨p, hp, by simp [ParamDecl.cells]⟩

/-- An entry stands in a file with all that it calls for: no parameter list is too long, and all its
names have slots. -/
theorem Assembled.of_entry {img : Image} {node : Node} {pos : Nat} {bs : List UInt8}
    (ha : Assembled works d img) (h : Fills d works pos node.cells bs ids) :
    (∀ s ∈ node.signatures, s.params.length ≤ 65535) ∧
      ∀ name ∈ node.names, d.symbols.Settled d.options name := by
  have hnode := Node.wellFormed_of_clean h.clean
  have hsignature : ∀ s ∈ node.signatures, s.params.length ≤ 65535 ∧
      ∀ t ∈ s.types, ∀ name ∈ t.names, d.symbols.Settled d.options name := by
    intro s hs
    obtain ⟨_, _, _, id, hwork, -⟩ := h.exists_of_mem (hnode.signature s hs)
    obtain ⟨_, _, -, hfills, -⟩ := ha.body id _ hwork
    exact Signature.of_fills hfills
  have stored : ∀ t, .type t ∈ node.cells → ∀ name ∈ t.names,
      d.symbols.Settled d.options name := by
    intro t ht name hn
    obtain ⟨_, _, _, hstores, -⟩ := h.exists_of_mem ht
    exact hstores.settled hn
  refine ⟨fun s hs => (hsignature s hs).1, fun name hn => ?_⟩
  rcases List.mem_append.1 hn with hlink | htype
  · obtain ⟨_, _, _, hsettled, -⟩ := h.exists_of_mem (hnode.slot name hlink)
    exact hsettled
  · obtain ⟨t, ht, hn⟩ := List.mem_flatMap.1 htype
    simp only [Node.types, List.mem_append, List.mem_map, List.mem_flatMap] at ht
    obtain (hmember | ⟨c, hc, rfl⟩) | ⟨s, hs, ht⟩ := ht
    · exact stored t (hnode.memberType t hmember) name hn
    · exact stored c.type (hnode.constant c hc).1 name hn
    · exact (hsignature s hs).2 t ht name hn

/-! ### Slots -/

/-- A name that has a slot is admitted, and if it is not local there is an entry for it. -/
theorem Scope.Governs.of_settled {s : Scope} {name : String} (h : s.Governs d)
    (hn : d.symbols.Settled d.options name) :
    s.Admits name ∧ ∀ p, s.foreign? name = some p →
      ∃ ref, d.symbols.externals[qualified p]? = some ref := by
  cases hf : s.foreign? name with
  | none => exact ⟨fun ns symbol he => by simp [hf] at he, by simp⟩
  | some p =>
    obtain ⟨ns, symbol⟩ := p
    have hresolve := hn.resolve
    obtain ⟨ha, he⟩ | ⟨-, he⟩ := h.resolve_eq hf <;> rw [he] at hresolve
    · refine ⟨ha, fun p hp => ?_⟩
      cases hp
      exact ⟨_, SymbolTable.external_ok hresolve⟩
    · cases hresolve

/-- If all names of a scope have slots, there is an entry for each one that is not local. -/
theorem Scope.Governs.length_foreigns_le {s : Scope} (h : s.Governs d)
    (hn : ∀ name ∈ s.names, d.symbols.Settled d.options name) :
    s.foreigns.length ≤ d.symbols.externals.size := by
  have hsub : s.foreigns.map qualified ⊆ d.symbols.externals.keys := by
    intro key hkey
    obtain ⟨p, hp, rfl⟩ := List.mem_map.1 hkey
    obtain ⟨name, hname, hforeign⟩ := Scope.mem_foreigns.1 hp
    exact SymbolTable.mem_externals.2 ((h.of_settled (hn name hname)).2 p hforeign)
  have hle := (List.subperm_of_subset s.nodup_qualified hsub).length_le
  rwa [List.length_map, Std.TreeMap.length_keys] at hle

/-! ### Descriptions -/

/-- The cells of each entry became bytes. -/
theorem Entered.fills {nodes : List Node} {img : Image} {idss : List (List BodyId)} {node : Node}
    (h : Entered nodes works d img idss) (hn : node ∈ nodes) :
    ∃ pos bs ids, Fills d works pos node.cells bs ids := by
  obtain ⟨i, hi⟩ := List.getElem?_of_mem hn
  have hlt : i < idss.length := by
    rw [h.length]
    exact (List.getElem?_eq_some_iff.1 hi).1
  obtain ⟨bs, -, hfills, -⟩ := h.stands i node _ hi (List.getElem?_eq_getElem hlt)
  exact ⟨_, bs, _, hfills⟩

/-- All names of a description whose file is put together have slots. -/
theorem Document.settled_of_compile {doc : Document} {options : Options} {a : Artifact}
    (h : doc.compile options = .ok a) {name : String} (hn : name ∈ (doc.scope options).names) :
    (doc.draft options).symbols.Settled (doc.draft options).options name := by
  obtain ⟨-, -, -, -, works, idss, hassembled, hentered⟩ := compile_ok h
  obtain ⟨node, hnode, hmem⟩ := List.mem_flatMap.1 hn
  obtain ⟨_, _, _, hfills⟩ := hentered.fills hnode
  exact (hassembled.of_entry hfills).2 name hmem

/-- A description whose file is put together is acceptable. -/
theorem Document.acceptable_of_compile {doc : Document} {options : Options} {a : Artifact}
    (h : doc.compile options = .ok a) : doc.Acceptable options := by
  obtain ⟨-, -, -, hcomplete, works, idss, hassembled, hentered⟩ := compile_ok h
  have hgoverns : (doc.scope options).Governs (doc.draft options) := by
    obtain ⟨e, he, -⟩ | ⟨-, hsteady, -⟩ := doc.compile_cases options
    · rw [h] at he
      cases he
    · exact hsteady.governs
  have hnode : ∀ node ∈ doc.nodes, node.WellFormed ∧
      ∀ s ∈ node.signatures, s.params.length ≤ 65535 := by
    intro node hmem
    obtain ⟨_, _, _, hfills⟩ := hentered.fills hmem
    exact ⟨Node.wellFormed_of_clean hfills.clean, (hassembled.of_entry hfills).1⟩
  have hsettled : ∀ name ∈ (doc.scope options).names,
      (doc.draft options).symbols.Settled (doc.draft options).options name :=
    fun name hname => Document.settled_of_compile h hname
  constructor
  · exact fun node hn => (hnode node hn).1.kind
  · rw [← hentered.localNames]
    exact hgoverns.symbols.nodup_localNames
  · exact fun node hn => (hnode node hn).1.members
  · exact fun node hn => (hnode node hn).2
  · exact fun node hn => (hnode node hn).1.values
  · exact fun node hn => (hnode node hn).1.constants
  · exact fun node hn => (hnode node hn).1.owners
  · exact fun node hn name hmem =>
      (hgoverns.of_settled (hsettled name (List.mem_flatMap.2 ⟨node, hn, hmem⟩))).1
  · have hle := hgoverns.length_foreigns_le hsettled
    have hslots := hgoverns.symbols.size_slots
    have hlocals : (doc.draft options).symbols.localNames.size = doc.nodes.length := by
      rw [← Array.length_toList]
      exact (congrArg List.length hentered.localNames).trans (List.length_map _)
    have hmax : (doc.draft options).symbols.slots.size < 65536 := hcomplete.slots
    rw [Document.entryCount]
    omega
  · exact hcomplete.total

end Typelib
