import Typelib.Proofs.Acceptance.Document
import Typelib.Proofs.Directory.Names

/-!
# The order of the directory in a whole build

A type that waits adds no name when its body is written, and a signature adds its own. Since nothing
waits when the next entry begins, the names of a description are resolved node by node, each with its
links, its types and those of its signatures, in this order.

* `Build.lists_body`: what writing a body adds;
* `Build.lists_next`, `Build.lists_drainLoop`: the bodies that wait;
* `Build.lists_document`: the whole build.
-/

namespace Typelib

/-- The names in a signature. -/
def Signature.names (s : Signature) : List String := s.types.flatMap Ty.names

variable {doc : Document} {options : Options} {s : Scope} {seen : List String}
  {waiting : List Signature} {work : Work} {id : BodyId} {d d' : Draft}

namespace Build

/-- Cells that were written refuse nothing. -/
theorem clean_of_yields {cs : List Cell} : ∀ {d d' : Draft}, (cells cs).Yields d () d' → Clean cs := by
  induction cs with
  | nil => exact fun _ e he => by cases he
  | cons c cs ih =>
    intro d d' h e he
    obtain ⟨_, d₁, hcell, hcells⟩ := yields_bind.1 h
    obtain rfl | he := List.mem_cons.1 he
    · exact not_yields_throw hcell
    · exact ih hcells e he

/-- Writing a body adds what its cells mention. -/
theorem lists_body (h : s.Lists seen waiting d) (hy : (body work id).Yields d () d') :
    Clean work.cells ∧ s.Lists (seen ++ work.cells.flatMap Cell.names)
      (waiting ++ work.cells.flatMap Cell.signatures) d' := by
  obtain ⟨pos, d₁, hstart, hcells⟩ := yields_bind.1 hy
  have h₁ := adds_start id seen waiting d pos d₁ h hstart
  rw [List.append_nil, List.append_nil] at h₁
  exact ⟨clean_of_yields hcells, adds_cells work.cells seen waiting d₁ () d' h₁ hcells⟩

/-! ### Bodies that wait -/

/-- The body of a type adds nothing. -/
theorem lists_type {t : Ty} (h : s.Lists seen waiting d) (ht : ∀ name ∈ t.names, name ∈ seen)
    (hy : (body (.type t) id).Yields d () d') : s.Lists seen waiting d' := by
  obtain ⟨-, h'⟩ := lists_body h hy
  obtain ⟨hnames, hsignatures⟩ := Ty.names_cells t
  rw [show (Work.type t).cells = t.cells from rfl, hsignatures, List.append_nil] at h'
  exact h'.absorb fun name hn => ht name (hnames name hn)

theorem lists_signature {signature : Signature} (h : s.Lists seen waiting d)
    (hy : (body (.signature signature) id).Yields d () d') :
    s.Lists (seen ++ signature.names) waiting d' := by
  obtain ⟨hclean, h'⟩ := lists_body h hy
  obtain ⟨-, hcells, -⟩ := Clean.counted hclean
  obtain ⟨hnames, hsignatures⟩ := signature.mentions_cells
  rw [show (Work.signature signature).cells = signature.cells from hcells, hnames, hsignatures,
    List.append_nil] at h'
  exact h'

theorem lists_constant {c : ConstantDecl} (h : s.Lists seen waiting d)
    (hy : (body (.constant c) id).Yields d () d') : s.Lists seen waiting d' := by
  obtain ⟨hclean, h'⟩ := lists_body h hy
  obtain ⟨bytes, -, hcells⟩ := Clean.given hclean
  rw [show (Work.constant c).cells = [.raw bytes] from hcells] at h'
  simpa [Cell.names, Cell.signatures] using h'

/-- Some of the signatures that waited were written, and the others still wait. -/
def Drains (s : Scope) (seen : List String) (waiting : List Signature) (d : Draft) : Prop :=
  ∃ written later, waiting = written ++ later ∧
    s.Lists (seen ++ written.flatMap Signature.names) later d

theorem Drains.none (h : s.Lists seen waiting d) : Drains s seen waiting d :=
  ⟨[], waiting, rfl, by rwa [List.flatMap_nil, List.append_nil]⟩

/-- One round writes the body of a type or of a constant, or that of the first signature. -/
theorem lists_next {more : Bool} (h : s.Lists seen waiting d) (hy : next.Yields d more d') :
    Drains s seen waiting d' := by
  obtain ⟨-, -, rfl⟩ | ⟨-, work, id, queues, hpops, hbody⟩ := yields_next hy
  · exact .none h
  · have hpopped := Draft.Extends.queues d queues
    cases hpops with
    | @type t _ _ hpop =>
      obtain ⟨hlist, hsig, -⟩ := Queues.popType?_eq_some hpop
      have hseen := h.types (t, id) (by simp [hlist])
      refine .none (lists_type (h.keep hpopped h.governs.symbols rfl rfl (fun item hi => ?_) ?_)
        hseen hbody)
      · exact h.types item (by rw [hlist]; exact List.mem_cons_of_mem _ hi)
      · rw [hsig]
        exact h.signatures
    | @signature signature _ _ hpop =>
      obtain ⟨hlist, htypes, -⟩ := Queues.popSignature?_eq_some hpop
      have hwaiting := h.signatures
      rw [hlist, List.map_cons] at hwaiting
      refine ⟨[signature], queues.signatures.toList.map Prod.fst, hwaiting.symm, ?_⟩
      rw [List.flatMap_singleton]
      exact lists_signature
        (h.keep hpopped h.governs.symbols rfl rfl (htypes ▸ h.types) rfl) hbody
    | constant hpop =>
      obtain ⟨-, htypes, hsig⟩ := Queues.popConstant?_eq_some hpop
      refine .none (lists_constant (h.keep hpopped h.governs.symbols rfl rfl (htypes ▸ h.types) ?_)
        hbody)
      rw [hsig]
      exact h.signatures

theorem lists_drainLoop (fuel : Nat) : ∀ {seen : List String} {waiting : List Signature} {d d' : Draft}
    (done n : Nat), s.Lists seen waiting d → (drainLoop fuel done).Yields d n d' →
    Drains s seen waiting d' := by
  induction fuel with
  | zero =>
    intro seen waiting d d' done n h hy
    obtain ⟨-, rfl⟩ := yields_pure.1 hy
    exact .none h
  | succ fuel ih =>
    intro seen waiting d d' done n h hy
    obtain ⟨more, d₁, hnext, hrest⟩ := yields_bind.1 hy
    have hdrains := lists_next h hnext
    cases more with
    | false =>
      obtain ⟨-, rfl⟩ := yields_pure.1 hrest
      exact hdrains
    | true =>
      obtain ⟨written, later, rfl, h₁⟩ := hdrains
      obtain ⟨written', later', rfl, h₂⟩ := ih (done + 1) n h₁ hrest
      refine ⟨written ++ written', later', (List.append_assoc _ _ _).symm, ?_⟩
      rwa [List.flatMap_append, ← List.append_assoc]

/-- When nothing waits any more, all signatures were written. -/
theorem lists_drain {n : Nat} (h : s.Lists seen waiting d) (hy : drain.Yields d n d')
    (hnil : d'.queues.items = []) :
    s.Lists (seen ++ waiting.flatMap Signature.names) [] d' := by
  have hloop : (drainLoop d.queues.weight 0).Yields d n d' := hy
  obtain ⟨written, later, rfl, h'⟩ := lists_drainLoop _ 0 n h hloop
  have hsignatures : d'.queues.signatures.toList = [] := by
    have hparts := hnil
    simp only [Queues.items, List.append_eq_nil_iff, List.map_eq_nil_iff] at hparts
    exact hparts.1.2
  have hlater := h'.signatures
  rw [hsignatures, List.map_nil] at hlater
  subst hlater
  rwa [List.append_nil]

/-! ### Entries -/

/-- A node adds all its names, once nothing waits any more. -/
theorem lists_entry {node : Node} {d₁ : Draft} {n : Nat} (h : s.Lists seen [] d)
    (hbody : (body (.entry node) id).Yields d () d₁) (hdrain : drain.Yields d₁ n d')
    (hnil : d'.queues.items = []) : s.Lists (seen ++ node.names) [] d' := by
  obtain ⟨hclean, h₁⟩ := lists_body h hbody
  obtain ⟨hnames, hsignatures⟩ := Node.mentions_cells hclean
  rw [show (Work.entry node).cells = node.cells from rfl, hnames, hsignatures,
    List.nil_append] at h₁
  have h₂ := lists_drain h₁ hdrain hnil
  have hall : node.names = node.links ++ node.memberTypes.flatMap Ty.names ++
      (node.constants.map ConstantDecl.type).flatMap Ty.names ++
      node.signatures.flatMap Signature.names := by
    simp only [Node.names, Node.types, List.flatMap_append, List.append_assoc, List.flatMap_assoc]
    rfl
  rwa [hall, ← List.append_assoc]

/-- The names are added node by node. -/
theorem lists_entries {nodes : List Node} : ∀ {d d' : Draft} {k : Nat} {seen : List String},
    d.Steady doc options (BodyId.range' k nodes.length) → (∀ node ∈ nodes, node ∈ doc.nodes) →
    (∀ (i : Nat) (node : Node), nodes[i]? = some node →
      ∃ ref, d.symbols.lookup node.name = some ⟨.ofNat (k + i), ref⟩) →
    s.Lists seen [] d → (entries nodes).Yields d () d' →
    s.Lists (seen ++ nodes.flatMap Node.names) [] d' := by
  induction nodes with
  | nil =>
    intro d d' k seen _ _ _ h hy
    obtain ⟨-, rfl⟩ := yields_pure.1 hy
    rwa [List.flatMap_nil, List.append_nil]
  | cons node nodes ih =>
    intro d d' k seen hsteady hmem hlookup h hy
    rw [List.length_cons, BodyId.range'_succ] at hsteady
    obtain ⟨ref, hs⟩ := hlookup 0 node rfl
    obtain ⟨_, d₁, hentry, hy⟩ := yields_bind.1 hy
    obtain ⟨n, d₂, hdrain, hy⟩ := yields_bind.1 hy
    have hbody : (body (.entry node) (.ofNat k)).Yields d () d₁ := (outcome_entry hs).symm.trans hentry
    have hw : (Work.entry node).Of doc := hmem node List.mem_cons_self
    obtain ⟨hsteady₁, hx₁, -⟩ := (steady_body hsteady hw).yields _ _ hbody
    obtain ⟨hsteady₂, hx₂, hnil⟩ := (steady_drain hsteady₁).yields _ _ hdrain
    have hrest := ih hsteady₂ (fun n hn => hmem n (List.mem_cons_of_mem _ hn))
      (lookup_tail (hx₁.trans hx₂) hlookup) (lists_entry h hbody hdrain hnil) hy
    rwa [List.flatMap_cons, ← List.append_assoc]

/-! ### Whole builds -/

/-- Before the first entry is written the directory lists the local entries only. -/
theorem lists_registered {nodes : List Node} (hd : d.Registered nodes)
    (hopt : d.options = s.options) (hns : d.symbols.namespaceName = s.namespaceName)
    (hlocals : s.locals = nodes.map Node.name) : s.Lists [] [] d := by
  have hlocal : d.symbols.localNames.size = d.symbols.slots.size := by
    rw [← Array.length_toList, hd.localNames, List.length_map, hd.size]
  refine ⟨⟨hd.symbols, hopt, hns, hd.localNames.trans hlocals.symm, fun key ref hk => ?_⟩, ?_,
    fun j p hj => ?_, ?_, ?_⟩
  · obtain ⟨i, hle, hlt, -⟩ := hd.symbols.known key ref hk
    omega
  · rw [hd.size, hlocals, List.length_map]
    rfl
  · cases hj
  · intro item hi
    simp [hd.queues, Fifo.toList] at hi
  · simp [hd.queues, Fifo.toList]

/-- The directory of a whole build lists the local entries, and then those that the names of the
description stand for, in order. -/
theorem lists_document
    (hy : (document doc.nodes).Yields (.new doc.namespaceName doc.sharedLibrary options) () d) :
    (doc.scope options).Lists (doc.scope options).names [] d := by
  obtain ⟨_, d₁, hregister, hentries⟩ := yields_bind.1 hy
  have hnew := Draft.registered_new doc.namespaceName doc.sharedLibrary options
  obtain ⟨hd, hopt, hns⟩ := (register_proceeds hnew rfl rfl rfl).yields _ _ hregister
  refine lists_entries (hd.steady hopt hns) (fun _ h => h) (fun i node hi => ?_)
    (lists_registered hd hopt hns rfl) hentries
  obtain ⟨_, _, ref, -, -, hs, -⟩ := hd.lookup hi
  exact ⟨ref, by rw [hs, Nat.zero_add]⟩

end Build

end Typelib
