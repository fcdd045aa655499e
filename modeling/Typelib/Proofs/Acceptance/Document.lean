import Typelib.Proofs.Acceptance.Run
import Typelib.Proofs.Body.Document

/-!
# Descriptions are built or refused

A build of a whole description fails only because of a condition that the description violates. When
it succeeds, every identity has its body and nothing waits.

* `Build.registers`: the entries get their slots;
* `Build.steady_entries`: the entries are written, with all that they call for;
* `Build.steady_document`: the whole build.
-/

namespace Typelib

variable {doc : Document} {options : Options} {d d' : Draft} {nodes done rest : List Node}

namespace Build

/-! ### Registration -/

/-- An entry gets no slot if its name is taken or if there are too many. -/
theorem register_fails {node : Node} {kind : EntryKind} {e : BuildError}
    (hd : d.Registered done) (hdoc : doc.nodes = done ++ node :: rest)
    (h : (onSymbols fun _ t => t.register node.name kind).Fails d e) :
    doc.Violates options e := by
  have hlocal : d.symbols.localNames.size = d.symbols.slots.size := by
    rw [← Array.length_toList, hd.localNames, List.length_map, hd.size]
  have hreg : (d.symbols.register node.name kind).1 = .error e := h
  unfold SymbolTable.register at hreg
  split at hreg
  next hc =>
    cases hreg
    obtain ⟨symbol, hs⟩ := Option.isSome_iff_exists.1
      (Std.TreeMap.isSome_getElem?_eq_contains.trans hc)
    obtain ⟨i, hi⟩ := hd.symbols.named _ _ hs
    have hmem : node.name ∈ done.map Node.name :=
      hd.localNames ▸ Array.mem_toList_iff.2 (Array.mem_of_getElem? hi)
    have hpos := List.count_pos_iff.2 hmem
    refine .distinct ?_
    rw [hdoc, List.map_append, List.count_append, List.map_cons, List.count_cons_self]
    omega
  next =>
    split at hreg
    next hlate =>
      rw [SymbolTable.externalCount, SymbolTable.localCount, hlocal, Nat.sub_self] at hlate
      exact absurd hlate (Nat.lt_irrefl 0)
    next =>
      simp only at hreg
      split at hreg
      next e' t he =>
        cases hreg
        obtain ⟨hfull, rfl⟩ := SymbolTable.pushSlot_eq_error (by exact hd.symbols.size)
          (congrArg Prod.fst he)
        have hsize : d.symbols.slots.size = 65535 := hfull
        have hlength : doc.nodes.length = done.length + (rest.length + 1) := by simp [hdoc]
        refine .entries ?_
        rw [Document.entryCount, hlength, ← hd.size, hsize]
        omega
      next => cases hreg

/-- All entries get their slots, or the description violates a condition. -/
theorem register_proceeds : ∀ {d : Draft} {done : List Node}, d.Registered done →
    doc.nodes = done ++ rest → d.options = options → d.symbols.namespaceName = doc.namespaceName →
    Proceeds doc options (register rest) d fun _ d' => d'.Registered doc.nodes ∧
      d'.options = options ∧ d'.symbols.namespaceName = doc.namespaceName := by
  induction rest with
  | nil =>
    intro d done hd hdoc hopt hns
    rw [List.append_nil] at hdoc
    exact .pure ⟨hdoc ▸ hd, hopt, hns⟩
  | cons node rest ih =>
    intro d done hd hdoc hopt hns
    rw [register]
    split
    next hk =>
      refine ⟨fun _ _ h => absurd h not_yields_throw, fun e h => ?_⟩
      cases fails_throw.1 h
      exact .inl (.kinds (by simp [hdoc]) hk)
    next kind hk =>
      have hregister : Proceeds doc options (onSymbols fun _ t => t.register node.name kind) d
          fun _ d₁ => d₁.Registered (done ++ [node]) ∧ d₁.options = options ∧
            d₁.symbols.namespaceName = doc.namespaceName := by
        refine ⟨fun symbol d₁ h => ?_, fun e h => .inl (register_fails hd hdoc h)⟩
        obtain ⟨hd₁, -, hopt₁, hns₁, -⟩ := registered_concat hd hk h
        exact ⟨hd₁, hopt₁.trans hopt, hns₁.trans hns⟩
      refine hregister.bind fun _ d₁ hd₁ => ?_
      exact ih hd₁.1 (by simp [hdoc]) hd₁.2.1 hd₁.2.2

end Build

/-! ### Entries -/

/-- The entries have the first identities, and their turn is to come. -/
theorem Draft.Registered.steady (hd : d.Registered doc.nodes) (hopt : d.options = options)
    (hns : d.symbols.namespaceName = doc.namespaceName) :
    d.Steady doc options (BodyId.range' 0 doc.nodes.length) := by
  have hlocal : d.symbols.localNames.size = d.symbols.slots.size := by
    rw [← Array.length_toList, hd.localNames, List.length_map, hd.size]
  refine ⟨⟨hd.symbols, hopt, hns, hd.localNames, fun key ref hk => ?_⟩, ⟨?_, ?_⟩, ?_,
    fun hfew id => ?_⟩
  · -- there is no slot behind those of the local entries
    obtain ⟨i, hle, hlt, -⟩ := hd.symbols.known key ref hk
    omega
  · intro text id ht
    simp [hd.types] at ht
  · intro reloc hr
    simp [hd.body] at hr
  · intro item hmem
    simp [hd.queues, Queues.items, Fifo.toList] at hmem
  · have hbegun : d.begun id = 0 := by simp [begun, hd.body, Section.startOf?]
    have hitems : d.queues.items = [] := by simp [hd.queues, Queues.items, Fifo.toList]
    rw [hd.handedOut] at hfew
    rw [due, hitems, hbegun, BodyId.count_range' (by omega), hd.handedOut]
    simp

namespace Build

/-- An entry is written as the body that its slot leads to. -/
theorem outcome_entry {node : Node} {id : BodyId} {ref : DirRef}
    (hs : d.symbols.lookup node.name = some ⟨id, ref⟩) :
    (entry node).outcome d = (body (.entry node) id).outcome d := by
  rw [entry, outcome_get_bind]
  simp only [hs]
  rfl

/-- Later entries keep their identities. -/
theorem lookup_tail {node : Node} {k : Nat} (hx : d.Extends d')
    (hlookup : ∀ (i : Nat) (n : Node), (node :: nodes)[i]? = some n →
      ∃ ref, d.symbols.lookup n.name = some ⟨.ofNat (k + i), ref⟩) (i : Nat) (n : Node)
    (hi : nodes[i]? = some n) :
    ∃ ref, d'.symbols.lookup n.name = some ⟨.ofNat (k + 1 + i), ref⟩ := by
  obtain ⟨ref, hs⟩ := hlookup (i + 1) n hi
  refine ⟨ref, ?_⟩
  rw [SymbolTable.lookup, hx.symbols.locals, ← SymbolTable.lookup, hs, Nat.add_assoc,
    Nat.add_comm 1]

/-- The entries are written in turn, each with all that it calls for. -/
theorem steady_entries : ∀ {d : Draft} {k : Nat},
    d.Steady doc options (BodyId.range' k nodes.length) →
    d.queues.items = [] → (∀ node ∈ nodes, node ∈ doc.nodes) →
    (∀ (i : Nat) (node : Node), nodes[i]? = some node →
      ∃ ref, d.symbols.lookup node.name = some ⟨.ofNat (k + i), ref⟩) →
    Proceeds doc options (entries nodes) d fun _ d' =>
      d'.Steady doc options [] ∧ d'.queues.items = [] := by
  induction nodes with
  | nil =>
    intro d k h hnil _ _
    exact .pure ⟨h, hnil⟩
  | cons node nodes ih =>
    intro d k h hnil hmem hlookup
    rw [List.length_cons, BodyId.range'_succ] at h
    obtain ⟨ref, hs⟩ := hlookup 0 node rfl
    have hw : (Work.entry node).Of doc := hmem node List.mem_cons_self
    refine ((steady_body h hw).of_outcome (outcome_entry hs)).bind ?_
    rintro _ d₁ ⟨h₁, hx₁, -⟩
    refine (steady_drain h₁).bind ?_
    rintro _ d₂ ⟨h₂, hx₂, hnil₂⟩
    exact ih h₂ hnil₂ (fun n hn => hmem n (List.mem_cons_of_mem _ hn))
      (lookup_tail (hx₁.trans hx₂) hlookup)

/-! ### Whole builds -/

/-- Everything that a description calls for is written, or the description violates a condition, or
the identities are used up. -/
theorem steady_document (doc : Document) (options : Options) :
    Proceeds doc options (document doc.nodes)
      (.new doc.namespaceName doc.sharedLibrary options) fun _ d' =>
      d'.Steady doc options [] ∧ d'.queues.items = [] := by
  have hnew := Draft.registered_new doc.namespaceName doc.sharedLibrary options
  refine (register_proceeds hnew rfl rfl rfl).bind fun _ d ⟨hd, hopt, hns⟩ => ?_
  refine steady_entries (hd.steady hopt hns) ?_ (fun _ h => h) fun i node hi => ?_
  · rw [hd.queues]
    rfl
  · obtain ⟨_, _, ref, -, -, hs, -⟩ := hd.lookup hi
    exact ⟨ref, by rw [hs, Nat.zero_add]⟩

end Build

end Typelib
