import Typelib.Proofs.Whole.Legend
import Typelib.Proofs.Whole.Run

/-!
# Files without unfinished bodies

A draft is put together as soon as there are as many bodies as identities. This counts the bodies
that were begun. So the file is whole if each body that was begun was written to its end and no
identity was handed out twice, whatever else was asked of the draft, and whether it succeeded or
failed.

* `Draft.Lost.not_complete`: nothing makes up for a lost identity;
* `run_reads_back`: the file of a run that breaks no body;
* `unfinished_body_escapes`: the file of a run that breaks one.
-/

namespace Typelib

/-- Too few bodies are accounted for, so that not every identity can have one. -/
theorem Draft.Lost.not_complete {d : Draft} (h : d.Lost)
    (hfew : d.symbols.handedOut < UInt32.size) : ¬ d.Complete := by
  intro hc
  have hcount := hc.bodyCount
  rw [SymbolTable.allocated, SymbolTable.toNat_nextId hfew] at hcount
  unfold Lost accounted at h
  omega

/-! ### Whole drafts -/

namespace Draft.Whole

variable {d : Draft} {ns : String} {sharedLibrary : Option String} {options : Options}
  {nodes : List Node} {bytes : Bytes}

/-- A whole draft becomes a file whose local entries are read back, and which can be shown. -/
theorem reads (hw : d.Whole ns sharedLibrary options nodes) (hm : d.symbols.Meant)
    (h : d.assemble = .ok bytes) :
    let r := d.reading ⟨bytes, d.header⟩
    Image.load bytes = .ok r.img ∧ r.Holds ns sharedLibrary nodes ∧
      (∀ (i : Nat) (node : Node), nodes[i]? = some node → ∃ view, r.ReadsNode i node view) ∧
      ∀ palette, ∃ text, r.img.dump palette = .ok text := by
  intro r
  obtain ⟨ht, hlocals, works, ps, hl, henters⟩ := hw
  have hc := complete_of_assemble h
  have ha := hl.assembled h
  have hs := hl.accounts.symbols
  have hread (i : Nat) (node : Node) (hi : nodes[i]? = some node) :
      ∃ view, r.ReadsNode i node view := by
    obtain ⟨kind, offset, ref, id, hk, hr, hlookup, hslot, hn, hwork⟩ := henters i node hi
    obtain ⟨ids, hbody⟩ := ha.body id _ hwork
    obtain ⟨view, hview, -⟩ := ha.readsSlotted ⟨kind, offset, ref, hk, hr, hlookup, hslot, hn⟩ hbody
    exact ⟨view, hview⟩
  -- all names of the nodes have slots, so the directory lists what they stand for
  have hslots : ∀ name ∈ nodes.flatMap Node.names, d.symbols.slotOf name ≠ .none := by
    intro name hname
    obtain ⟨node, hnode, hname⟩ := List.mem_flatMap.1 hname
    obtain ⟨i, hi⟩ := List.getElem?_of_mem hnode
    obtain ⟨_, _, _, id, -, -, -, -, -, hwork⟩ := henters i node hi
    obtain ⟨ids, _, -, hfills, -⟩ := ha.body id _ hwork
    exact ((ha.of_entry hfills).2 name hname).ne_none
  obtain ⟨s, hscope, hlists, hnames, hall⟩ := exists_lists hs hm hc.queues hslots
  have hcat := hlists.catalogues ha hc (hscope.trans hlocals) hread
  refine ⟨load_assemble hs hl.made h, ⟨ht.namespaceName, hlocals, ha.readsNamespace ht,
    ha.readsLibrary ht, ha.localCount hlocals hc⟩, hread, fun palette => ?_⟩
  have hlegend : Legend s r ⟨r.img, (s.directory.map Entity.text).toArray, palette⟩ :=
    hlists.legend ha (hscope ▸ hs.nodup_localNames) hall rfl rfl
  exact hlegend.exists_dump hcat (hscope.trans hlocals) (ha.readsNamespace ht) (ha.readsLibrary ht)
    (fun node hn name hname => hnames name (List.mem_flatMap.2 ⟨node, hn, hname⟩)) hread

end Draft.Whole

/-- **Whole bodies make whole files.** Nodes are registered, and then anything is asked of the
draft, in any order and with any outcome. An operation behind the first one may register more nodes,
if none that gets a slot has the qualified name of a node that has one. If each entry is written as
the node that has its slot, no operation fails behind the beginning of a body and there are identities
for all, then whatever is put together can be loaded and shown, and its local entries are the nodes
that got slots, each of which is read back. -/
theorem run_reads_back {ns : String} {sharedLibrary : Option String} {options : Options}
    {regs : List (List Node)} {ops : List Operation} {bytes : Bytes} :
    let start := Draft.new ns sharedLibrary options
    let run := regs.map .register ++ ops
    let nodes := Operation.registered run start
    let d := Operation.after run start
    let r := d.reading ⟨bytes, d.header⟩
    Operation.Unhidden ns nodes (Operation.late ops (Operation.after (regs.map .register) start)) →
    (∀ op ∈ ops, op.isLoose = false) →
    (∀ w ∈ Operation.written run start, ∀ n ∈ nodes, n.name = w.name → n = w) →
    Operation.Unbroken run start → d.symbols.handedOut < UInt32.size → d.assemble = .ok bytes →
    Image.load bytes = .ok r.img ∧ r.Holds ns sharedLibrary nodes ∧
      (∀ (i : Nat) (node : Node), nodes[i]? = some node → ∃ view, r.ReadsNode i node view) ∧
      ∀ palette, ∃ text, r.img.dump palette = .ok text := by
  intro start run nodes d r hunhidden hloose honly hunbroken hfew h
  obtain ⟨-, -, hmeant⟩ := Operation.symbols_after ns sharedLibrary options run
  rcases Operation.whole_after hunhidden hloose honly hunbroken with hlost | hw
  · exact absurd (Draft.complete_of_assemble h) (hlost.not_complete hfew)
  · exact hw.reads hmeant h

namespace Sample

/-- An enumeration with a value that has no room in the file. -/
def level : Node := .enum
  { name := "Level"
    values := [{ name := "low", value := 0 }, { name := "far", value := 4294967296 }] }

/-- An enumeration that is not registered. -/
def ghost : Node := .enum { name := "Ghost" }

/-- The structure is registered twice, which fails, and so does writing what was not registered.
Then one more node is registered, when the structure stands already. -/
def patched : List Operation :=
  [.entry ghost, .next, .entry (.struct point), .drain, .register [.constant limit],
    .entry (.constant limit), .resolve "Base.Failure", .drain]

end Sample

/-- Two operations fail, and the file is whole. -/
theorem run_reads_back_sample :
    let d := Operation.after
      ([[.struct Sample.point], [.struct Sample.point]].map .register ++ Sample.patched)
      (.new "Sample" none {})
    ∃ bytes img, d.assemble = .ok bytes ∧ Image.load bytes = .ok img ∧
      ∀ palette, ∃ text, img.dump palette = .ok text := by
  intro d
  have hok : d.assemble.isOk = true := by decide +kernel
  cases h : d.assemble with
  | error e =>
    rw [h] at hok
    cases hok
  | ok bytes =>
    obtain ⟨hload, -, -, hdump⟩ := run_reads_back (by decide +kernel) (by decide)
      (by decide +kernel) (by decide +kernel) (by decide +kernel) h
    exact ⟨bytes, _, rfl, hload, hdump⟩

/-- An operation fails in the middle of a body, and the draft is put together all the same. What it
becomes can be loaded, but not shown, for the body ends before its rows do. -/
theorem unfinished_body_escapes :
    let d := Operation.after [.register [Sample.level]] (.new "Demo" none {})
    (Operation.entry Sample.level).run.Fails d (.valueOutOfRange "Level" "far" 4294967296) ∧
      ∃ bytes img, (Operation.after [.entry Sample.level] d).assemble = .ok bytes ∧
        Image.load bytes = .ok img ∧ img.dump .plain = .error (.outOfBounds 144 24) := by
  intro d
  have hfails : ((Operation.entry Sample.level).run.outcome d).1 =
      .error (.valueOutOfRange "Level" "far" 4294967296) := by decide +kernel
  obtain ⟨bytes, hbytes⟩ :
      ∃ bytes, (Operation.after [.entry Sample.level] d).assemble = .ok bytes := by
    have hok : (Operation.after [.entry Sample.level] d).assemble.isOk = true := by decide +kernel
    cases h : (Operation.after [.entry Sample.level] d).assemble with
    | ok bytes => exact ⟨bytes, rfl⟩
    | error e =>
      rw [h] at hok
      cases hok
  have hdump : ((Operation.after [.entry Sample.level] d).assemble.toOption.bind
      fun bytes => (Image.load bytes).toOption.map fun img => img.dump .plain) =
      some (.error (.outOfBounds 144 24)) := by decide +kernel
  rw [hbytes] at hdump
  obtain ⟨img, hload, hdump⟩ := Option.map_eq_some_iff.1 hdump
  exact ⟨hfails, bytes, img, hbytes, Image.toOption_eq_some hload, hdump⟩

end Typelib
