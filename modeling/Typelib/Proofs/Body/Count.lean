import Typelib.Proofs.Body.Document

/-!
# Bodies and identities are counted together

A step of a build that succeeds loses no identity: each one that it hands out is that of a body which
waits from then on, or is begun by the step itself. A body is begun once, so a whole build that
succeeds begins as many bodies as it hands out identities, however many these are. A draft can be put
together only if the next identity, which is a word, tells the number of bodies; so no identity was
handed out twice.

* `Build.Covers`: how many identities a step covers, besides those that it hands out;
* `Build.covered_document`: the count of a whole build;
* `Build.few_document`: a build that can be put together has handed out no identity twice.
-/

namespace Typelib

/-- Beginning a body adds to their number, unless it was begun before. -/
theorem Section.bodyCount_start (s : Section) (id : BodyId) :
    (s.start id).2.bodyCount = s.bodyCount + if (s.startOf? id).isNone then 1 else 0 := by
  have hsize : (s.start id).2.bodyCount = (s.starts.insert id s.align.size).size := rfl
  have hmem : id ∈ s.starts ↔ (s.startOf? id).isNone = false := by
    rw [startOf?, Std.TreeMap.mem_iff_contains, ← Std.TreeMap.isSome_getElem?_eq_contains]
    cases s.starts[id]? <;> simp
  rw [hsize, Std.TreeMap.size_insert, bodyCount]
  by_cases h : id ∈ s.starts
  · simp [h, hmem.1 h]
  · have hnone : (s.startOf? id).isNone = true := by
      rw [hmem] at h
      simpa using h
    simp [h, hnone]

/-- Number of bodies that were begun or wait. -/
def Draft.covered (d : Draft) : Nat := d.body.bodyCount + d.queues.waiting

namespace Build

variable {α β : Type} {d d' : Draft} {n m : Nat}

/-- A step that succeeds adds as many bodies as it hands out identities, and some more. -/
def Covers (n : Nat) (x : Build α) : Prop := ∀ d a d', x.Yields d a d' →
  d'.symbols.handedOut + (d.covered + n) = d.symbols.handedOut + d'.covered

theorem covers_pure (a : α) : Covers 0 (pure a : Build α) := by
  intro d b d' h
  obtain ⟨-, rfl⟩ := yields_pure.1 h
  rfl

theorem covers_throw (e : BuildError) : Covers n (throw e : Build α) :=
  fun _ _ _ h => absurd h not_yields_throw

theorem Covers.bind {x : Build α} {f : α → Build β} (hx : Covers n x) (hf : ∀ a, Covers m (f a)) :
    Covers (n + m) (x >>= f) := by
  intro d b d' h
  obtain ⟨a, d₁, ha, hb⟩ := yields_bind.1 h
  have hfirst := hx d a d₁ ha
  have hrest := hf a d₁ b d' hb
  omega

/-- A step that covers no more than it hands out may stand in front of any other. -/
theorem Covers.then {x : Build α} {f : α → Build β} (hx : Covers 0 x) (hf : ∀ a, Covers m (f a)) :
    Covers m (x >>= f) := by
  have h := hx.bind hf
  rwa [Nat.zero_add] at h

/-- A step may look at the draft first. -/
theorem covers_get_bind {f : Draft → Build α} (h : ∀ d, Covers n (f d)) : Covers n (get >>= f) := by
  intro d a d' hy
  obtain ⟨_, _, hget, hrest⟩ := yields_bind.1 hy
  obtain ⟨rfl, rfl⟩ := yields_get.1 hget
  exact h _ _ a d' hrest

theorem covers_names {x : Build α} (h : Within Draft.Names x) : Covers 0 x := by
  intro d a d' hy
  have hn := h.yields hy
  rw [Draft.covered, Draft.covered, hn.body, hn.queues, hn.handedOut]
  rfl

theorem covers_onBody (f : Section → Section) (h : ∀ s, (f s).starts = s.starts) :
    Covers 0 (onBody f) := by
  intro d u d' hy
  obtain rfl := yields_onBody.1 hy
  have hcount : (f d.body).bodyCount = d.body.bodyCount := by rw [Section.bodyCount, h]; rfl
  simp only [Draft.covered, hcount]
  rfl

/-- A body that is begun was not begun before. -/
theorem covers_start (id : BodyId) : Covers 1 (start id) := by
  intro d pos d' hy
  obtain ⟨s, hs, rfl⟩ := yields_start.1 hy
  obtain ⟨hnone, -, rfl⟩ := Section.start_eq_ok hs
  have hcount := d.body.bodyCount_start id
  rw [hnone, Option.isNone_none, if_pos rfl] at hcount
  simp only [Draft.covered, hcount]
  omega

/-! ### Types and cells -/

theorem covers_typeBody (type : Ty) : Covers 0 (typeBody type) := by
  intro d id d' hy
  obtain ⟨d₁, hn, ⟨e, he⟩ | ⟨s, -, ⟨_, -, hk⟩ | ⟨-, hk⟩⟩⟩ := typeBody_outcome type d
  · rw [Yields, he] at hy
    cases hy
  · rw [Yields, hk] at hy
    cases hy
    rw [Draft.covered, Draft.covered, hn.body, hn.queues, hn.handedOut]
    rfl
  · -- the identity that is handed out is that of the body that is added to the queue
    rw [Yields, hk] at hy
    cases hy
    have hwaiting := d₁.queues.waiting_pushType type d₁.symbols.nextId
    have hhanded : (d₁.promiseType type s.text).symbols.handedOut = d.symbols.handedOut + 1 :=
      congrArg Nat.succ hn.handedOut
    have hcovered : (d₁.promiseType type s.text).covered =
        d₁.body.bodyCount + (d₁.queues.pushType type d₁.symbols.nextId).waiting := rfl
    rw [hhanded, hcovered, hwaiting, Draft.covered, hn.body, hn.queues]
    omega

theorem covers_typeUse (type : Ty) : Covers 0 (typeUse type) := by
  cases hc : type.tag.isComplex with
  | false => exact covers_names (typeUse_of_not_complex hc).1
  | true =>
    rw [typeUse_of_complex hc]
    intro d use d' hy
    obtain ⟨id, hbody, -⟩ := yields_map.1 hy
    exact covers_typeBody type d id d' hbody

/-- A signature or a constant is referred to, and its body waits. -/
theorem covers_promise {push : BodyId → Queues → Queues}
    (h : ∀ id q, (push id q).waiting = q.waiting + 1) : Covers 0 (do
      let id ← allocate
      onQueues fun q => push id q
      onBody fun s => s.bodyRef id : Build Unit) := by
  intro d u d' hy
  obtain ⟨id, d₁, ha, hy⟩ := yields_bind.1 hy
  obtain ⟨_, d₂, hq, hb⟩ := yields_bind.1 hy
  obtain ⟨_, heq, rfl⟩ := yields_onSymbols.1 ha
  cases heq
  obtain rfl := yields_onQueues.1 hq
  obtain rfl := yields_onBody.1 hb
  have hwaiting := h d.symbols.nextId d.queues
  have hcount : (d.body.bodyRef d.symbols.nextId).bodyCount = d.body.bodyCount := rfl
  simp only [Draft.covered, hwaiting, hcount]
  omega

theorem covers_cell (c : Cell) : Covers 0 (cell c) := by
  cases c with
  | byte | word16 | word32 | typeRef | raw | align =>
    rw [cell]
    exact covers_onBody _ fun _ => rfl
  | name s => exact (covers_names (within_intern s)).then fun _ => covers_onBody _ fun _ => rfl
  | optName s =>
    refine (covers_names (within_internOpt s)).then fun offset => covers_onBody _ fun _ => ?_
    cases offset <;> rfl
  | slot name => exact (covers_names (within_resolve name)).then fun _ => covers_onBody _ fun _ => rfl
  | type type =>
    refine (covers_typeUse type).then fun use => covers_onBody _ fun _ => ?_
    cases use <;> rfl
  | signature s => exact covers_promise fun id q => q.waiting_pushSignature s id
  | value c => exact covers_promise fun id q => q.waiting_pushConstant c id
  | errorType flags names =>
    refine (covers_names (within_domains names)).then fun refs => ?_
    split
    · exact covers_throw _
    · refine Covers.then ?_ fun _ => ?_
      · exact covers_onBody _ fun _ => rfl
      · exact covers_onBody _ fun _ => rfl
  | reject e => exact covers_throw e

theorem covers_cells (cs : List Cell) : Covers 0 (cells cs) := by
  induction cs with
  | nil => exact covers_pure ()
  | cons c cs ih => exact (covers_cell c).then fun _ => ih

/-! ### Bodies -/

theorem covers_entry (node : Node) : Covers 1 (entry node) := by
  refine covers_get_bind fun d => ?_
  split
  · exact covers_throw _
  · exact (covers_start _).bind fun _ => covers_cells _

theorem covers_body (work : Work) (id : BodyId) : Covers 1 (body work id) :=
  (covers_start id).bind fun _ => covers_cells work.cells

/-- A body that is begun does not wait any more. -/
theorem covers_next : Covers 0 next := by
  intro d more d' h
  obtain ⟨-, -, rfl⟩ | ⟨-, work, id, queues, hpops, hbody⟩ := yields_next h
  · rfl
  · have hwaiting := hpops.waiting
    have hcount := covers_body work id _ _ _ hbody
    simp only [Draft.covered] at hcount ⊢
    omega

theorem covers_drain : Covers 0 drain := by
  have loop (fuel : Nat) : ∀ done, Covers 0 (drainLoop fuel done) := by
    induction fuel with
    | zero => exact covers_pure
    | succ fuel ih =>
      refine fun done => covers_next.then fun more => ?_
      split
      · exact ih (done + 1)
      · exact covers_pure done
  exact covers_get_bind fun _ => loop _ 0

/-- The entries of a description were handed their identities before. -/
theorem covers_entries (nodes : List Node) : Covers nodes.length (entries nodes) := by
  induction nodes with
  | nil => exact covers_pure ()
  | cons node nodes ih =>
    have hcount := (covers_entry node).bind fun _ => covers_drain.then fun _ => ih
    rwa [Nat.add_comm] at hcount

/-! ### Whole builds -/

/-- A build of a whole description has a body for each identity, or the body waits. -/
theorem covered_document {ns : String} {sharedLibrary : Option String} {options : Options}
    {nodes : List Node} (h : (document nodes).Yields (.new ns sharedLibrary options) () d) :
    d.symbols.handedOut = d.covered := by
  obtain ⟨_, d₁, hreg, hentries⟩ := yields_bind.1 h
  obtain ⟨hd₁, -⟩ := registered_register (Draft.registered_new ns sharedLibrary options)
    (Draft.titled_new ns sharedLibrary options) hreg
  have hcount := covers_entries nodes d₁ () d hentries
  have hblank : d₁.covered = 0 := by rw [Draft.covered, hd₁.body, hd₁.queues]; rfl
  rw [hblank, hd₁.handedOut, List.nil_append] at hcount
  omega

/-- If nothing waits and the bodies are as many as the next identity tells, there are fewer of them
than words. -/
theorem few_document {ns : String} {sharedLibrary : Option String} {options : Options}
    {nodes : List Node} (h : (document nodes).Yields (.new ns sharedLibrary options) () d)
    (hq : d.queues.isEmpty = true) (hc : d.body.bodyCount = d.symbols.allocated) :
    d.symbols.handedOut < UInt32.size := by
  have hwaiting : d.queues.waiting = 0 := by simpa [Queues.isEmpty] using hq
  have hcount := covered_document h
  rw [Draft.covered, hwaiting, hc, SymbolTable.allocated] at hcount
  rw [hcount]
  exact d.symbols.nextId.toNat_lt

end Build

end Typelib
