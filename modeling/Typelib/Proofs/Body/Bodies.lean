import Typelib.Proofs.Body.Ledger
import Typelib.Proofs.Body.Next

/-!
# Bodies are written whole

A build that succeeds begins each body once and writes it to its end before it begins the next one.
So at every such moment the bodies are those of identities that were promised to something, each
holds what it was promised to, and no two stand in one place.

* `Written`: a body stands among the pieces and holds what it was promised to;
* `Ledger`: all bodies that were begun are written;
* `Build.ledger_body`, `Build.ledger_drain`, `Build.ledger_entries`: a build keeps a ledger.
-/

namespace Typelib

/-! ### Where bodies begin -/

namespace Section

/-- A body begins at the next boundary, if it was not begun before. -/
theorem start_eq_ok {s s' : Section} {id : BodyId} {pos : Nat} (h : s.start id = (.ok pos, s')) :
    s.startOf? id = none ∧ pos = s.align.size ∧ s' = (s.start id).2 := by
  simp only [start, Prod.mk.injEq] at h
  obtain ⟨hpos, rfl⟩ := h
  split at hpos
  next hnone =>
    cases hpos
    exact ⟨hnone, rfl, rfl⟩
  next => cases hpos

/-- Filler stands in front of a body that is begun. -/
theorem Made.start {s : Section} {ps : List Piece} (h : s.Made ps) (id : BodyId) :
    (s.start id).2.Made (ps ++ [.bytes (padding s.size)]) := by
  have halign := h.put (.bytes (padding s.size))
  exact ⟨halign.bytes, halign.relocs⟩

theorem startOf?_puts (s : Section) (ps : List Piece) (id : BodyId) :
    (s.puts ps).startOf? id = s.startOf? id := by
  rw [startOf?, starts_puts]
  rfl

end Section

/-! ### Ledgers -/

/-- A body stands among the pieces, at a boundary, and holds what it was promised to; this promised
further bodies in turn. -/
def Written (works : List Work) (d : Draft) (ps : List Piece) (id : BodyId) (ids : List BodyId) :
    Prop :=
  ∃ work before body rest, works[id.toNat]? = some work ∧ ps = before ++ (body ++ rest) ∧
    d.body.startOf? id = some (Piece.size before) ∧ Piece.size before % bodyAlign = 0 ∧
    ∀ W F, works <+: W → d.Extends F →
      Fills F W (Piece.size before) work.cells (body.flatMap (Piece.fill F.offset)) ids

/-- A body begins at a position, and consists of pieces that become what it was promised to. -/
def Holds (works : List Work) (d : Draft) (start : Nat) (id : BodyId) (body : List Piece) : Prop :=
  ∃ work ids, works[id.toNat]? = some work ∧ d.body.startOf? id = some start ∧
    ∀ W F, works <+: W → d.Extends F →
      Fills F W start work.cells (body.flatMap (Piece.fill F.offset)) ids

/-- Bodies stand one after another in a certain order, each at the next boundary, with nothing but
filler in front of it. -/
inductive Stacked (works : List Work) (d : Draft) : List BodyId → List Piece → Prop
  | nil : Stacked works d [] []
  | snoc {order : List BodyId} {ps body : List Piece} {id : BodyId} : Stacked works d order ps →
      Holds works d (alignUp (Piece.size ps)) id body →
      Stacked works d (order ++ [id]) (ps ++ .bytes (padding (Piece.size ps)) :: body)

/-- All bodies that were begun are written, and no two begin in one place. -/
structure Ledger (works : List Work) (d : Draft) (ps : List Piece) : Prop where
  accounts : Accounts works d
  made : d.body.Made ps
  /-- All bodies, each once, make up all pieces. -/
  stacked : ∃ order, Stacked works d order ps ∧ order.Nodup ∧
    ∀ id, (d.body.startOf? id).isSome = true ↔ id ∈ order
  written : ∀ id start, d.body.startOf? id = some start → ∃ ids, Written works d ps id ids
  start_lt : ∀ id start, d.body.startOf? id = some start → start < d.body.size
  injective : ∀ id id' start, d.body.startOf? id = some start →
    d.body.startOf? id' = some start → id = id'

/-- Promises, names and bodies are kept. -/
structure Grows (works : List Work) (d : Draft) (ps : List Piece) (works' : List Work) (d' : Draft)
    (ps' : List Piece) : Prop where
  works : works <+: works'
  toExtends : d.Extends d'
  pieces : ps <+: ps'
  starts : ∀ id start, d.body.startOf? id = some start → d'.body.startOf? id = some start

variable {works works' works'' : List Work} {d d' d'' : Draft} {ps ps' ps'' : List Piece}
  {id : BodyId} {ids : List BodyId}

theorem Grows.refl (works : List Work) (d : Draft) (ps : List Piece) :
    Grows works d ps works d ps :=
  ⟨List.prefix_refl _, .refl _, List.prefix_refl _, fun _ _ h => h⟩

theorem Grows.trans (h : Grows works d ps works' d' ps')
    (h' : Grows works' d' ps' works'' d'' ps'') : Grows works d ps works'' d'' ps'' where
  works := h.works.trans h'.works
  toExtends := h.toExtends.trans h'.toExtends
  pieces := h.pieces.trans h'.pieces
  starts id start hs := h'.starts id start (h.starts id start hs)

theorem Written.mono (h : Written works d ps id ids) (hg : Grows works d ps works' d' ps') :
    Written works' d' ps' id ids := by
  obtain ⟨work, before, body, rest, hwork, rfl, hstart, halign, hfill⟩ := h
  obtain ⟨more, rfl⟩ := hg.pieces
  refine ⟨work, before, body, rest ++ more, getElem?_of_prefix hg.works hwork, ?_,
    hg.starts _ _ hstart, halign, fun W F hW hF => ?_⟩
  · simp only [List.append_assoc]
  · exact hfill W F (hg.works.trans hW) (hg.toExtends.trans hF)

theorem Stacked.mono {order : List BodyId} (h : Stacked works d order ps)
    (hg : Grows works d ps works' d' ps') : Stacked works' d' order ps := by
  induction h with
  | nil => exact .nil
  | snoc hs hb ih =>
    obtain ⟨work, ids, hwork, hstart, hfill⟩ := hb
    refine .snoc (ih ⟨hg.works, hg.toExtends, ?_, hg.starts⟩)
      ⟨work, ids, getElem?_of_prefix hg.works hwork, hg.starts _ _ hstart, fun W F hW hF => ?_⟩
    · exact (List.prefix_append _ _).trans hg.pieces
    · exact hfill W F (hg.works.trans hW) (hg.toExtends.trans hF)

theorem Ledger.lt_of_start (h : Ledger works d ps) {start : Nat}
    (hs : d.body.startOf? id = some start) : id.toNat < works.length := by
  obtain ⟨ids, work, _, _, _, hwork, -⟩ := h.written id start hs
  exact (List.getElem?_eq_some_iff.1 hwork).1

/-- Identities were handed out between two moments, in their order. -/
def Handed (d : Draft) (ids : List BodyId) (d' : Draft) : Prop :=
  (∀ id ∈ ids, d.symbols.handedOut ≤ id.toNat ∧ id.toNat < d'.symbols.handedOut) ∧
    ids.Pairwise (· < ·)

/-- Whatever waits was promised. -/
theorem Accounts.items (ha : Accounts works d) {item : Work × BodyId}
    (hm : item ∈ d.queues.items) : works[item.2.toNat]? = some item.1 := by
  simp only [Queues.items, List.mem_append, List.mem_map] at hm
  obtain (⟨item, hm, rfl⟩ | ⟨item, hm, rfl⟩) | ⟨item, hm, rfl⟩ := hm
  · exact ha.types item hm
  · exact ha.signatures item hm
  · exact ha.constants item hm

/-- What is taken from a queue was promised. -/
theorem Accounts.of_pops (ha : Accounts works d) {work : Work} {queues : Queues}
    (h : Build.Pops d.queues work id queues) : works[id.toNat]? = some work := by
  have hm : (work, id) ∈ d.queues.items := h.items.mem_iff.2 List.mem_cons_self
  exact ha.items hm

/-- An item is taken from a queue. -/
theorem Accounts.pops (ha : Accounts works d) {work : Work} {queues : Queues}
    (h : Build.Pops d.queues work id queues) : Accounts works { d with queues } := by
  have hitem : ∀ item ∈ queues.items, works[item.2.toNat]? = some item.1 :=
    fun item hm => ha.items (h.items.mem_iff.2 (List.mem_cons_of_mem _ hm))
  simp only [Queues.items, List.mem_append, List.mem_map, or_imp, forall_and, forall_exists_index,
    and_imp, forall_apply_eq_imp_iff₂] at hitem
  exact ⟨ha.symbols, ha.few, ha.length, ha.shared, hitem.1.1, hitem.1.2, hitem.2⟩

/-- Bodies that stand are those of another draft, if whatever became bytes in all drafts behind the
first one does so in all drafts behind the other. -/
theorem Ledger.transfer (hl : Ledger works d ps) (ha : Accounts works' d') (hw : works <+: works')
    (hb : d'.body = d.body)
    (hfill : ∀ (start : Nat) (cs : List Cell) (body : List Piece) (ids : List BodyId),
      (∀ W F, works <+: W → d.Extends F →
        Fills F W start cs (body.flatMap (Piece.fill F.offset)) ids) →
      ∀ W F, works' <+: W → d'.Extends F →
        Fills F W start cs (body.flatMap (Piece.fill F.offset)) ids) : Ledger works' d' ps := by
  have stacked {order : List BodyId} {ps : List Piece} (h : Stacked works d order ps) :
      Stacked works' d' order ps := by
    induction h with
    | nil => exact .nil
    | snoc _ hbody ih =>
      obtain ⟨work, ids, hwork, hstart, hf⟩ := hbody
      exact .snoc ih ⟨work, ids, getElem?_of_prefix hw hwork, hb ▸ hstart, hfill _ _ _ _ hf⟩
  obtain ⟨order, hstack, hnodup, hmem⟩ := hl.stacked
  refine ⟨ha, hb ▸ hl.made, ⟨order, stacked hstack, hnodup, hb ▸ hmem⟩, fun id start hs => ?_,
    hb ▸ hl.start_lt, hb ▸ hl.injective⟩
  rw [hb] at hs
  obtain ⟨ids, work, before, body, rest, hwork, hps, hstart, halign, hf⟩ := hl.written id start hs
  exact ⟨ids, work, before, body, rest, getElem?_of_prefix hw hwork, hps, hb ▸ hstart, halign,
    hfill _ _ _ _ hf⟩

/-- Names are resolved and bodies are promised, and nothing is written. -/
theorem Ledger.grow (hl : Ledger works d ps) (ha : Accounts works' d') (hw : works <+: works')
    (hx : d.Extends d') (hb : d'.body = d.body) :
    Ledger works' d' ps ∧ Grows works d ps works' d' ps :=
  ⟨hl.transfer ha hw hb fun _ _ _ _ h W F hW hF => h W F (hw.trans hW) (hx.trans hF),
    hw, hx, List.prefix_refl _, fun _ _ hs => hb ▸ hs⟩

/-- What is taken from a queue is no part of a body. -/
theorem Ledger.pops (hl : Ledger works d ps) {work : Work} {queues : Queues}
    (h : Build.Pops d.queues work id queues) :
    Ledger works { d with queues } ps ∧ Grows works d ps works { d with queues } ps :=
  hl.grow (hl.accounts.pops h) (List.prefix_refl _) (.queues d queues) rfl

/-- One more body is written, behind all others. -/
theorem Ledger.extend {body : List Piece} (hl : Ledger works d ps) (ha : Accounts works' d')
    (hps : ps' = ps ++ .bytes (padding d.body.size) :: body) (hm : d'.body.Made ps')
    (hg : Grows works d ps works' d' ps') (hw : Written works' d' ps' id ids)
    (hb : Holds works' d' (alignUp d.body.size) id body)
    (hstarts : ∀ x, d'.body.startOf? x =
      if id = x then some (alignUp d.body.size) else d.body.startOf? x)
    (hnone : d.body.startOf? id = none) (hlt : alignUp d.body.size < d'.body.size) :
    Ledger works' d' ps' := by
  have hbefore : ∀ x start, d.body.startOf? x = some start → start < alignUp d.body.size :=
    fun x start hx => Nat.lt_of_lt_of_le (hl.start_lt x start hx) (le_alignUp _)
  refine ⟨ha, hm, ?_, fun x start hs => ?_, fun x start hs => ?_, fun x y start hsx hsy => ?_⟩
  · obtain ⟨order, hstack, hnodup, hmem⟩ := hl.stacked
    have hnew : id ∉ order := by
      rw [← hmem, hnone]
      simp
    rw [hl.made.size] at hps hb
    refine ⟨order ++ [id], hps ▸ .snoc (hstack.mono hg) hb, ?_, fun x => ?_⟩
    · exact List.nodup_append.2 ⟨hnodup, List.pairwise_singleton _ id, fun a ha b hb he =>
        hnew (List.mem_singleton.1 hb ▸ he ▸ ha)⟩
    · rw [hstarts, List.mem_append, List.mem_singleton, ← hmem]
      by_cases he : id = x
      · simp [he]
      · simp [he, Ne.symm he]
  · rw [hstarts] at hs
    by_cases he : id = x
    · exact ⟨ids, he ▸ hw⟩
    · rw [if_neg he] at hs
      obtain ⟨ids', hw'⟩ := hl.written x start hs
      exact ⟨ids', hw'.mono hg⟩
  · rw [hstarts] at hs
    by_cases he : id = x
    · rw [if_pos he] at hs
      cases hs
      exact hlt
    · rw [if_neg he] at hs
      exact Nat.lt_trans (hbefore x start hs) hlt
  · rw [hstarts] at hsx hsy
    -- the new body begins behind all others, so no old one begins where it does
    by_cases hx : id = x <;> by_cases hy : id = y
    · exact hx.symm.trans hy
    · rw [if_pos hx] at hsx
      rw [if_neg hy] at hsy
      cases hsx
      exact absurd (hbefore y _ hsy) (Nat.lt_irrefl _)
    · rw [if_neg hx] at hsx
      rw [if_pos hy] at hsy
      cases hsy
      exact absurd (hbefore x _ hsx) (Nat.lt_irrefl _)
    · rw [if_neg hx] at hsx
      rw [if_neg hy] at hsy
      exact hl.injective x y start hsx hsy

namespace Build

/-- A body is begun and written to its end. -/
theorem ledger_body {work : Work} (hl : Ledger works d ps) (hw : works[id.toNat]? = some work)
    (h : (body work id).Yields d () d') (hfew : d'.symbols.handedOut < UInt32.size) :
    ∃ works' ps' ids, Ledger works' d' ps' ∧ Grows works d ps works' d' ps' ∧
      Written works' d' ps' id ids ∧ Handed d ids d' := by
  obtain ⟨pos, _, hstart, hcells⟩ := yields_bind.1 h
  obtain ⟨s, hs, rfl⟩ := yields_start.1 hstart
  obtain ⟨hnone, -, rfl⟩ := Section.start_eq_ok hs
  obtain ⟨works', qs, ids, hwrote, hfill⟩ := wrote_cells (hl.accounts.write _) hcells hfew
  have hbody : d'.body = (d.body.start id).2.puts qs := hwrote.body
  have hsize : (d.body.start id).2.size = alignUp d.body.size := d.body.size_align
  -- the new body comes after all pieces so far and some filler
  obtain ⟨before, hbefore⟩ : ∃ before, before = ps ++ [.bytes (padding d.body.size)] := ⟨_, rfl⟩
  have hmade : (d.body.start id).2.Made before := hbefore ▸ hl.made.start id
  have hpos : Piece.size before = alignUp d.body.size := by rw [← hmade.size, hsize]
  have hstarts : ∀ x, d'.body.startOf? x =
      if id = x then some (alignUp d.body.size) else d.body.startOf? x := by
    intro x
    rw [hbody, Section.startOf?_puts, Section.startOf?_start, d.body.size_align]
  have hold : ∀ x start, d.body.startOf? x = some start → d'.body.startOf? x = some start := by
    intro x start hx
    have hne : id ≠ x := by
      rintro rfl
      rw [hnone] at hx
      cases hx
    rw [hstarts, if_neg hne, hx]
  have hgrows : Grows works d ps works' d' (before ++ qs) :=
    ⟨hwrote.works, (Draft.Extends.write _ _).trans hwrote.toExtends, by simp [hbefore], hold⟩
  have hwritten : Written works' d' (before ++ qs) id ids := by
    refine ⟨work, before, qs, [], getElem?_of_prefix hwrote.works hw, by simp,
      by rw [hstarts, if_pos rfl, hpos], by rw [hpos, alignUp_mod], fun W F hW hF => ?_⟩
    rw [hpos, ← hsize]
    exact hfill W F hW hF
  have hlt : alignUp d.body.size < d'.body.size := by
    have hne := Work.ne_nil_of_fills (hfill works' d' (List.prefix_refl _) (.refl _))
    have hlength := List.length_pos_iff.2 hne
    rw [Piece.length_flatMap_fill] at hlength
    rw [hbody, Section.size_puts, hsize]
    omega
  have hmade' : d'.body.Made (before ++ qs) := hbody ▸ hmade.puts qs
  have hholds : Holds works' d' (alignUp d.body.size) id qs := by
    refine ⟨work, ids, getElem?_of_prefix hwrote.works hw, by rw [hstarts, if_pos rfl],
      fun W F hW hF => ?_⟩
    rw [← hsize]
    exact hfill W F hW hF
  have hps : before ++ qs = ps ++ .bytes (padding d.body.size) :: qs := by simp [hbefore]
  exact ⟨works', _, ids,
    hl.extend hwrote.accounts hps hmade' hgrows hwritten hholds hstarts hnone hlt, hgrows,
    hwritten, hwrote.ids_mem, hwrote.increasing⟩

/-! ### Queues -/

/-- The next body that waits is written. -/
theorem ledger_next {more : Bool} (hl : Ledger works d ps) (h : next.Yields d more d')
    (hfew : d'.symbols.handedOut < UInt32.size) :
    ∃ works' ps', Ledger works' d' ps' ∧ Grows works d ps works' d' ps' := by
  obtain ⟨-, -, rfl⟩ | ⟨-, work, id, queues, hpops, hbody⟩ := yields_next h
  · exact ⟨works, ps, hl, .refl _ _ _⟩
  · obtain ⟨hl', hg⟩ := hl.pops hpops
    obtain ⟨works', ps', -, hl'', hg', -⟩ := ledger_body hl' (hl.accounts.of_pops hpops) hbody hfew
    exact ⟨works', ps', hl'', hg.trans hg'⟩

/-- All bodies that wait are written. -/
theorem ledger_drain {n : Nat} (hl : Ledger works d ps) (h : drain.Yields d n d')
    (hfew : d'.symbols.handedOut < UInt32.size) :
    ∃ works' ps', Ledger works' d' ps' ∧ Grows works d ps works' d' ps' := by
  have hloop : ∀ (fuel done : Nat) {works : List Work} {d : Draft} {ps : List Piece},
      Ledger works d ps → (drainLoop fuel done).Yields d n d' →
      ∃ works' ps', Ledger works' d' ps' ∧ Grows works d ps works' d' ps' := by
    -- a round needs nothing but the ledger of the one before it
    intro fuel
    induction fuel with
    | zero =>
      intro done works d ps hl h
      obtain ⟨-, rfl⟩ := yields_pure.1 h
      exact ⟨works, ps, hl, .refl _ _ _⟩
    | succ fuel ih =>
      intro done works d ps hl h
      obtain ⟨more, d₁, hnext, hrest⟩ := yields_bind.1 h
      cases more with
      | true =>
        have hfew₁ :=
          Nat.lt_of_le_of_lt ((consults_drainLoop fuel (done + 1)).yields hrest).handedOut hfew
        obtain ⟨works₁, ps₁, hl₁, hg₁⟩ := ledger_next hl hnext hfew₁
        obtain ⟨works', ps', hl', hg'⟩ := ih (done + 1) hl₁ hrest
        exact ⟨works', ps', hl', hg₁.trans hg'⟩
      | false =>
        obtain ⟨-, rfl⟩ := yields_pure.1 hrest
        exact ledger_next hl hnext hfew
  obtain ⟨_, _, hget, hrest⟩ := yields_bind.1 h
  obtain ⟨rfl, rfl⟩ := yields_get.1 hget
  exact hloop _ 0 hl hrest

end Build

/-! ### Entries -/

/-- The node has a slot, and its body was promised. -/
def Promised (works : List Work) (d : Draft) (node : Node) : Prop :=
  ∃ symbol, d.symbols.lookup node.name = some symbol ∧ works[symbol.id.toNat]? = some (.entry node)

theorem Promised.mono {node : Node} (h : Promised works d node)
    (hg : Grows works d ps works' d' ps') : Promised works' d' node := by
  obtain ⟨symbol, hs, hw⟩ := h
  refine ⟨symbol, ?_, getElem?_of_prefix hg.works hw⟩
  rwa [SymbolTable.lookup, hg.toExtends.symbols.locals]

/-- The body of a node is written, and it promised certain bodies. -/
def EntryWritten (works : List Work) (d : Draft) (ps : List Piece) (node : Node)
    (ids : List BodyId) : Prop :=
  ∃ symbol, d.symbols.lookup node.name = some symbol ∧
    works[symbol.id.toNat]? = some (.entry node) ∧ Written works d ps symbol.id ids

theorem EntryWritten.mono {node : Node} (h : EntryWritten works d ps node ids)
    (hg : Grows works d ps works' d' ps') : EntryWritten works' d' ps' node ids := by
  obtain ⟨symbol, hs, hw, hwritten⟩ := h
  refine ⟨symbol, ?_, getElem?_of_prefix hg.works hw, hwritten.mono hg⟩
  rwa [SymbolTable.lookup, hg.toExtends.symbols.locals]

namespace Build

/-- The body of an entry is written. -/
theorem ledger_entry {node : Node} (hl : Ledger works d ps) (hp : Promised works d node)
    (h : (entry node).Yields d () d') (hfew : d'.symbols.handedOut < UInt32.size) :
    ∃ works' ps' ids, Ledger works' d' ps' ∧ Grows works d ps works' d' ps' ∧
      EntryWritten works' d' ps' node ids ∧ Handed d ids d' := by
  obtain ⟨symbol, hs, hw⟩ := hp
  obtain ⟨_, _, hget, hentry⟩ := yields_bind.1 h
  obtain ⟨rfl, rfl⟩ := yields_get.1 hget
  rw [hs] at hentry
  obtain ⟨works', ps', ids, hl', hg, hwritten, hids⟩ := ledger_body hl hw hentry hfew
  refine ⟨works', ps', ids, hl', hg, ⟨symbol, ?_, getElem?_of_prefix hg.works hw, hwritten⟩, hids⟩
  rwa [SymbolTable.lookup, hg.toExtends.symbols.locals]

/-- All entries are written, with all that they call for, and promise bodies in their order. -/
theorem ledger_entries {nodes : List Node} : ∀ {works : List Work} {d : Draft} {ps : List Piece},
    Ledger works d ps → (∀ node ∈ nodes, Promised works d node) →
    (entries nodes).Yields d () d' → d'.symbols.handedOut < UInt32.size →
    ∃ works' ps' idss, Ledger works' d' ps' ∧ Grows works d ps works' d' ps' ∧
      List.Forall₂ (EntryWritten works' d' ps') nodes idss ∧ Handed d idss.flatten d' := by
  induction nodes with
  | nil =>
    intro works d ps hl _ h _
    obtain ⟨-, rfl⟩ := yields_pure.1 h
    exact ⟨works, ps, [], hl, .refl _ _ _, .nil, by simp [Handed]⟩
  | cons node nodes ih =>
    intro works d ps hl hp h hfew
    rw [List.forall_mem_cons] at hp
    obtain ⟨_, d₁, hentry, hrest⟩ := yields_bind.1 h
    obtain ⟨_, d₂, hdrain, hrest⟩ := yields_bind.1 hrest
    have hfew₂ := Nat.lt_of_le_of_lt ((consults_entries nodes).yields hrest).handedOut hfew
    have hfew₁ := Nat.lt_of_le_of_lt (consults_drain.yields hdrain).handedOut hfew₂
    obtain ⟨works₁, ps₁, ids, hl₁, hg₁, hwritten, hids⟩ := ledger_entry hl hp.1 hentry hfew₁
    obtain ⟨works₂, ps₂, hl₂, hg₂⟩ := ledger_drain hl₁ hdrain hfew₂
    have hg := hg₁.trans hg₂
    obtain ⟨works', ps', idss, hl', hg', hall, hidss⟩ :=
      ih hl₂ (fun n hn => (hp.2 n hn).mono hg) hrest hfew
    refine ⟨works', ps', ids :: idss, hl', hg.trans hg',
      .cons (hwritten.mono (hg₂.trans hg')) hall, ?_, ?_⟩
    · intro id hid
      -- identities are handed out in order, also those that draining hands out in between
      have hle₁ := hg₁.toExtends.symbols.handedOut
      have hle₂ := hg₂.toExtends.symbols.handedOut
      have hle := hg'.toExtends.symbols.handedOut
      rw [List.flatten_cons, List.mem_append] at hid
      rcases hid with hid | hid
      · exact (hids.1 id hid).imp_right fun hlt =>
          Nat.lt_of_lt_of_le hlt (Nat.le_trans hle₂ hle)
      · exact (hidss.1 id hid).imp_left (Nat.le_trans (Nat.le_trans hle₁ hle₂))
    · rw [List.flatten_cons, List.pairwise_append]
      refine ⟨hids.2, hidss.2, fun id hid id' hid' => ?_⟩
      exact UInt32.lt_iff_toNat_lt.2 (Nat.lt_of_lt_of_le (hids.1 id hid).2
        (Nat.le_trans hg₂.toExtends.symbols.handedOut (hidss.1 id' hid').1))

end Build

end Typelib
