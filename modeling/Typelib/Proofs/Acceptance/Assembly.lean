import Typelib.Proofs.Acceptance.Document
import Typelib.Proofs.Body.Count
import Typelib.Proofs.Image.Assembly

/-!
# What was built can be put together

When every entry had its turn and nothing waits, there are as many bodies as identities and no
reference leads nowhere. So only its size can keep a draft from becoming a file, if the identities
were not used up.

* `Draft.Steady.assemble_eq_ok`: a draft that is not too large becomes a file;
* `Draft.Steady.assemble_eq_error`: one that is too large does not;
* `Document.compile_cases`: what becomes of a description.
-/

namespace Typelib

variable {doc : Document} {options : Options} {d : Draft} {e : BuildError}

/-! ### Offsets that are known -/

theorem Placement.body_eq_ok {p : Placement} {s : Section} {id : BodyId} {start : Nat}
    (h : s.startOf? id = some start) : p.body s id = .ok (.ofNat (p.bodies + start)) := by
  rw [Placement.body, h]

theorem foldlM_eq_ok {α β ε : Type} {f : β → α → Except ε β} {as : List α}
    (h : ∀ a ∈ as, ∀ b, ∃ b', f b a = .ok b') : ∀ b, ∃ b', as.foldlM f b = .ok b' := by
  induction as with
  | nil => exact fun b => ⟨b, rfl⟩
  | cons a as ih =>
    rw [List.forall_mem_cons] at h
    intro b
    obtain ⟨b₁, h₁⟩ := h.1 b
    obtain ⟨b', h'⟩ := ih h.2 b₁
    exact ⟨b', by rw [List.foldlM_cons, h₁]; exact h'⟩

/-- References are filled in if all bodies that they lead to are there. -/
theorem Section.link_eq_ok {s : Section} {p : Placement}
    (h : ∀ reloc ∈ s.relocs.toList, ∀ id, reloc.target = .body id →
      ∃ start, s.startOf? id = some start) : ∃ bytes, s.link p = .ok bytes := by
  refine foldlM_eq_ok (fun reloc hmem bytes => ?_) s.bytes
  obtain ⟨offset, ho⟩ : ∃ offset, p.target s reloc.target = .ok offset := by
    cases ht : reloc.target with
    | string offset => exact ⟨_, rfl⟩
    | body id =>
      obtain ⟨start, hs⟩ := h reloc hmem id ht
      exact ⟨_, Placement.body_eq_ok hs⟩
  exact ⟨_, by rw [ho]; rfl⟩

/-- The directory is complete if all bodies that it leads to are there. -/
theorem Placement.mapM_entry_eq_ok {s : Section} {p : Placement} {slots : List Slot}
    (h : ∀ slot ∈ slots, ∀ id, slot.target = .body id → ∃ start, s.startOf? id = some start) :
    ∃ directory, slots.mapM (p.entry s) = .ok directory := by
  induction slots with
  | nil => exact ⟨[], rfl⟩
  | cons slot slots ih =>
    rw [List.forall_mem_cons] at h
    obtain ⟨directory, hd⟩ := ih h.2
    obtain ⟨e, he⟩ : ∃ e, p.entry s slot = .ok e := by
      obtain ⟨kind, name, target⟩ := slot
      cases target with
      | foreign ns => exact ⟨_, rfl⟩
      | body id =>
        obtain ⟨start, hs⟩ := h.1 id rfl
        exact ⟨_, by simp only [Placement.entry, Placement.body_eq_ok hs]; rfl⟩
    exact ⟨e :: directory, by rw [List.mapM_cons, he, hd]; rfl⟩

namespace Draft.Steady

/-- When no entry's turn is to come and nothing waits, all bodies are there. -/
theorem startOf? (h : d.Steady doc options []) (hnil : d.queues.items = [])
    (hfew : d.symbols.handedOut < UInt32.size) {id : BodyId} :
    (∃ start, d.body.startOf? id = some start) ↔ id.toNat < d.symbols.handedOut := by
  have honce := h.once hfew id
  simp only [due, hnil, List.map_nil, List.count_nil, Nat.zero_add, Nat.add_zero, begun] at honce
  rw [← Option.isSome_iff_exists]
  split at honce
  next hlt => simp [hlt, Bool.toNat_eq_one.1 honce]
  next hle => simp [hle, Bool.toNat_eq_zero.1 honce]

theorem bodyCount (h : d.Steady doc options []) (hnil : d.queues.items = [])
    (hfew : d.symbols.handedOut < UInt32.size) : d.body.bodyCount = d.symbols.handedOut :=
  (Section.bodyCount_eq_iff (Nat.le_of_lt hfew) fun _ start hs =>
    (h.startOf? hnil hfew).1 ⟨start, hs⟩).2 fun _ hid => (h.startOf? hnil hfew).2 hid

theorem isEmpty (hnil : d.queues.items = []) : d.queues.isEmpty = true := by
  have hlength := congrArg List.length hnil
  simp only [Queues.items, List.length_append, List.length_map, Fifo.toList, List.length_reverse,
    List.length_nil] at hlength
  simp only [Queues.isEmpty, Queues.waiting, Fifo.size, beq_iff_eq]
  omega

theorem link (h : d.Steady doc options []) (hnil : d.queues.items = [])
    (hfew : d.symbols.handedOut < UInt32.size) : ∃ bytes, d.body.link d.placement = .ok bytes :=
  Section.link_eq_ok fun reloc hmem id ht =>
    (h.startOf? hnil hfew).2 (h.isSealed.relocs reloc hmem id ht)

theorem directory (h : d.Steady doc options []) (hnil : d.queues.items = [])
    (hfew : d.symbols.handedOut < UInt32.size) :
    ∃ entries, d.symbols.slots.toList.mapM (d.placement.entry d.body) = .ok entries := by
  refine Placement.mapM_entry_eq_ok fun slot hmem id ht => (h.startOf? hnil hfew).2 ?_
  obtain ⟨i, hi⟩ := List.getElem?_of_mem hmem
  rw [Array.getElem?_toList] at hi
  have hsound := h.governs.symbols
  by_cases hlocal : i < d.symbols.localNames.size
  · obtain ⟨s, slot', -, -, hid, hslot, ht', -⟩ := hsound.localSlot i _
      (Array.getElem?_eq_getElem hlocal)
    rw [hi] at hslot
    cases hslot
    rw [ht] at ht'
    cases ht'
    exact hid
  · obtain ⟨_, _, _, _, -, -, ⟨_, ht', -⟩, -⟩ := hsound.foreignSlot i slot (Nat.not_lt.1 hlocal) hi
    rw [ht] at ht'
    cases ht'

/-- Only the size of a draft can keep it from being put together. -/
theorem check_eq (h : d.Steady doc options []) (hnil : d.queues.items = [])
    (hfew : d.symbols.handedOut < UInt32.size) :
    d.check = if maxWord32 < d.symbols.pool.bytes.size then
        .error (.tooLarge d.symbols.pool.bytes.size)
      else if maxWord32 < d.placement.total then .error (.tooLarge d.placement.total)
      else .ok () := by
  have hslots := h.governs.symbols.size
  have hcount : d.body.bodyCount = d.symbols.allocated := by
    rw [h.bodyCount hnil hfew, SymbolTable.allocated, SymbolTable.toNat_nextId hfew]
  unfold check
  rw [isEmpty hnil, Bool.not_true, if_neg Bool.false_ne_true, if_neg (not_not.2 hcount),
    if_neg (Nat.not_le.2 hslots), StringPool.validate]
  split_ifs <;> first | rfl | omega

theorem pool_le_total (d : Draft) : d.symbols.pool.bytes.size ≤ d.placement.total := by
  have hbodies : d.placement.strings + d.symbols.pool.bytes.size ≤ d.placement.bodies :=
    le_alignUp _
  have htotal : d.placement.bodies + d.body.size ≤ d.placement.total := le_alignUp _
  omega

/-- A draft that is not too large becomes a file. -/
theorem assemble_eq_ok (h : d.Steady doc options []) (hnil : d.queues.items = [])
    (hfew : d.symbols.handedOut < UInt32.size) (hle : d.placement.total ≤ maxWord32) :
    ∃ bytes, d.assemble = .ok bytes := by
  obtain ⟨body, hbody⟩ := h.link hnil hfew
  obtain ⟨entries, hentries⟩ := h.directory hnil hfew
  have hpool := Nat.le_trans (pool_le_total d) hle
  rw [assemble, h.check_eq hnil hfew, if_neg (Nat.not_lt.2 hpool), if_neg (Nat.not_lt.2 hle)]
  simp only [hbody, hentries]
  exact ⟨_, rfl⟩

/-- A draft that is too large is refused, and the error holds a size that is too large. -/
theorem assemble_eq_error (h : d.Steady doc options []) (hnil : d.queues.items = [])
    (hfew : d.symbols.handedOut < UInt32.size) (hlt : maxWord32 < d.placement.total) :
    ∃ size, d.assemble = .error (.tooLarge size) ∧ maxWord32 < size ∧
      size ≤ d.placement.total := by
  have hcheck := h.check_eq hnil hfew
  by_cases hpool : maxWord32 < d.symbols.pool.bytes.size
  · rw [if_pos hpool] at hcheck
    exact ⟨_, by rw [assemble, hcheck]; rfl, hpool, pool_le_total d⟩
  · rw [if_neg hpool, if_pos hlt] at hcheck
    exact ⟨_, by rw [assemble, hcheck]; rfl, hlt, Nat.le_refl _⟩

end Draft.Steady

/-- A build used up the identities. So a body was begun twice, or there seem to be more bodies than
were promised. -/
structure Document.Exhausted (doc : Document) (options : Options) (e : BuildError) : Prop where
  handedOut : UInt32.size ≤ (doc.draft options).symbols.handedOut
  error : e.isInternal = true ∨ ∃ id start, e = .writtenTwice id start

/-- A description violates a condition, or uses up the identities, or else everything that it calls
for is written and put together. -/
theorem Document.compile_cases (doc : Document) (options : Options) :
    (∃ e, doc.compile options = .error e ∧
      (doc.Violates options e ∨ doc.Exhausted options e)) ∨
      (doc.draft options).symbols.handedOut < UInt32.size ∧
        (doc.draft options).Steady doc options [] ∧ (doc.draft options).queues.items = [] ∧
        doc.compile options =
          (doc.draft options).assemble.map fun bytes => ⟨doc.namespaceName, bytes⟩ := by
  obtain ⟨hyields, hfails⟩ := Build.steady_document doc options
  unfold Document.compile Typelib.compile
  cases hrun : (Build.document doc.nodes).run
      (.new doc.namespaceName doc.sharedLibrary options) with
  | mk outcome d =>
    have hdraft : doc.draft options = d := congrArg Prod.snd hrun
    cases outcome with
    | error e =>
      refine .inl ⟨e, rfl, ?_⟩
      rcases hfails e (congrArg Prod.fst hrun) with hviolates | ⟨hmany, hagain⟩
      · exact .inl hviolates
      · exact .inr ⟨hmany, .inr hagain⟩
    | ok _ =>
      obtain ⟨hsteady, hnil⟩ := hyields () d hrun
      by_cases hfew : d.symbols.handedOut < UInt32.size
      · rw [hdraft]
        refine .inr ⟨hfew, hsteady, hnil, ?_⟩
        simp only
        cases d.assemble <;> rfl
      · -- the count of identities began again, so it is not that of the bodies
        have hempty := Draft.Steady.isEmpty hnil
        have hcount : d.body.bodyCount ≠ d.symbols.allocated :=
          fun hcount => hfew (Build.few_document hrun hempty hcount)
        have hcheck : d.check =
            .error (.bodiesMissing d.body.bodyCount d.symbols.allocated) := by
          rw [Draft.check, hempty, Bool.not_true, if_neg Bool.false_ne_true, if_pos hcount]
        refine .inl ⟨.bodiesMissing d.body.bodyCount d.symbols.allocated, ?_,
          .inr ⟨hdraft ▸ Nat.le_of_not_lt hfew, .inl rfl⟩⟩
        simp only [Draft.assemble, hcheck]
        rfl

end Typelib
