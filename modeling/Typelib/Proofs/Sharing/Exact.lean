import Typelib.Proofs.Sharing.Invariant
import Typelib.Proofs.Type.Text

/-!
# Types share bodies exactly if they are equivalent

Once the local entries of a draft have their slots, two uses of complex types are given one body if
and only if the types are equivalent, wherever in the run they stand. The body is queued with the
first of them, and begun once. All this holds of runs that do not use up the identities, since a
body whose identity was handed out before is shared with the one that had it.

* `Draft.Moves.used`: what is noted of a use holds ever after;
* `Operation.used_iff_equivalent`: sharing in a run of operations.
-/

namespace Typelib

namespace Event

/-- A body is queued to be written. -/
def queues (id : BodyId) : Event → Bool
  | used _ body fresh => fresh && body == id
  | begun _ => false

end Event

namespace Draft

variable {reg : Bool} {d d' : Draft} {es : List Event}

/-! ### Uses -/

/-- The draft holds a body for the shape of a type, whose names have slots. -/
def Gives (d : Draft) (type : Ty) (id : BodyId) : Prop :=
  d.Knows type ∧ d.types[(type.shape d.symbols.slotOf).text]? = some id

theorem Extends.gives (h : d.Extends d') {type : Ty} {id : BodyId} (hg : d.Gives type id) :
    d'.Gives type id := by
  refine ⟨h.knows hg.1, ?_⟩
  rw [h.shape hg.1]
  exact h.types _ _ hg.2

theorem Move.used (h : Move reg d es d') {type : Ty} {id : BodyId} {fresh : Bool}
    (hmem : .used type id fresh ∈ es) : d'.Gives type id := by
  have begins : ∀ body : BodyId, Event.used type id fresh ∉ Build.startLog body d := by
    intro body
    unfold Build.startLog
    split <;> simp
  cases h with
  | share hknows hid =>
    rw [List.mem_singleton] at hmem
    cases hmem
    exact ⟨hknows, hid⟩
  | type hknows hnone =>
    rw [List.mem_singleton] at hmem
    cases hmem
    have hx : d.Extends (d.promiseType type (type.shape d.symbols.slotOf).text) :=
      d.extends_promiseType _ hnone
    refine ⟨hx.knows hknows, ?_⟩
    rw [hx.shape hknows]
    simp [promiseType]
  | beginEntry | beginType | beginSignature | beginConstant => exact absurd hmem (begins _)
  | _ => cases hmem

/-- What is noted of a use holds ever after. -/
theorem Moves.used (h : Moves false d es d') {type : Ty} {id : BodyId} {fresh : Bool}
    (hmem : .used type id fresh ∈ es) : d'.Gives type id := by
  induction h with
  | nil => cases hmem
  | cons hm hms ih =>
    rcases List.mem_append.1 hmem with hmem | hmem
    -- later moves keep what this one gave
    · exact hms.extends.gives (hm.used hmem)
    · exact ih hmem

/-- Bodies are one if and only if the types are equivalent. -/
theorem Shared.gives_iff (h : d.Shared) {a b : Ty} {i j : BodyId} (ha : d.Gives a i)
    (hb : d.Gives b j) : i = j ↔ a.Equivalent d.symbols.slotOf b := by
  rw [Ty.equivalent_iff]
  constructor
  · rintro rfl
    exact Shape.text_injective (h.injective _ _ i ha.2 hb.2)
  · intro he
    have hj := hb.2
    rw [← he, ha.2] at hj
    exact Option.some.inj hj

/-! ### Counts -/

open Classical in
/-- The number of shapes that a body belongs to, which is 0 or 1. -/
noncomputable def shares (d : Draft) (id : BodyId) : Nat := if d.Shares id then 1 else 0

theorem count_startLog (d : Draft) (id id' : BodyId) :
    (Build.startLog id d).count (.begun id') + d.begun id' = (d.begin id).begun id' := by
  rw [begun_begin]
  by_cases he : id = id'
  · subst he
    cases hs : d.body.startOf? id <;> simp [Build.startLog, begun, hs]
  · cases hs : d.body.startOf? id <;> simp [Build.startLog, hs, he]

theorem count_queues_startLog (d : Draft) (id id' : BodyId) :
    (Build.startLog id d).countP (Event.queues id') = 0 := by
  cases hs : d.body.startOf? id <;> simp [Build.startLog, Event.queues, hs]

/-- The log tells which bodies were begun. -/
theorem Move.count_begun (h : Move reg d es d') (id : BodyId) :
    es.count (.begun id) + d.begun id = d'.begun id := by
  cases h with
  | names h => rw [begun, begun, h.body, List.count_nil, Nat.zero_add]
  | write hb =>
    rw [begun, begun, Section.startOf?, Section.startOf?, hb, List.count_nil, Nat.zero_add]
  | beginEntry | beginType | beginSignature | beginConstant => exact count_startLog d _ id
  | register | allocate | signature | constant | refuseSignature | refuseConstant | share | type =>
    exact Nat.zero_add _

theorem Moves.count_begun (h : Moves reg d es d') (id : BodyId) :
    es.count (.begun id) + d.begun id = d'.begun id := by
  induction h with
  | nil => exact Nat.zero_add _
  | cons hm _ ih =>
    rw [List.count_append, Nat.add_right_comm, hm.count_begun, Nat.add_comm]
    exact ih

open Classical in
/-- The log tells which bodies were queued for shapes. -/
theorem Shared.count_queues (hd : d.Shared) (hfew : d.symbols.handedOut < UInt32.size)
    (h : Move reg d es d') (id : BodyId) :
    es.countP (Event.queues id) + d.shares id = d'.shares id := by
  have same : d'.types = d.types → es.countP (Event.queues id) = 0 →
      es.countP (Event.queues id) + d.shares id = d'.shares id := by
    intro ht he
    rw [he, Nat.zero_add, shares, shares, Shares, Shares, ht]
  cases h with
  | names h => exact same h.types rfl
  | beginEntry | beginType | beginSignature | beginConstant =>
    exact same rfl (count_queues_startLog d _ id)
  | register | allocate | signature | constant | write | refuseSignature | refuseConstant
    | share => exact same rfl rfl
  | @type type _ hnone =>
    have hiff := shares_promiseType type hnone id
    -- only here does a shape get a body, and only here is one queued
    by_cases he : d.symbols.nextId = id
    · subst he
      have hnew := hiff.2 (.inl rfl)
      simp [shares, hnew, hd.not_shares_nextId hfew, Event.queues]
    · have hsame : (d.promiseType type (type.shape d.symbols.slotOf).text).Shares id ↔
          d.Shares id := by simpa only [he, false_or] using hiff
      have hshares : (d.promiseType type (type.shape d.symbols.slotOf).text).shares id =
          d.shares id := if_congr hsame rfl rfl
      rw [hshares]
      simp [Event.queues, he]

theorem Shared.count_queues_moves (hd : d.Shared) (h : Moves reg d es d')
    (hfew : d'.symbols.handedOut < UInt32.size) (id : BodyId) :
    es.countP (Event.queues id) + d.shares id = d'.shares id := by
  induction h with
  | nil => exact Nat.zero_add _
  | cons hm hms ih =>
    have hfew' := Nat.lt_of_le_of_lt (Nat.le_trans hm.handedOut hms.handedOut) hfew
    rw [List.countP_append, Nat.add_right_comm, hd.count_queues hfew' hm, Nat.add_comm]
    exact ih (hd.move hfew' hm) hfew

/-! ### Runs from the start -/

theorem shared_new (ns : String) (sharedLibrary : Option String) (options : Options) :
    (Draft.new ns sharedLibrary options).Shared := by
  have empty : ∀ id, ¬ (Draft.new ns sharedLibrary options).Shares id := by
    rintro id ⟨text, h⟩
    simp [Draft.new] at h
  have nowhere : ∀ id, ¬ (Draft.new ns sharedLibrary options).Elsewhere id := by
    intro id h
    cases h with
    | entry hl _ => simp [Draft.new, SymbolTable.lookup, SymbolTable.new] at hl
    | signature hm _ => simp [Draft.new, Fifo.toList] at hm
    | constant hm _ => simp [Draft.new, Fifo.toList] at hm
  constructor
  · exact sound_new ns sharedLibrary options
  · exact fun id h => absurd h (empty id)
  · exact fun id h => absurd rfl h
  · exact fun id h => absurd h (nowhere id)
  · exact fun text text' id h => absurd ⟨text, h⟩ (empty id)
  · exact fun id h => absurd h (empty id)
  · intro item h
    simp [Draft.new, Fifo.toList] at h
  · exact fun id h => absurd h (nowhere id)

end Draft

namespace Operation

/-- Once the local entries have their slots, two uses of complex types are given one body if and
only if the types are equivalent. One body is queued for all of them, and begun unless it still
waits. -/
theorem used_iff_equivalent {ns : String} {sharedLibrary : Option String} {options : Options}
    {before rest : List Operation} (hrest : ∀ op ∈ rest, op.registers = false) {a : Ty} {i : BodyId}
    {fresh : Bool} :
    let start := Draft.new ns sharedLibrary options
    let registered := after before start
    let final := after rest registered
    let noted := log before start ++ log rest registered
    final.symbols.handedOut < UInt32.size → .used a i fresh ∈ log rest registered →
      (∀ name ∈ a.names, final.symbols.Settled final.options name) ∧
      (∀ b j fresh', .used b j fresh' ∈ log rest registered →
        (i = j ↔ a.Equivalent final.symbols.slotOf b)) ∧
      noted.countP (Event.queues i) = 1 ∧ final.waiting i + noted.count (.begun i) = 1 := by
  intro start registered final noted hfew hused
  have hstart : start.Shared := Draft.shared_new ns sharedLibrary options
  have hbefore : Draft.Moves true start (log before start) registered :=
    moves (fun _ _ _ => rfl) hstart.symbols
  have hsound := hbefore.sound hstart.symbols
  -- from here on no local entry gets a slot, so the draft only grows
  have hrest : Draft.Moves false registered (log rest registered) final :=
    moves (fun op hop ht => absurd ht (by simp [hrest op hop])) hsound
  have hfew' := Nat.lt_of_le_of_lt hrest.handedOut hfew
  have hregistered := hstart.moves hbefore hfew'
  have hfinal := hregistered.moves hrest hfew
  have hgives := hrest.used hused
  have hshares : final.Shares i := ⟨_, hgives.2⟩
  refine ⟨hgives.1, fun b j fresh' hb => hfinal.gives_iff hgives (hrest.used hb), ?_, ?_⟩
  · have hcount := hstart.count_queues_moves hbefore hfew' i
    have hcount' := hregistered.count_queues_moves hrest hfew i
    have hzero : start.shares i = 0 := if_neg fun ⟨text, ht⟩ => by simp [start, Draft.new] at ht
    have hone : final.shares i = 1 := if_pos hshares
    rw [List.countP_append]
    omega
  · have hcount := hbefore.count_begun i
    have hcount' := hrest.count_begun i
    have hzero : start.begun i = 0 := rfl
    have honce := hfinal.once i hshares
    rw [List.count_append]
    omega

end Operation

end Typelib
