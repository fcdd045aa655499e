import Typelib.Proofs.Build.Failing
import Typelib.Proofs.Sharing.Log

/-!
# Moves of a draft

Whatever is asked of a draft, it changes by moves of a few kinds, and what is noted of a run is
noted of its moves. So what every move keeps, every run keeps, whether its steps succeed or fail.

* `Draft.Move`: one move, with what is noted of it;
* `Operation.moves`: a run of operations is a sequence of moves.
-/

namespace Typelib

namespace Draft

/-- A body is begun. -/
def begin (d : Draft) (id : BodyId) : Draft := { d with body := (d.body.start id).2 }

/-- One move of a draft, with what is noted of it. Local entries get slots only where `reg` is set.
-/
inductive Move (reg : Bool) : Draft → List Event → Draft → Prop
  | names {d d' : Draft} : d.Names d' → Move reg d [] d'
  | register {d : Draft} (name : String) (kind : EntryKind) : reg = true →
      Move reg d [] { d with symbols := (d.symbols.register name kind).2 }
  | allocate {d : Draft} : Move reg d [] d.allocate
  /-- A type shares the body of its shape. -/
  | share {d : Draft} {type : Ty} {id : BodyId} : d.Knows type →
      d.types[(type.shape d.symbols.slotOf).text]? = some id → Move reg d [.used type id false] d
  /-- A type is the first of its shape. -/
  | type {d : Draft} {type : Ty} : d.Knows type →
      d.types[(type.shape d.symbols.slotOf).text]? = none →
      Move reg d [.used type d.symbols.nextId true]
        (d.promiseType type (type.shape d.symbols.slotOf).text)
  | signature {d : Draft} (signature : Signature) : Move reg d [] (d.promiseSignature signature)
  | constant {d : Draft} (constant : ConstantDecl) : Move reg d [] (d.promiseConstant constant)
  | write {d : Draft} {body : Section} : body.starts = d.body.starts →
      Move reg d [] { d with body }
  | beginEntry {d : Draft} {name : String} {symbol : Symbol} :
      d.symbols.lookup name = some symbol →
      Move reg d (Build.startLog symbol.id d) (d.begin symbol.id)
  | beginType {d : Draft} {type : Ty} {id : BodyId} {queues : Queues} :
      d.queues.popType? = some ((type, id), queues) →
      Move reg d (Build.startLog id d) ({ d with queues }.begin id)
  | beginSignature {d : Draft} {signature : Signature} {id : BodyId} {queues : Queues} :
      d.queues.popSignature? = some ((signature, id), queues) →
      Move reg d (Build.startLog id d) ({ d with queues }.begin id)
  | beginConstant {d : Draft} {constant : ConstantDecl} {id : BodyId} {queues : Queues} :
      d.queues.popConstant? = some ((constant, id), queues) →
      Move reg d (Build.startLog id d) ({ d with queues }.begin id)
  /-- A signature or a constant is refused before its body is begun. -/
  | refuseSignature {d : Draft} {item : Signature × BodyId} {queues : Queues} :
      d.queues.popSignature? = some (item, queues) → Move reg d [] { d with queues }
  | refuseConstant {d : Draft} {item : ConstantDecl × BodyId} {queues : Queues} :
      d.queues.popConstant? = some (item, queues) → Move reg d [] { d with queues }

/-- Moves one after another. -/
inductive Moves (reg : Bool) : Draft → List Event → Draft → Prop
  | nil (d : Draft) : Moves reg d [] d
  | cons {d d₁ d' : Draft} {es es' : List Event} :
      Move reg d es d₁ → Moves reg d₁ es' d' → Moves reg d (es ++ es') d'

variable {reg : Bool} {d d' d'' : Draft} {es es' : List Event}

theorem Move.moves (h : Move reg d es d') : Moves reg d es d' := by
  have := Moves.cons h (.nil d')
  rwa [List.append_nil] at this

theorem Moves.append (h : Moves reg d es d') (h' : Moves reg d' es' d'') :
    Moves reg d (es ++ es') d'' := by
  induction h with
  | nil => exact h'
  | cons hmove _ ih =>
    rw [List.append_assoc]
    exact .cons hmove (ih h')

/-- A move that notes nothing, and then more. -/
theorem Moves.silent (h : Moves reg d [] d') (h' : Moves reg d' es d'') : Moves reg d es d'' :=
  h.append h'

/-- What every move keeps, every run keeps. -/
theorem Moves.invariant {P : Draft → Prop} (h : Moves reg d es d') (hd : P d)
    (hmove : ∀ d es d', P d → Move reg d es d' → P d') : P d' := by
  induction h with
  | nil => exact hd
  | cons hm _ ih => exact ih (hmove _ _ _ hd hm)

theorem Move.sound (h : Move reg d es d') (hs : d.symbols.Sound) : d'.symbols.Sound := by
  cases h with
  | names h => exact h.sound hs
  | register name kind => exact hs.register name kind
  | allocate | type | signature | constant => exact hs.allocate
  | _ => exact hs

theorem Moves.sound (h : Moves reg d es d') (hs : d.symbols.Sound) : d'.symbols.Sound :=
  h.invariant (P := fun d => d.symbols.Sound) hs fun _ _ _ hs hm => hm.sound hs

/-- No move takes an identity back. -/
theorem Move.handedOut (h : Move reg d es d') : d.symbols.handedOut ≤ d'.symbols.handedOut := by
  cases h with
  | names h => exact h.symbols.handedOut
  | register name kind => exact (SymbolTable.gains_register d.symbols name kind).handedOut
  | allocate | type | signature | constant => exact Nat.le_succ _
  | _ => exact Nat.le_refl _

theorem Moves.handedOut (h : Moves reg d es d') : d.symbols.handedOut ≤ d'.symbols.handedOut := by
  induction h with
  | nil => exact Nat.le_refl _
  | cons hm _ ih => exact Nat.le_trans hm.handedOut ih

/-- A draft only grows where no local entry gets a slot. -/
theorem Move.extends (h : Move false d es d') : d.Extends d' := by
  cases h with
  | names h => exact h.toExtends
  | register _ _ hreg => cases hreg
  | allocate => exact ⟨rfl, SymbolTable.extends_allocate _, fun _ _ => id, rfl⟩
  | type _ hnone => exact d.extends_promiseType _ hnone
  | signature s => exact d.extends_promiseSignature s
  | constant c => exact d.extends_promiseConstant c
  | _ => exact ⟨rfl, .refl _, fun _ _ => id, rfl⟩

theorem Moves.extends (h : Moves false d es d') : d.Extends d' := by
  induction h with
  | nil => exact .refl _
  | cons hm _ ih => exact hm.extends.trans ih

end Draft

open Draft (Move Moves)

namespace Build

variable {α β : Type} {reg : Bool}

/-- Each run of a step is a sequence of moves, of which the log is noted. -/
def Logged (reg : Bool) (x : Build α) (log : Log) : Prop :=
  ∀ d : Draft, d.symbols.Sound → Moves reg d (log d) (x.after d)

theorem Logged.andThen {x : Build α} {f : α → Build β} {log : Log} {rest : α → Log}
    (hx : Logged reg x log) (hf : ∀ a, Logged reg (f a) (rest a)) :
    Logged reg (x >>= f) (log.andThen x rest) := by
  intro d hs
  have h := hx d hs
  simp only [Build.after, Log.andThen, outcome_bind] at h ⊢
  revert h
  obtain ⟨_ | a, d₁⟩ := x.outcome d
  · intro h
    simpa using h
  · intro h
    exact h.append (hf a d₁ (h.sound hs))

theorem Log.andThen_none (log : Log) (x : Build α) : log.andThen x (fun _ => Log.none) = log := by
  funext d
  simp only [Log.andThen, Log.none]
  split <;> simp

/-- Nothing more is noted of the rest. -/
theorem Logged.andThen_none {x : Build α} {f : α → Build β} {log : Log}
    (hx : Logged reg x log) (hf : ∀ a, Logged reg (f a) Log.none) : Logged reg (x >>= f) log := by
  have h := hx.andThen hf
  rwa [Log.andThen_none] at h

theorem logged_names {x : Build α} (h : Within Draft.Names x) : Logged reg x Log.none :=
  fun d _ => (Move.names (h d)).moves

theorem logged_pure (a : α) : Logged reg (pure a) Log.none := logged_names (within_pure .refl a)

theorem logged_throw (e : BuildError) : Logged reg (throw e : Build α) Log.none :=
  logged_names (within_throw .refl e)

theorem logged_onBody {f : Section → Section} (h : ∀ s, (f s).starts = s.starts) :
    Logged reg (onBody f) Log.none :=
  fun d _ => (Move.write (h d.body)).moves

/-! ### Cells -/

theorem logged_typeUse (type : Ty) : Logged reg (typeUse type) (typeUseLog type) := by
  intro d hs
  by_cases hc : type.tag.isComplex
  · obtain ⟨d₁, hd₁, hrun⟩ := typeBody_outcome type d
    have hnames : Moves reg d [] d₁ := (Move.names hd₁).moves
    simp only [typeUseLog, after, typeUse_of_complex hc, outcome_map]
    obtain ⟨e, he⟩ | ⟨s, hshape, hrun⟩ := hrun
    · simpa only [he] using hnames
    obtain ⟨rfl, hknows⟩ := yields_shape hs hshape
    obtain ⟨id, hid, hy⟩ | ⟨hnone, hy⟩ := hrun
    -- whether something was queued shows in the count of all that ever was
    · have hpushed : ¬ d.queues.pushed.1 < d₁.queues.pushed.1 := by simp [hd₁.queues]
      simpa only [hy, hpushed, decide_false] using hnames.silent (Move.share hknows hid).moves
    · have hpushed : d.queues.pushed.1 <
          (d₁.promiseType type (type.shape d₁.symbols.slotOf).text).queues.pushed.1 := by
        simp [Draft.promiseType, Queues.pushType, hd₁.queues]
      simpa only [hy, hpushed, decide_true] using hnames.silent (Move.type hknows hnone).moves
  · rw [Bool.not_eq_true] at hc
    obtain ⟨hwithin, hnone⟩ := typeUse_of_not_complex hc
    have hlog : typeUseLog type d = [] := by
      simp only [typeUseLog]
      split
      next tag p id d' h => exact absurd (hnone h) (by simp [TypeUse.body?])
      next => rfl
    rw [hlog]
    exact logged_names hwithin d hs

theorem logged_cell (c : Cell) : Logged reg (cell c) (cellLog c) := by
  have put : ∀ {α : Type} {x : Build α} {f : α → Section → Section}, Within Draft.Names x →
      (∀ a s, (f a s).starts = s.starts) → Logged reg (x >>= fun a => onBody (f a)) Log.none :=
    fun hx hf => (logged_names hx).andThen_none fun a => logged_onBody (hf a)
  cases c with
  | byte n | word16 n | word32 n | typeRef ref | raw bytes | align =>
    exact logged_onBody fun _ => rfl
  | name s => exact put (within_intern s) fun _ _ => rfl
  | optName s => exact put (within_internOpt s) fun a _ => by cases a <;> rfl
  | slot name => exact put (within_resolve name) fun _ _ => rfl
  | type type =>
    exact (logged_typeUse type).andThen_none fun use => logged_onBody fun s => by
      cases use <;> rfl
  | signature signature =>
    intro d _
    have hbody : (d.body.bodyRef d.symbols.nextId).starts = d.body.starts := rfl
    have hwrite : Move reg (d.promiseSignature signature) []
        ((cell (.signature signature)).after d) := .write hbody
    exact .append (Move.signature signature).moves hwrite.moves
  | value constant =>
    intro d _
    have hbody : (d.body.bodyRef d.symbols.nextId).starts = d.body.starts := rfl
    have hwrite : Move reg (d.promiseConstant constant) []
        ((cell (.value constant)).after d) := .write hbody
    exact .append (Move.constant constant).moves hwrite.moves
  | errorType flags names =>
    refine (logged_names (within_domains names)).andThen_none fun refs => ?_
    split
    · exact logged_throw _
    · refine (logged_onBody ?_).andThen_none fun _ => logged_onBody ?_ <;> exact fun _ => rfl
  | reject e => exact logged_throw e

theorem logged_cells (cs : List Cell) : Logged reg (cells cs) (cellsLog cs) := by
  induction cs with
  | nil => exact logged_pure ()
  | cons c cs ih => exact (logged_cell c).andThen fun _ => ih

/-! ### Bodies -/

/-- A body that a move begins is written by moves. -/
theorem moves_start {d₀ d : Draft} {id : BodyId} {x : Build Unit} {log : Log}
    (hbegin : Move reg d₀ (startLog id d) (d.begin id)) (hs : d.symbols.Sound)
    (hx : Logged reg x log) :
    Moves reg d₀ ((startLog id).andThen (start id) (fun _ => log) d)
      ((do let _ ← start id; x : Build Unit).after d) := by
  simp only [Log.andThen, Build.after, outcome_bind]
  have hstart : (start id).outcome d = ((d.body.start id).1, d.begin id) := rfl
  rw [hstart]
  cases (d.body.start id).1 with
  | error e => simpa using hbegin.moves
  | ok pos => exact hbegin.moves.append (hx _ hs)

theorem logged_entry (node : Node) : Logged reg (entry node) (entryLog node) := by
  intro d hs
  have hget : (get : Build Draft).outcome d = (.ok d, d) := rfl
  simp only [entry, entryLog, Build.after, outcome_bind, hget]
  cases hl : d.symbols.lookup node.name with
  | none => exact .nil d
  | some symbol => exact moves_start (.beginEntry hl) hs (logged_cells node.cells)

/-- What is left when an item was taken from a queue and more was done. -/
theorem after_popped (d : Draft) (queues : Queues) (x : Build Unit) :
    (do onQueues fun _ => queues; let _ ← x; return true : Build Bool).after d =
      x.after { d with queues } := by
  rw [Build.after, outcome_onQueues_bind]
  exact after_bind_pure true

theorem logged_next : Logged reg next nextLog := by
  intro d hs
  have hget : (get : Build Draft).outcome d = (.ok d, d) := rfl
  -- a pop is no move of its own: the move is to pop and begin, or to pop and refuse
  rw [next, Build.after, outcome_bind, hget, nextLog]
  simp only
  cases ht : d.queues.popType? with
  | some item =>
    obtain ⟨⟨type, id⟩, queues⟩ := item
    have hbegin : Move reg d (startLog id { d with queues }) ({ d with queues }.begin id) :=
      .beginType ht
    have h := moves_start hbegin hs (logged_cells type.cells)
    rw [← after_popped] at h
    exact h
  | none =>
    cases hg : d.queues.popSignature? with
    | some item =>
      obtain ⟨⟨signature, id⟩, queues⟩ := item
      have h : Moves reg d (signatureBodyLog signature id { d with queues })
          ((signatureBody signature id).after { d with queues }) := by
        rw [signatureBody, signatureBodyLog]
        split
        · exact (Move.refuseSignature hg).moves
        · have hbegin : Move reg d (startLog id { d with queues }) ({ d with queues }.begin id) :=
            .beginSignature hg
          exact moves_start hbegin hs (logged_cells signature.cells)
      rw [← after_popped] at h
      exact h
    | none =>
      cases hc : d.queues.popConstant? with
      | some item =>
        obtain ⟨⟨constant, id⟩, queues⟩ := item
        have h : Moves reg d (constantBodyLog constant id { d with queues })
            ((constantBody constant id).after { d with queues }) := by
          rw [constantBody, constantBodyLog]
          cases constant.encode with
          | error e => exact (Move.refuseConstant hc).moves
          | ok bytes =>
            have hbegin : Move reg d (startLog id { d with queues }) ({ d with queues }.begin id) :=
              .beginConstant hc
            have hraw : Logged reg (cell (.raw bytes)) Log.none := logged_cell (.raw bytes)
            have hbody := moves_start hbegin hs hraw
            rwa [Log.andThen_none] at hbody
        rw [← after_popped] at h
        exact h
      | none => exact .nil d

theorem logged_drainLoop (fuel : Nat) : ∀ done, Logged reg (drainLoop fuel done) (drainLoopLog fuel) := by
  induction fuel with
  | zero => exact logged_pure
  | succ fuel ih =>
    intro done
    refine logged_next.andThen fun more => ?_
    cases more with
    | true => exact ih (done + 1)
    | false => exact logged_pure done

theorem logged_drain : Logged reg drain drainLog :=
  fun d hs => logged_drainLoop d.queues.weight 0 d hs

theorem logged_entries (nodes : List Node) : Logged reg (entries nodes) (entriesLog nodes) := by
  induction nodes with
  | nil => exact logged_pure ()
  | cons node nodes ih =>
    exact (logged_entry node).andThen fun _ => logged_drain.andThen fun _ => ih

theorem logged_register (nodes : List Node) : Logged true (register nodes) Log.none := by
  induction nodes with
  | nil => exact logged_pure ()
  | cons node nodes ih =>
    rw [register]
    split
    · exact logged_throw _
    · exact .andThen_none (fun d _ => (Move.register node.name _ rfl).moves) fun _ => ih

end Build

/-! ### Runs -/

namespace Operation

/-- An operation is a sequence of moves, which give slots to local entries only if it does. -/
theorem logged {reg : Bool} (op : Operation) (h : op.registers = true → reg = true) :
    Build.Logged reg op.run op.noted := by
  have drop : ∀ {α : Type} {x : Build α} {log : Log}, Build.Logged reg x log →
      Build.Logged reg (do let _ ← x; return () : Build Unit) log :=
    fun hx => hx.andThen_none fun _ => Build.logged_pure ()
  cases op with
  | register nodes => rw [h rfl]; exact Build.logged_register nodes
  | entry node => exact Build.logged_entry node
  | next => exact drop Build.logged_next
  | drain => exact drop Build.logged_drain
  | document nodes =>
    rw [h rfl]
    exact (Build.logged_register nodes).andThen fun _ => Build.logged_entries nodes
  | typeUse type => exact drop (Build.logged_typeUse type)
  | shape type => exact drop (Build.logged_names (Build.within_shape type))
  | resolve name => exact drop (Build.logged_names (Build.within_resolve name))
  | intern s => exact drop (Build.logged_names (Build.within_intern s))
  | allocate => exact drop fun d _ => Move.allocate.moves
  | cells cs => exact Build.logged_cells cs

/-- A run of operations is a sequence of moves. -/
theorem moves {reg : Bool} {ops : List Operation}
    (h : ∀ op ∈ ops, op.registers = true → reg = true) :
    ∀ {d : Draft}, d.symbols.Sound → Moves reg d (log ops d) (after ops d) := by
  induction ops with
  | nil => exact fun _ => .nil _
  | cons op ops ih =>
    intro d hs
    rw [List.forall_mem_cons] at h
    have hop := op.logged h.1 d hs
    exact hop.append (ih h.2 (hop.sound hs))

end Operation

end Typelib
