import Typelib.Proofs.Build.Step
import Typelib.Proofs.Symbols.Run

/-!
# The symbol table under steps of a build

Whatever a step of a build does to a draft, and whether it succeeds or fails, the symbol table of the
draft goes through a run of its own. So all that every run of a symbol table keeps is kept by every
step.

* `Draft.Consults`: the symbol table went through a run;
* `Build.consults_cell`, `Build.consults_next` and so on: it does so under each step;
* `Draft.Consults.handedOut`: no step takes an identity back.
-/

namespace Typelib

/-- The symbol table of a draft went through a run. -/
def Draft.Consults (d d' : Draft) : Prop :=
  ∃ ops, d'.symbols = SymbolTable.Operation.after ops d.symbols

namespace Draft.Consults

variable {d d' d'' : Draft}

theorem of_eq (h : d'.symbols = d.symbols) : d.Consults d' := ⟨[], h⟩

theorem refl (d : Draft) : d.Consults d := .of_eq rfl

theorem trans (h : d.Consults d') (h' : d'.Consults d'') : d.Consults d'' := by
  obtain ⟨ops, ho⟩ := h
  obtain ⟨ops', ho'⟩ := h'
  exact ⟨ops ++ ops', by rw [ho', ho, SymbolTable.after_append]⟩

theorem handedOut (h : d.Consults d') : d.symbols.handedOut ≤ d'.symbols.handedOut := by
  obtain ⟨ops, ho⟩ := h
  rw [ho]
  exact (SymbolTable.Operation.gains_after ops _).handedOut

end Draft.Consults

namespace Build

variable {α β : Type}

theorem consults_pure (a : α) : Within Draft.Consults (pure a : Build α) := within_pure .refl a

theorem consults_throw (e : BuildError) : Within Draft.Consults (throw e : Build α) :=
  within_throw .refl e

theorem consults_get : Within Draft.Consults (get : Build Draft) := fun d => .refl d

theorem consults_modify {f : Draft → Draft} (h : ∀ d, (f d).symbols = d.symbols) :
    Within Draft.Consults (modify f : Build Unit) := fun d => .of_eq (h d)

theorem consults_onBody (f : Section → Section) : Within Draft.Consults (onBody f) :=
  consults_modify fun _ => rfl

theorem consults_onQueues (f : Queues → Queues) : Within Draft.Consults (onQueues f) :=
  consults_modify fun _ => rfl

theorem consults_start (id : BodyId) : Within Draft.Consults (start id) := fun _ => .of_eq rfl

theorem Within.consults_bind {x : Build α} {f : α → Build β} (hx : Within Draft.Consults x)
    (hf : ∀ a, Within Draft.Consults (f a)) : Within Draft.Consults (x >>= f) :=
  hx.bind (fun _ _ _ => .trans) hf

/-- One operation of the symbol table. -/
theorem consults_onSymbols {f : Options → SymbolTable → Except BuildError α × SymbolTable}
    (op : Options → SymbolTable.Operation) (h : ∀ o t, (f o t).2 = (op o).step t) :
    Within Draft.Consults (onSymbols f) :=
  within_onSymbols fun d => ⟨[op d.options], h d.options d.symbols⟩

theorem consults_resolve (name : String) : Within Draft.Consults (resolve name) :=
  consults_onSymbols (fun o => .resolve o name) fun _ _ => rfl

theorem consults_allocate : Within Draft.Consults allocate :=
  consults_onSymbols (fun _ => .allocate) fun _ _ => rfl

theorem consults_intern (s : String) : Within Draft.Consults (intern s) :=
  consults_onSymbols (fun _ => .intern s) fun _ _ => rfl

theorem consults_internOpt (s : Option String) : Within Draft.Consults (internOpt s) := by
  cases s with
  | none => exact consults_pure none
  | some s => exact (consults_intern s).consults_bind fun _ => consults_pure _

/-! ### Types -/

theorem consults_domains (names : List String) : Within Draft.Consults (domains names) :=
  (Within.mapM .refl (fun _ _ _ => .trans) consults_resolve names).consults_bind
    fun _ => consults_pure _

theorem consults_shape (type : Ty) : Within Draft.Consults (shape type) := by
  induction type with
  | scalar kind p => exact consults_pure _
  | interface name p => exact (consults_resolve name).consults_bind fun _ => consults_pure _
  | array element z l p ih => exact ih.consults_bind fun _ => consults_pure _
  | list element p ih => exact ih.consults_bind fun _ => consults_pure _
  | slist element p ih => exact ih.consults_bind fun _ => consults_pure _
  | hash key value p ihk ihv =>
    exact ihk.consults_bind fun _ => ihv.consults_bind fun _ => consults_pure _
  | error names p => exact (consults_domains names).consults_bind fun _ => consults_pure _

theorem consults_typeBody (type : Ty) : Within Draft.Consults (typeBody type) := by
  refine (consults_shape type).consults_bind fun s => consults_get.consults_bind fun d => ?_
  split
  · exact consults_pure _
  · refine consults_allocate.consults_bind fun id => ?_
    refine Within.consults_bind (consults_modify fun _ => rfl) fun _ => ?_
    exact (consults_onQueues _).consults_bind fun _ => consults_pure id

theorem consults_typeUse (type : Ty) : Within Draft.Consults (typeUse type) := by
  cases type with
  | scalar kind p => exact consults_pure _
  | interface name p => exact (consults_resolve name).consults_bind fun _ => consults_pure _
  | array | list | slist | hash | error =>
    exact (consults_typeBody _).consults_bind fun _ => consults_pure _

/-! ### Bodies -/

theorem consults_cell (c : Cell) : Within Draft.Consults (cell c) := by
  cases c with
  | byte | word16 | word32 | typeRef | raw | align => exact consults_onBody _
  | name s => exact (consults_intern s).consults_bind fun _ => consults_onBody _
  | optName s => exact (consults_internOpt s).consults_bind fun _ => consults_onBody _
  | slot name => exact (consults_resolve name).consults_bind fun _ => consults_onBody _
  | type type => exact (consults_typeUse type).consults_bind fun _ => consults_onBody _
  | signature s =>
    exact consults_allocate.consults_bind fun _ =>
      (consults_onQueues _).consults_bind fun _ => consults_onBody _
  | value c =>
    exact consults_allocate.consults_bind fun _ =>
      (consults_onQueues _).consults_bind fun _ => consults_onBody _
  | errorType flags names =>
    refine (consults_domains names).consults_bind fun refs => ?_
    split
    · exact consults_throw _
    · exact (consults_onBody _).consults_bind fun _ => consults_onBody _
  | reject e => exact consults_throw e

theorem consults_cells (cs : List Cell) : Within Draft.Consults (cells cs) := by
  induction cs with
  | nil => exact consults_pure ()
  | cons c cs ih => exact (consults_cell c).consults_bind fun _ => ih

theorem consults_entry (node : Node) : Within Draft.Consults (entry node) := by
  refine consults_get.consults_bind fun d => ?_
  split
  · exact consults_throw _
  · exact (consults_start _).consults_bind fun _ => consults_cells _

theorem consults_next : Within Draft.Consults next := by
  refine consults_get.consults_bind fun d => ?_
  have popped (queues : Queues) {x : Build Unit} (hx : Within Draft.Consults x) :
      Within Draft.Consults (do onQueues fun _ => queues; x; return true : Build Bool) :=
    (consults_onQueues _).consults_bind fun _ => hx.consults_bind fun _ => consults_pure true
  simp only
  split
  · exact popped _ ((consults_start _).consults_bind fun _ => consults_cells _)
  split
  · refine popped _ ?_
    rw [signatureBody]
    split
    · exact consults_throw _
    · exact (consults_start _).consults_bind fun _ => consults_cells _
  split
  · refine popped _ ?_
    rw [constantBody]
    split
    · exact consults_throw _
    · exact (consults_start _).consults_bind fun _ => consults_cell _
  · exact consults_pure false

theorem consults_drainLoop (fuel : Nat) : ∀ done, Within Draft.Consults (drainLoop fuel done) := by
  induction fuel with
  | zero => exact consults_pure
  | succ fuel ih =>
    refine fun done => consults_next.consults_bind fun more => ?_
    split
    · exact ih (done + 1)
    · exact consults_pure done

theorem consults_drain : Within Draft.Consults drain :=
  consults_get.consults_bind fun _ => consults_drainLoop _ 0

theorem consults_entries (nodes : List Node) : Within Draft.Consults (entries nodes) := by
  induction nodes with
  | nil => exact consults_pure ()
  | cons node nodes ih =>
    exact (consults_entry node).consults_bind fun _ => consults_drain.consults_bind fun _ => ih

theorem consults_register (nodes : List Node) : Within Draft.Consults (register nodes) := by
  induction nodes with
  | nil => exact consults_pure ()
  | cons node nodes ih =>
    rw [register]
    split
    · exact consults_throw _
    next kind _ =>
      exact (consults_onSymbols (fun _ => .register node.name kind) fun _ _ => rfl).consults_bind
        fun _ => ih

end Build

end Typelib
