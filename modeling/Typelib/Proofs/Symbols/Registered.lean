import Typelib.Proofs.Build.Failing
import Typelib.Proofs.Symbols.Drafts

/-!
# Nodes that are registered in a run

Nodes may be registered at any time of a run, and some of them are refused. All others are the local
entries from then on, in the order of their slots. Whatever is asked of a draft later, it takes back
none of its slots.

* `Operation.registered`: the nodes that get slots in a run;
* `Operation.localNames_after`: they are the local entries;
* `Operation.gains_after`: what a run keeps of the symbol table.
-/

namespace Typelib

/-! ### Registration -/

namespace Build

/-- The nodes that get slots when some are registered: all up to the first one that is refused. -/
def registered : List Node → Draft → List Node
  | [], _ => []
  | node :: nodes, d =>
    match node.entryKind? with
    | none => []
    | some kind =>
      match d.symbols.register node.name kind with
      | (.ok _, t) => node :: registered nodes { d with symbols := t }
      | (.error _, _) => []

/-- The first of some nodes is refused, or the others are registered behind it. -/
theorem register_cons (node : Node) (nodes : List Node) (d : Draft) :
    (node.entryKind? = none ∧ registered (node :: nodes) d = [] ∧
      (register (node :: nodes)).after d = d) ∨
    ∃ kind, node.entryKind? = some kind ∧
      ((∃ e t, d.symbols.register node.name kind = (.error e, t) ∧
          registered (node :: nodes) d = [] ∧
          (register (node :: nodes)).after d = { d with symbols := t }) ∨
        ∃ symbol t, d.symbols.register node.name kind = (.ok symbol, t) ∧
          registered (node :: nodes) d = node :: registered nodes { d with symbols := t } ∧
          (register (node :: nodes)).after d = (register nodes).after { d with symbols := t }) := by
  rw [register]
  cases hk : node.entryKind? with
  | none => exact .inl ⟨rfl, by rw [registered, hk], rfl⟩
  | some kind =>
    refine .inr ⟨kind, rfl, ?_⟩
    have hrun : (onSymbols fun _ t => t.register node.name kind).outcome d =
      ((d.symbols.register node.name kind).1,
        { d with symbols := (d.symbols.register node.name kind).2 }) := rfl
    rcases hr : d.symbols.register node.name kind with ⟨e | symbol, t⟩ <;> rw [hr] at hrun
    · have hfails : (onSymbols fun _ t => t.register node.name kind).Fails d e :=
        congrArg Prod.fst hrun
      refine .inl ⟨e, t, rfl, by simp only [registered, hk, hr], ?_⟩
      rw [after_bind_of_fails hfails]
      exact congrArg Prod.snd hrun
    · refine .inr ⟨symbol, t, rfl, by simp only [registered, hk, hr], ?_⟩
      exact after_bind_of_yields hrun

/-- If none is refused, all nodes get slots. -/
theorem registered_of_yields {d' : Draft} (nodes : List Node) : ∀ {d : Draft},
    (register nodes).Yields d () d' → registered nodes d = nodes := by
  induction nodes with
  | nil => exact fun _ => rfl
  | cons node nodes ih =>
    intro d h
    rw [register] at h
    cases hk : node.entryKind? with
    | none =>
      rw [hk] at h
      exact absurd h not_yields_throw
    | some kind =>
      rw [hk] at h
      obtain ⟨symbol, d₁, hsymbol, hrest⟩ := yields_bind.1 h
      obtain ⟨t, hr, rfl⟩ := yields_onSymbols.1 hsymbol
      simp only [registered, hk, hr, ih hrest]

/-- The nodes that get slots become local entries. -/
theorem localNames_register (nodes : List Node) : ∀ d : Draft,
    ((register nodes).after d).symbols.localNames.toList =
      d.symbols.localNames.toList ++ (registered nodes d).map Node.name := by
  induction nodes with
  | nil => exact fun d => (List.append_nil _).symm
  | cons node nodes ih =>
    intro d
    rcases register_cons node nodes d with ⟨-, hnone, he⟩ | ⟨kind, -,
      ⟨e, t, hr, hnone, he⟩ | ⟨symbol, t, hr, hsome, he⟩⟩
    · rw [he, hnone, List.map_nil, List.append_nil]
    · rw [he, hnone, List.map_nil, List.append_nil]
      rcases SymbolTable.register_eq d.symbols node.name kind with
        ⟨_, h⟩ | ⟨-, -, ⟨_, -, h⟩ | ⟨-, h⟩⟩ <;> rw [hr] at h <;> cases h <;> rfl
    · have hpush : t.localNames = d.symbols.localNames.push node.name := by
        rcases SymbolTable.register_eq d.symbols node.name kind with
          ⟨_, h⟩ | ⟨-, -, ⟨_, -, h⟩ | ⟨-, h⟩⟩ <;> rw [hr] at h <;> cases h
        rfl
      rw [he, hsome, ih, hpush, Array.toList_push, List.map_cons, List.append_assoc]
      rfl

end Build

/-! ### Runs -/

namespace Operation

/-- The nodes that get slots by an operation. -/
def slotted : Operation → Draft → List Node
  | register nodes, d | document nodes, d => Build.registered nodes d
  | _, _ => []

/-- The nodes that get slots in a run, in their order. -/
def registered : List Operation → Draft → List Node
  | [], _ => []
  | op :: ops, d => op.slotted d ++ registered ops (op.run.after d)

theorem registered_append (ops ops' : List Operation) (d : Draft) :
    registered (ops ++ ops') d = registered ops d ++ registered ops' (after ops d) := by
  induction ops generalizing d with
  | nil => rfl
  | cons op ops ih => rw [List.cons_append, registered, registered, ih, List.append_assoc, after]

theorem slotted_eq_nil {op : Operation} (h : op.registers = false) (d : Draft) :
    op.slotted d = [] := by
  cases op with
  | register | document => cases h
  | _ => rfl

theorem localNames_step (op : Operation) {d : Draft} (hs : d.symbols.Sound) :
    (op.run.after d).symbols.localNames.toList =
      d.symbols.localNames.toList ++ (op.slotted d).map Node.name := by
  cases hreg : op.registers with
  | false =>
    -- nothing but a registration touches the local entries
    have hmoves : Draft.Moves false d _ _ := op.logged (fun h => hreg.symm.trans h) d hs
    rw [hmoves.extends.symbols.localNames, slotted_eq_nil hreg, List.map_nil, List.append_nil]
  | true =>
    cases op with
    | register nodes => exact Build.localNames_register nodes d
    | document nodes =>
      have hnames := Build.localNames_register nodes d
      have hrun : (document nodes).run =
        (Build.register nodes >>= fun _ => Build.entries nodes) := rfl
      rw [hrun]
      rcases Build.yields_or_fails (Build.register nodes) d with ⟨_, hy⟩ | ⟨e, he⟩
      · have hsound := (Build.logged_register nodes d hs).sound hs
        have hmoves : Draft.Moves false _ _ _ := Build.logged_entries nodes _ hsound
        rw [Build.after_bind_of_yields hy, hmoves.extends.symbols.localNames]
        exact hnames
      · rw [Build.after_bind_of_fails he]
        exact hnames
    | _ => cases hreg

/-- The local entries of a draft are those that it had, and then the nodes that got slots. -/
theorem localNames_after (ops : List Operation) : ∀ {d : Draft}, d.symbols.Sound →
    (after ops d).symbols.localNames.toList =
      d.symbols.localNames.toList ++ (registered ops d).map Node.name := by
  induction ops with
  | nil => exact fun _ => (List.append_nil _).symm
  | cons op ops ih =>
    intro d hs
    have hmoves : Draft.Moves true d _ _ := op.logged (fun _ => rfl) d hs
    have hsound := hmoves.sound hs
    rw [after, ih hsound, localNames_step op hs, registered, List.map_append, List.append_assoc]

end Operation

/-- Nothing that was registered or given a slot is taken back. -/
theorem Operation.gains_after (ops : List Operation) (d : Draft) :
    d.symbols.Gains (after ops d).symbols := by
  obtain ⟨run, hrun⟩ := consults_after ops d
  rw [hrun]
  exact SymbolTable.Operation.gains_after run d.symbols

end Typelib
