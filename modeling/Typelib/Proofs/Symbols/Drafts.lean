import Typelib.Proofs.Sharing.Moves
import Typelib.Proofs.Symbols.Consults

/-!
# The symbol table of a draft

Whatever is asked of a draft, and whether it succeeds or fails, its symbol table goes through a run
of its own. So all that every run of a symbol table keeps holds in every draft.

* `Operation.consults`: the symbol table goes through a run under every operation on the draft;
* `SymbolTable.Meant`: each slot of another namespace was asked for by a name that stands for it.
-/

namespace Typelib

namespace Operation

/-- Under every operation the symbol table goes through a run of its own. -/
theorem consults (op : Operation) (d : Draft) : d.Consults (op.run.after d) := by
  have drop {α : Type} {x : Build α} (hx : Build.Within Draft.Consults x) :
      Build.Within Draft.Consults (do let _ ← x; return () : Build Unit) :=
    hx.consults_bind fun _ => Build.consults_pure ()
  cases op with
  | register nodes => exact Build.consults_register nodes d
  | entry node => exact Build.consults_entry node d
  | next => exact drop Build.consults_next d
  | drain => exact drop Build.consults_drain d
  | document nodes =>
    exact (Build.consults_register nodes).consults_bind (fun _ => Build.consults_entries nodes) d
  | typeUse type => exact drop (Build.consults_typeUse type) d
  | shape type => exact drop (Build.consults_shape type) d
  | resolve name => exact drop (Build.consults_resolve name) d
  | intern s => exact drop (Build.consults_intern s) d
  | allocate => exact drop Build.consults_allocate d
  | cells cs => exact Build.consults_cells cs d

theorem consults_after (ops : List Operation) : ∀ d : Draft, d.Consults (after ops d) := by
  induction ops with
  | nil => exact .refl
  | cons op ops ih => exact fun d => (op.consults d).trans (ih _)

end Operation

/-! ### Slots that were asked for -/

namespace SymbolTable

variable {t t' : SymbolTable} {name ns symbol : String}

/-- Each slot of another namespace was asked for by a name that stands for its entry. -/
def Meant (t : SymbolTable) : Prop :=
  ∀ (key : String) (ref : DirRef), t.externals[key]? = some ref →
    ∃ name ns symbol, t.meaning name = .external ns symbol ∧ key = ns ++ "." ++ symbol

theorem Meant.resolve (h : t.Meant) (options : Options) (name : String) :
    (t.resolve options name).2.Meant := by
  have hx := extends_resolve t options name
  intro key ref hk
  simp only [hx.meaning]
  obtain ⟨_, -, he⟩ | ⟨ns, symbol, hm, he | he⟩ := resolve_eq t options name <;> rw [he] at hk
  · exact h key ref hk
  · obtain ⟨_, -, he⟩ | ⟨-, ⟨_, -, he⟩ | ⟨-, he⟩⟩ := external_eq t ns symbol <;> rw [he] at hk
    · exact h key ref hk
    · -- the new key is that of the name
      simp only [Std.TreeMap.getElem?_insert, Std.compare_eq_iff_eq] at hk
      split at hk
      next hkey => exact ⟨name, ns, symbol, hm, hkey.symm⟩
      next => exact h key ref hk
    · exact h key ref hk
  · exact h key ref hk

theorem Meant.register (h : t.Meant) (hs : t.Sound) (name : String) (kind : EntryKind) :
    (t.register name kind).2.Meant := by
  obtain ⟨e, he⟩ | ⟨-, hsize, ⟨ref, -, he⟩ | ⟨-, he⟩⟩ := register_eq t name kind <;> rw [he]
  · exact h
  · -- there are no slots of other namespaces yet
    intro key ref' hk
    obtain ⟨i, hle, hlt, -⟩ := hs.known key ref' hk
    omega
  · exact h

theorem Meant.after {ops : List Operation} : ∀ {t : SymbolTable} {log : List (String × Symbol)},
    t.Meant → t.Tracks log → (Operation.after ops t).Meant := by
  induction ops with
  | nil => exact fun h _ => h
  | cons op ops ih =>
    intro t log h ht
    refine ih ?_ (ht.step op)
    cases op with
    | register name kind => exact h.register ht.sound name kind
    | resolve options name => exact h.resolve options name
    | allocate | intern => exact h

/-- A name of this namespace that stands for no local entry has none after its dot. -/
theorem lookup_of_meaning_external (h : t.meaning name = .external t.namespaceName symbol) :
    t.lookup symbol = none := by
  unfold meaning at h
  split at h
  next => cases h
  next hnone =>
    split at h
    next =>
      cases h
      exact hnone
    next ns' symbol' hsplit =>
      split_ifs at h with hns
      · split at h
        next => cases h
        next hmissing =>
          cases h
          exact hmissing
      · injection h with hsame
        exact absurd hsame hns

/-- The symbol of a slot of this namespace is not that of a local entry. -/
theorem Meant.lookup_eq_none (h : t.Meant) (hd : '.' ∉ symbol.toList) {ref : DirRef}
    (hk : t.externals[t.namespaceName ++ "." ++ symbol]? = some ref) : t.lookup symbol = none := by
  obtain ⟨name, ns', symbol', hm, hkey⟩ := h _ ref hk
  obtain ⟨rfl, rfl⟩ := qualified_inj hd (meaning_external hm) hkey
  exact lookup_of_meaning_external hm

theorem meant_of_empty (h : t.externals = {}) : t.Meant := by
  intro key ref hk
  simp [h] at hk

end SymbolTable

/-- The symbol table of a draft comes from a run, so what each run keeps holds in it. -/
theorem Operation.symbols_after (ns : String) (sharedLibrary : Option String) (options : Options)
    (ops : List Operation) :
    ∃ log, (after ops (.new ns sharedLibrary options)).symbols.Tracks log ∧
      (after ops (.new ns sharedLibrary options)).symbols.Meant := by
  obtain ⟨run, hrun⟩ := consults_after ops (.new ns sharedLibrary options)
  have hnew : (Draft.new ns sharedLibrary options).symbols.Tracks [] := by
    refine ⟨Draft.sound_new ns sharedLibrary options, rfl, fun entry hmem => ?_,
      fun _ i j slot slot' id hi => ?_⟩
    · cases hmem
    · simp [Draft.new, SymbolTable.new] at hi
  have hmeant : (Draft.new ns sharedLibrary options).symbols.Meant :=
    SymbolTable.meant_of_empty rfl
  rw [hrun]
  exact ⟨_, hnew.after run, hmeant.after hnew⟩

end Typelib
