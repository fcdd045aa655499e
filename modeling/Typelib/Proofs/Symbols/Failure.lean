import Typelib.Proofs.Symbols.Run

/-!
# Operations that fail

An operation of a symbol table that fails leaves the table as it was. Only where the directory is
full does it leave anything behind, and that is strings and identities: no slot, no name and no key,
neither at once nor later, since a full directory takes nothing more.

* `SymbolTable.Alike`: tables that may differ in their strings and identities only;
* `SymbolTable.Failed`: what an operation that fails leaves;
* `SymbolTable.Full.step`, `SymbolTable.Full.after`: nothing changes a table with a full directory;
* `SymbolTable.failure_harmless`: an operation that fails changes nothing that is asked for later.
-/

namespace Typelib

namespace SymbolTable

/-- The tables have the same slots, local entries and keys, whatever their strings and identities. -/
structure Alike (t t' : SymbolTable) : Prop where
  namespaceName : t'.namespaceName = t.namespaceName
  namespaceOffset : t'.namespaceOffset = t.namespaceOffset
  slots : t'.slots = t.slots
  locals : t'.locals = t.locals
  localNames : t'.localNames = t.localNames
  externals : t'.externals = t.externals

/-- The error of an operation that fails. -/
def Operation.error? (t : SymbolTable) : Operation → Option BuildError
  | .register name kind =>
    match (t.register name kind).1 with
    | .ok _ => none
    | .error e => some e
  | .resolve options name =>
    match (t.resolve options name).1 with
    | .ok _ => none
    | .error e => some e
  | .allocate | .intern _ => none

variable {t t' t'' : SymbolTable}

/-- Whether an entry of another namespace gets a slot is told by the keys and the slots. -/
theorem fst_external (t : SymbolTable) (ns symbol : String) :
    (t.external ns symbol).1 = match t.externals[ns ++ "." ++ symbol]? with
      | some ref => .ok ref
      | none => match DirRef.ofIndex? t.slots.size with
        | some ref => .ok ref
        | none => .error (.tooManyEntries (t.slots.size + 1)) := by
  simp only [external, pushSlot, intern]
  cases t.externals[ns ++ "." ++ symbol]? with
  | some ref => rfl
  | none => cases DirRef.ofIndex? t.slots.size <;> rfl

/-! ### Tables that are alike -/

namespace Alike

theorem refl (t : SymbolTable) : t.Alike t := ⟨rfl, rfl, rfl, rfl, rfl, rfl⟩

theorem symm (h : t.Alike t') : t'.Alike t :=
  ⟨h.namespaceName.symm, h.namespaceOffset.symm, h.slots.symm, h.locals.symm, h.localNames.symm,
    h.externals.symm⟩

theorem trans (h : t.Alike t') (h' : t'.Alike t'') : t.Alike t'' :=
  ⟨h'.namespaceName.trans h.namespaceName, h'.namespaceOffset.trans h.namespaceOffset,
    h'.slots.trans h.slots, h'.locals.trans h.locals, h'.localNames.trans h.localNames,
    h'.externals.trans h.externals⟩

theorem localCount (h : t.Alike t') : t'.localCount = t.localCount := congrArg Array.size h.localNames

theorem externalCount (h : t.Alike t') : t'.externalCount = t.externalCount := by
  rw [SymbolTable.externalCount, SymbolTable.externalCount, h.slots, h.localCount]

theorem full (h : t.Alike t') (hf : t.Full) : t'.Full := by rwa [Full, h.slots]

theorem meaning (h : t.Alike t') (name : String) : t'.meaning name = t.meaning name := by
  simp only [SymbolTable.meaning, lookup, h.locals, h.namespaceName]

/-- An entry of another namespace gets the same slot in both, or none for the same reason. -/
theorem external (h : t.Alike t') (ns symbol : String) :
    (t'.external ns symbol).1 = (t.external ns symbol).1 := by
  rw [fst_external, fst_external, h.externals, h.slots]

/-- A name is resolved to the same slot in both, or to none for the same reason. -/
theorem resolve (h : t.Alike t') (options : Options) (name : String) :
    (t'.resolve options name).1 = (t.resolve options name).1 := by
  simp only [SymbolTable.resolve, h.meaning, h.namespaceName]
  cases t.meaning name with
  | entry symbol => rfl
  | external ns symbol =>
    simp only
    split_ifs
    · rfl
    · exact h.external ns symbol

end Alike

/-! ### A full directory -/

theorem Full.step (h : t.Full) (op : Operation) : t.Alike (op.step t) := by
  cases op with
  | allocate | intern => exact ⟨rfl, rfl, rfl, rfl, rfl, rfl⟩
  | register name kind =>
    simp only [Operation.step]
    obtain ⟨_, he⟩ | ⟨-, -, ⟨_, href, -⟩ | ⟨-, he⟩⟩ := register_eq t name kind
    · rw [he]
      exact .refl t
    · exact absurd (h.symm.trans href) (by simp)
    · rw [he]
      exact ⟨rfl, rfl, rfl, rfl, rfl, rfl⟩
  | resolve options name =>
    simp only [Operation.step]
    obtain ⟨_, -, he⟩ | ⟨ns, symbol, -, he | he⟩ := resolve_eq t options name <;> rw [he]
    · exact .refl t
    · obtain ⟨_, -, he⟩ | ⟨-, ⟨_, href, -⟩ | ⟨-, he⟩⟩ := external_eq t ns symbol
      · rw [he]
        exact .refl t
      · exact absurd (h.symm.trans href) (by simp)
      · rw [he]
        exact ⟨rfl, rfl, rfl, rfl, rfl, rfl⟩
    · exact .refl t

/-- Nothing changes a table with a full directory, but for its strings and identities. -/
theorem Full.after (ops : List Operation) :
    ∀ {t : SymbolTable}, t.Full → t.Alike (Operation.after ops t) := by
  induction ops with
  | nil => exact fun {t} _ => .refl t
  | cons op ops ih => exact fun h => (h.step op).trans (ih ((h.step op).full h))

/-! ### What a failure leaves -/

/-- What an operation leaves that fails with an error: the table, or one that is like it if the
directory is full. -/
inductive Failed (t : SymbolTable) (e : BuildError) (t' : SymbolTable) : Prop
  | unchanged (h : t' = t)
  | full (hfull : t.Full) (he : e = .tooManyEntries (t.slots.size + 1)) (h : t.Alike t')

variable {e : BuildError}

theorem failed_register {name : String} {kind : EntryKind}
    (h : t.register name kind = (.error e, t')) : t.Failed e t' := by
  obtain ⟨_, he⟩ | ⟨-, -, ⟨_, -, he⟩ | ⟨hfull, he⟩⟩ := register_eq t name kind <;>
    rw [he] at h <;> cases h
  · exact .unchanged rfl
  · exact .full hfull rfl ⟨rfl, rfl, rfl, rfl, rfl, rfl⟩

theorem failed_external {ns symbol : String} (h : t.external ns symbol = (.error e, t')) :
    t.Failed e t' := by
  obtain ⟨_, -, he⟩ | ⟨-, ⟨_, -, he⟩ | ⟨hfull, he⟩⟩ := external_eq t ns symbol <;>
    rw [he] at h <;> cases h
  exact .full hfull rfl ⟨rfl, rfl, rfl, rfl, rfl, rfl⟩

theorem failed_resolve {options : Options} {name : String}
    (h : t.resolve options name = (.error e, t')) : t.Failed e t' := by
  obtain ⟨_, -, he⟩ | ⟨ns, symbol, -, he | he⟩ := resolve_eq t options name <;> rw [he] at h
  · cases h
  · exact failed_external h
  · cases h
    exact .unchanged rfl

theorem failed_step {op : Operation} (h : op.error? t = some e) : t.Failed e (op.step t) := by
  cases op with
  | allocate | intern => cases h
  | register name kind =>
    simp only [Operation.error?] at h
    split at h
    next => cases h
    next he =>
      cases h
      exact failed_register (Prod.ext he rfl)
  | resolve options name =>
    simp only [Operation.error?] at h
    split at h
    next => cases h
    next he =>
      cases h
      exact failed_resolve (Prod.ext he rfl)

theorem Failed.alike (h : t.Failed e t') : t.Alike t' := by
  cases h with
  | unchanged h => exact h ▸ .refl t
  | full _ _ h => exact h

/-- Whatever is asked of the table later, the failure makes no difference. -/
theorem Failed.after (h : t.Failed e t') (ops : List Operation) :
    (Operation.after ops t).Alike (Operation.after ops t') := by
  cases h with
  | unchanged h => exact h ▸ .refl _
  | full hfull _ h =>
    -- both tables stay what they were, and they were alike
    exact (hfull.after ops).symm.trans (h.trans ((h.full hfull).after ops))

theorem Failed.eq (h : t.Failed e t') (he : ∀ n, e ≠ .tooManyEntries n) : t' = t := by
  cases h with
  | unchanged h => exact h
  | full _ herror _ => exact absurd herror (he _)

/-- **Failures change nothing.** An operation that fails leaves the slots, the local entries, the keys
and the counts as they were, and every name is resolved as it would have been without the operation,
at once and after anything else. Identities are used up and strings are added only if the directory is
full. -/
theorem failure_harmless {op : Operation} (h : op.error? t = some e) :
    let t' := op.step t
    t.Alike t' ∧ t'.localCount = t.localCount ∧ t'.externalCount = t.externalCount ∧
      (∀ (later : List Operation) (options : Options) (name : String),
        ((Operation.after later t').resolve options name).1 =
          ((Operation.after later t).resolve options name).1) ∧
      ((∀ n, e ≠ .tooManyEntries n) → t'.handedOut = t.handedOut ∧ t'.pool = t.pool) := by
  intro t'
  have hfailed := failed_step h
  refine ⟨hfailed.alike, hfailed.alike.localCount, hfailed.alike.externalCount,
    fun later options name => (hfailed.after later).resolve options name, fun he => ?_⟩
  rw [show t' = t from hfailed.eq he]
  exact ⟨rfl, rfl⟩

end SymbolTable

namespace Sample

/-- A table with an entry of its own and one of another namespace. -/
def settled : SymbolTable :=
  SymbolTable.Operation.after [.register "Point" .struct, .resolve {} "Base.Failure"]
    (.new "Sample")

end Sample

/-- No local entry is registered after one of another namespace, and the next identity is still that
after the first. -/
theorem SymbolTable.failure_harmless_sample :
    (Operation.register "Color" .enum).error? Sample.settled = some (.registeredLate "Color") ∧
      ((Operation.register "Color" .enum).step Sample.settled).handedOut = 1 := by
  have h : (Operation.register "Color" .enum).error? Sample.settled =
      some (.registeredLate "Color") := by decide +kernel
  obtain ⟨-, -, -, -, hsame⟩ := failure_harmless h
  exact ⟨h, (hsame fun _ => nofun).1.trans (by decide +kernel)⟩

end Typelib
