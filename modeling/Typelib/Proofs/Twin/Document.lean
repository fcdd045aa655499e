import Typelib.Proofs.Image.Assembled
import Typelib.Proofs.Twin.Steps

/-!
# Two files side by side

What two steps do alike, they do alike cell after cell, body after body and entry after entry. So two
builds that resolve all names alike leave the same names and the same bodies, and put the same file
together.

* `Build.twins_cells`: the cells of a body;
* `Build.twins_next`, `Build.twins_drainLoop`: one body that waits, and all of them;
* `Build.twins_entries`: the entries, each with all that it calls for;
* `compile_agree`: whole files.
-/

namespace Typelib

variable {v : Variation} {R : String → String → Prop}

/-! ### Bodies that wait -/

namespace Queues.Twin

variable {q q' : Queues}

theorem popType? (h : q.Twin R q') :
    Option.Rel (fun found found' => Alike (Ty.Respelled R) found.1 found'.1 ∧ found.2.Twin R found'.2)
      q.popType? q'.popType? :=
  option_rel_map h.types.pop? fun _ _ hf => ⟨hf.1, { h with types := hf.2 }⟩

theorem popSignature? (h : q.Twin R q') :
    Option.Rel
      (fun found found' => Alike (Signature.Respelled R) found.1 found'.1 ∧ found.2.Twin R found'.2)
      q.popSignature? q'.popSignature? :=
  option_rel_map h.signatures.pop? fun _ _ hf => ⟨hf.1, { h with signatures := hf.2 }⟩

theorem popConstant? (h : q.Twin R q') :
    Option.Rel
      (fun found found' => Alike (ConstantDecl.Respelled R) found.1 found'.1 ∧
        found.2.Twin R found'.2)
      q.popConstant? q'.popConstant? :=
  option_rel_map h.constants.pop? fun _ _ hf => ⟨hf.1, { h with constants := hf.2 }⟩

end Queues.Twin

/-! ### Steps -/

namespace Build

section Steps

variable (hv : v.Harmless)
include hv

theorem twins_errorType (flags : UInt8) {names names' : List String}
    (h : List.Forall₂ v.spells names names') :
    Twins v (errorType flags names) (errorType flags names') := by
  refine (twins_domains hv h).bind fun refs => ?_
  split
  · exact .throw _
  · exact (twins_onBody _).bind fun _ => twins_onBody _

theorem twins_cell {c c' : Cell} (h : c.Respelled v.spells c') : Twins v (cell c) (cell c') := by
  cases h with
  | slot hname => exact (twins_resolve hv hname).bind fun _ => twins_onBody _
  | type ht => exact (twins_typeUse hv ht).bind fun _ => twins_onBody _
  | signature hs =>
    refine (twins_allocate hv).bind fun id => (twins_onQueues fun q q' hq => ?_).bind fun _ =>
      twins_onBody _
    exact { hq with signatures := hq.signatures.push hs id }
  | value hc =>
    refine (twins_allocate hv).bind fun id => (twins_onQueues fun q q' hq => ?_).bind fun _ =>
      twins_onBody _
    exact { hq with constants := hq.constants.push hc id }
  | errorType flags hnames => exact twins_errorType hv flags hnames
  | literal hc =>
    cases c with
    | slot | type | signature | value | errorType => cases hc
    | name s => exact (twins_intern hv s).bind fun _ => twins_onBody _
    | optName s => exact (twins_internOpt hv s).bind fun _ => twins_onBody _
    | reject e => exact .throw e
    | byte | word16 | word32 | typeRef | raw | align => exact twins_onBody _

theorem twins_cells {cs cs' : List Cell} (h : List.Forall₂ (Cell.Respelled v.spells) cs cs') :
    Twins v (cells cs) (cells cs') := by
  induction h with
  | nil => exact .pure ()
  | cons hc _ ih => exact (twins_cell hv hc).bind fun _ => ih

theorem twins_complexBody {t t' : Ty} (h : t.Respelled v.spells t') (id : BodyId) :
    Twins v (complexBody t id) (complexBody t' id) :=
  (twins_start id).bind fun _ => twins_cells hv h.cells

theorem twins_signatureBody {s s' : Signature} (h : s.Respelled v.spells s') (id : BodyId) :
    Twins v (signatureBody s id) (signatureBody s' id) := by
  unfold signatureBody
  rw [h.params]
  split
  · exact .throw _
  · exact (twins_start id).bind fun _ => twins_cells hv h.cells

theorem twins_constantBody {c c' : ConstantDecl} (h : c.Respelled v.spells c') (id : BodyId) :
    Twins v (constantBody c id) (constantBody c' id) := by
  unfold constantBody
  rw [h.encode]
  cases c.encode with
  | error e => exact .throw e
  | ok bytes => exact (twins_start id).bind fun _ => twins_cell hv (.literal rfl)

/-! ### Runs -/

omit hv in
/-- The body that waited in front is written on both sides. -/
theorem twins_popped {α : Type} {S : α → α → Prop} {write write' : α → BodyId → Build Unit}
    (hwrite : ∀ {a a'}, S a a' → ∀ id, Twins v (write a id) (write' a' id))
    {found found' : (α × BodyId) × Queues}
    (h : Alike S found.1 found'.1 ∧ found.2.Twin v.spells found'.2) :
    Twins v
      (do onQueues fun _ => found.2; write found.1.1 found.1.2; return true)
      (do onQueues fun _ => found'.2; write' found'.1.1 found'.1.2; return true) := by
  obtain ⟨⟨ha, hid⟩, hq⟩ := h
  rw [hid]
  exact (twins_onQueues fun _ _ _ => hq).bind fun _ => (hwrite ha _).bind fun _ => .pure true

/-- The next body is the same on both sides. -/
theorem twins_next : Twins v next next := by
  refine .get_bind fun d d' hd => ?_
  have htype := hd.queues.popType?
  have hsignature := hd.queues.popSignature?
  have hconstant := hd.queues.popConstant?
  simp only
  generalize d.queues.popType? = type at htype ⊢
  generalize d'.queues.popType? = type' at htype ⊢
  cases htype with
  | some h => exact twins_popped (twins_complexBody hv) h
  | none =>
    generalize d.queues.popSignature? = signature at hsignature ⊢
    generalize d'.queues.popSignature? = signature' at hsignature ⊢
    cases hsignature with
    | some h => exact twins_popped (twins_signatureBody hv) h
    | none =>
      generalize d.queues.popConstant? = constant at hconstant ⊢
      generalize d'.queues.popConstant? = constant' at hconstant ⊢
      cases hconstant with
      | some h => exact twins_popped (twins_constantBody hv) h
      | none => exact .pure false

theorem twins_drainLoop (fuel done : Nat) : Twins v (drainLoop fuel done) (drainLoop fuel done) := by
  induction fuel generalizing done with
  | zero => exact .pure done
  | succ fuel ih =>
    refine (twins_next hv).bind fun more => ?_
    cases more with
    | true => exact ih (done + 1)
    | false => exact .pure done

/-- What waits weighs the same on both sides, so both have the same fuel. -/
theorem twins_drain : Twins v drain drain := by
  refine .get_bind fun d d' hd => ?_
  rw [hd.queues.weight]
  exact twins_drainLoop hv _ 0

theorem twins_entry {n n' : Node} (h : n.Respelled v.spells n') : Twins v (entry n) (entry n') := by
  refine .get_bind fun d d' hd => ?_
  rw [hd.symbols, h.name]
  cases d.symbols.lookup n.name with
  | none => exact .throw _
  | some symbol => exact (twins_start symbol.id).bind fun _ => twins_cells hv h.cells

theorem twins_entries {nodes nodes' : List Node}
    (h : List.Forall₂ (Node.Respelled v.spells) nodes nodes') :
    Twins v (entries nodes) (entries nodes') := by
  induction h with
  | nil => exact .pure ()
  | cons hn _ ih =>
    exact (twins_entry hv hn).bind fun _ => (twins_drain hv).bind fun _ => ih

end Steps

/-! ### Registration -/

/-- Entries are registered by name and kind alone, whatever the options. -/
theorem register_outcome {nodes nodes' : List Node} (h : List.Forall₂ (Node.Respelled R) nodes nodes')
    (options : Options) : ∀ d : Draft,
    (register nodes').outcome { d with options } =
      (((register nodes).outcome d).1, { ((register nodes).outcome d).2 with options }) := by
  induction h with
  | nil => exact fun d => rfl
  | @cons n n' rest rest' hn _ ih =>
    intro d
    rw [register, register, hn.entryKind?, hn.misplaced]
    cases n.entryKind? with
    | none => rfl
    | some kind =>
      simp only [outcome_bind]
      have hregister : (onSymbols fun _ t => t.register n'.name kind).outcome { d with options } =
          ((d.symbols.register n.name kind).1,
            { d with options, symbols := (d.symbols.register n.name kind).2 }) := by
        rw [hn.name]
        rfl
      have hregister' : (onSymbols fun _ t => t.register n.name kind).outcome d =
          ((d.symbols.register n.name kind).1,
            { d with symbols := (d.symbols.register n.name kind).2 }) := rfl
      rw [hregister, hregister']
      cases (d.symbols.register n.name kind).1 with
      | error e => rfl
      | ok symbol => exact ih { d with symbols := (d.symbols.register n.name kind).2 }

end Build

/-! ### Whole builds -/

/-- Two drafts have the same names and become the same file. -/
def Draft.SameFile (d d' : Draft) : Prop := d'.symbols = d.symbols ∧ d'.assemble = d.assemble

/-- Twin drafts are put together to one file. -/
theorem Draft.Twin.sameFile {d d' : Draft} (h : d.Twin v d') : d.SameFile d' := by
  have hempty : d'.queues.isEmpty = d.queues.isEmpty := by
    rw [Queues.isEmpty, Queues.isEmpty, h.queues.waiting]
  have hplacement : d'.placement = d.placement := by
    rw [Draft.placement, Draft.placement, h.symbols, h.body]
  have hcheck : d'.check = d.check := by
    rw [Draft.check, Draft.check, hempty, h.queues.waiting, h.symbols, h.body, hplacement]
  have hheader : d'.header = d.header := by
    rw [Draft.header, Draft.header, hplacement, h.symbols, h.sharedLibrary]
  refine ⟨h.symbols, ?_⟩
  rw [Draft.assemble, Draft.assemble, hcheck, hheader, hplacement, h.symbols, h.body]

/-- A description becomes the file of the draft that its build leaves. -/
theorem compile_eq (ns : String) (nodes : List Node) (sharedLibrary : Option String)
    (options : Options) :
    compile ns nodes sharedLibrary options =
      match (Build.document nodes).outcome (.new ns sharedLibrary options) with
      | (.error e, _) => .error e
      | (.ok _, draft) => draft.assemble.map fun bytes => ⟨ns, bytes⟩ := by
  unfold compile Build.outcome
  obtain ⟨_ | _, draft⟩ := (Build.document nodes).run (.new ns sharedLibrary options)
  · rfl
  · simp only
    cases draft.assemble <;> rfl

section Whole

variable (hv : v.Harmless) (ns : String) (sharedLibrary : Option String) {nodes nodes' : List Node}
  (hnodes : List.Forall₂ (Node.Respelled v.spells) nodes nodes')
  (hknows : ∀ d : Draft, d.Registered nodes → d.symbols.namespaceName = ns → v.knows d.symbols)
include hv hnodes hknows

/-- Two builds of whole descriptions come to the same. -/
theorem Build.document_agree :
    v.Agree Draft.SameFile ((document nodes).outcome (.new ns sharedLibrary v.options))
      ((document nodes').outcome (.new ns sharedLibrary v.options')) := by
  have hregister : (register nodes').outcome (.new ns sharedLibrary v.options') = _ :=
    register_outcome hnodes v.options' (.new ns sharedLibrary v.options)
  unfold document
  rw [outcome_bind, outcome_bind, hregister]
  cases hrun : (register nodes).outcome (.new ns sharedLibrary v.options) with
  | mk outcome d =>
    cases outcome with
    | error e => exact .inr ⟨rfl, rfl, rfl⟩
    | ok u =>
      obtain ⟨hd, ht⟩ := registered_register (Draft.registered_new ns sharedLibrary v.options)
        (Draft.titled_new ns sharedLibrary v.options) hrun
      have hqueues : d.queues.Twin v.spells d.queues := by
        rw [hd.queues]
        exact ⟨.nil, .nil, .nil⟩
      have htwin : d.Twin v { d with options := v.options' } :=
        ⟨ht.options, rfl, hknows d hd ht.namespaceName, rfl, hqueues, rfl, rfl, rfl⟩
      obtain hup | ⟨hr, hd'⟩ := twins_entries hv hnodes d _ htwin
      · exact .inl hup
      · exact .inr ⟨hr, hd'.sameFile⟩

/-- **Two builds that resolve all names alike make one file**, with one directory, or fail with one
error, unless the first gives up. -/
theorem compile_agree :
    (∃ e, v.givesUp e ∧ compile ns nodes sharedLibrary v.options = .error e) ∨
      compile ns nodes' sharedLibrary v.options' = compile ns nodes sharedLibrary v.options ∧
        (Draft.final ns nodes' sharedLibrary v.options').symbols =
          (Draft.final ns nodes sharedLibrary v.options).symbols := by
  have hagree := Build.document_agree hv ns sharedLibrary hnodes hknows
  rw [compile_eq, compile_eq]
  unfold Draft.final Build.after
  revert hagree
  obtain ⟨r, d⟩ := (Build.document nodes).outcome (.new ns sharedLibrary v.options)
  obtain ⟨r', d'⟩ := (Build.document nodes').outcome (.new ns sharedLibrary v.options')
  rintro (⟨e, he, hr⟩ | ⟨hr, hsymbols, hassemble⟩)
  · obtain rfl : r = .error e := hr
    exact .inl ⟨e, he, rfl⟩
  · obtain rfl : r' = r := hr
    refine .inr ⟨?_, hsymbols⟩
    cases r' with
    | error e => rfl
    | ok u => simp only [hassemble]

end Whole

end Typelib
