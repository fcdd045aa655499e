import Typelib.Proofs.Listing.Names

/-!
# Members as text

Each row of a file is shown as the member that it holds: a callable with its parameters and its
result, a field or property with its type, a constant with its value.

* `Legend.callable`: callables;
* `Legend.field`, `Legend.property`, `Legend.constant`: other members;
* `Legend.links`: lists of entries.
-/

namespace Typelib

namespace Legend

open Listing

variable {s : Scope} {r : Reading} {d : Dump}

theorem string (h : Legend s r d) {offset : UInt32} {name : String} (hr : r.ReadsName offset name) :
    d.img.string offset = .ok (Text.cut name) := by
  rw [h.img]
  exact hr

/-! ### Callables -/

/-- The two flags of a parameter tell its direction. -/
theorem directionText_eq {row : ArgRow} {p : ParamDecl} (hr : r.ReadsArg row p) :
    Dump.directionText row.flags = directionText p.direction := by
  have hin : row.flags.toNat.testBit ArgRow.inBit = (p.direction != .output) :=
    hr.flags ArgRow.inBit
  have hout : row.flags.toNat.testBit ArgRow.outBit = (p.direction != .input) :=
    hr.flags ArgRow.outBit
  rw [Dump.directionText, hin, hout]
  cases p.direction <;> rfl

theorem arg (h : Legend s r d) {row : ArgRow} {p : ParamDecl} (hr : r.ReadsArg row p)
    (hc : s.Covers p.type) : d.arg row = .ok (s.paramText p) := by
  rw [Dump.arg, read_bind (h.string hr.name), read_bind (h.type hr.type hc), directionText_eq hr]
  rfl

theorem result (h : Legend s r d) {row : SignatureRow} {result : Option ReturnDecl}
    (hr : r.ReadsResult row result) (hc : ∀ ret, result = some ret → s.Covers ret.type) :
    d.type row.returnType = .ok (s.resultText result) := by
  cases result with
  | some ret => exact h.type hr.1 (hc ret rfl)
  | none =>
    rw [hr.1]
    exact h.type (Reading.readsType_scalar r .void false) fun _ hn => by cases hn

/-- A callable is shown with its parameters and its result. -/
theorem callable (h : Legend s r d) {name : UInt32} {signature : UInt32} {text : String}
    {sig : Signature} (hname : r.ReadsName name text) (hr : r.ReadsSignature signature sig)
    (hc : ∀ t ∈ sig.types, s.Covers t) :
    d.callable name signature = .ok (s.callableText text sig) := by
  obtain ⟨view, hview, hresult, hargs⟩ := hr
  rw [← h.img] at hview
  have hparams : view.args.mapM d.arg = .ok (sig.params.map s.paramText) :=
    mapM_rows hargs fun _ p hp ha =>
      h.arg ha (hc p.type (List.mem_cons_of_mem _ (List.mem_map_of_mem hp)))
  have hreturn := h.result hresult fun ret hret => by
    refine hc ret.type ?_
    rw [Signature.types, hret]
    exact List.mem_cons_self
  rw [Dump.callable, read_bind (h.string hname), read_bind hview, read_bind hparams,
    read_bind hreturn]
  rfl

theorem function (h : Legend s r d) (label : String) {owner : Owner} {row : FunctionRow}
    {f : FunctionDecl} (hr : r.ReadsFunction owner row f)
    (hc : ∀ t ∈ f.signature.types, s.Covers t) :
    d.function label row = .ok ("  " ++ label ++ " " ++ s.callableText f.name f.signature) := by
  rw [Dump.function, read_bind (h.callable hr.name hr.signature hc)]
  rfl

theorem method (h : Legend s r d) {owner : Owner} {row : FunctionRow} {f : FunctionDecl}
    (hr : r.ReadsFunction owner row f) (hc : ∀ t ∈ f.signature.types, s.Covers t) :
    d.method row = .ok (s.methodLine f) := h.function "method" hr hc

theorem signal (h : Legend s r d) {owner : Owner} {row : SignalRow} {decl : SignalDecl}
    (hr : r.ReadsSignal owner row decl) (hc : ∀ t ∈ decl.signature.types, s.Covers t) :
    d.signal row = .ok (s.signalLine decl) := by
  rw [Dump.signal, read_bind (h.callable hr.name hr.signature hc)]
  rfl

theorem vfunc (h : Legend s r d) {owner : Owner} {row : VFuncRow} {v : VFuncDecl}
    (hr : r.ReadsVFunc owner row v) (hc : ∀ t ∈ v.signature.types, s.Covers t) :
    d.vfunc row = .ok (s.vfuncLine v) := by
  rw [Dump.vfunc, read_bind (h.callable hr.name hr.signature hc)]
  rfl

/-! ### Other members -/

theorem field (h : Legend s r d) {row : FieldRow} {f : FieldDecl} (hr : r.ReadsField row f)
    (hc : s.Covers f.type) : d.field row = .ok (s.fieldLine f) := by
  rw [Dump.field, read_bind (h.string hr.name), read_bind (h.type hr.type hc), hr.bits]
  rfl

/-- The flags of a property tell how it is used. -/
theorem modeText_eq {row : PropertyRow} {p : PropertyDecl} (hr : r.ReadsProperty row p) :
    Dump.modeText row.flags = modeText p := by
  have hreadable : row.flags.toNat.testBit PropertyRow.readableBit = p.readable :=
    hr.flags PropertyRow.readableBit
  have hwritable : row.flags.toNat.testBit PropertyRow.writableBit = p.writable :=
    hr.flags PropertyRow.writableBit
  have hconstruct : row.flags.toNat.testBit PropertyRow.constructBit = p.construct :=
    hr.flags PropertyRow.constructBit
  have honly : row.flags.toNat.testBit PropertyRow.constructOnlyBit = p.constructOnly :=
    hr.flags PropertyRow.constructOnlyBit
  simp only [Dump.modeText, modeText, hreadable, hwritable, hconstruct, honly]

theorem property (h : Legend s r d) {row : PropertyRow} {p : PropertyDecl}
    (hr : r.ReadsProperty row p) (hc : s.Covers p.type) :
    d.property row = .ok (s.propertyLine p) := by
  rw [Dump.property, read_bind (h.string hr.name), read_bind (h.type hr.type hc), modeText_eq hr]
  rfl

theorem constant (h : Legend s r d) {row : ConstantRow} {c : ConstantDecl}
    (hr : r.ReadsConstant row c) (hc : s.Covers c.type) :
    d.constant row = .ok (s.constantLine c) := by
  obtain ⟨bytes, hencode, hvalue, -⟩ := hr.value
  rw [← h.img] at hvalue
  have htext : valueText c = Value.format (some c.type.tag) bytes := by rw [valueText, hencode]
  rw [Dump.constant, read_bind hvalue, read_bind (h.string hr.name),
    read_bind (h.type hr.type hc), hr.type.tag, Scope.constantLine, htext]
  rfl

theorem value (h : Legend s r d) {row : ValueRow} {v : ValueDecl} (hr : r.ReadsValue row v) :
    d.value row = .ok (valueLine v) := by
  rw [Dump.value, read_bind (h.string hr.name), hr.value]
  rfl

theorem gtype (h : Legend s r d) {head : RegisteredHead} {kind : EntryKind} {name : String}
    {deprecated discriminated : Bool} {gtypeName gtypeInit : Option String}
    (hr : r.ReadsHead head kind name deprecated gtypeName gtypeInit discriminated) :
    d.gtype head = .ok (gtypeLines gtypeName gtypeInit) := by
  have hname := hr.gtypeName
  have hinit := hr.gtypeInit
  rw [Reading.ReadsOptName, ← h.img] at hname hinit
  rw [Dump.gtype, read_bind hname]
  cases gtypeName with
  | none => rfl
  | some name =>
    simp only [Option.map_some]
    rw [read_bind hinit]
    cases gtypeInit <;> rfl

/-! ### Lists of entries -/

theorem nameOf_readsSlot (h : Legend s r d) {ref : DirRef} {name : String}
    (hr : r.ReadsSlot ref name) (hn : name ∈ s.names) : d.nameOf ref = (s.entity name).text := by
  rw [hr.1]
  exact h.nameOf hn

theorem links (h : Legend s r d) (label : String) {refs : List DirRef} {names : List String}
    (hr : List.Forall₂ r.ReadsSlot refs names) (hn : ∀ name ∈ names, name ∈ s.names) :
    d.slots label refs = s.linkLines label names := by
  rw [Dump.slots, Scope.linkLines]
  induction hr with
  | nil => rfl
  | cons href _ ih =>
    rw [List.map_cons, List.map_cons, h.nameOf_readsSlot href (hn _ List.mem_cons_self),
      ih fun name hmem => hn name (List.mem_cons_of_mem _ hmem)]

end Legend

end Typelib
