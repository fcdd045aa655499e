import Typelib.Description.Callable
import Typelib.Proofs.Description.Ty

/-!
# How callables are written

Signatures, functions, callbacks, signals and virtual functions are records. What says nothing that
is not assumed anyway may be left out, down to a whole signature.

* `Signature.record`, `FunctionDecl.record`, `CallbackDecl.record`, `SignalDecl.record`,
  `VFuncDecl.record`: how callables are written;
* `FunctionDecl.decodes` and its likes: they are read from each value that spells them.
-/

namespace Typelib

open Outline

/-! ### Signatures -/

/-- How a transfer is written. -/
def Transfer.text : Transfer → String
  | none => "none"
  | container => "container"
  | full => "full"

/-- How a direction is written. -/
def Direction.text : Direction → String
  | input => "in"
  | output => "out"
  | inout => "inout"

theorem Transfer.decodes : Decodes Transfer.ofJson? fun t => string t.text := by
  rintro t _ rfl -
  cases t <;> rfl

theorem Direction.decodes : Decodes Direction.ofJson? fun d => string d.text := by
  rintro d _ rfl -
  cases d <;> rfl

def ReturnDecl.record (r : ReturnDecl) : Roster where
  members := [
    .required "type" (.record r.type.record),
    .flag "may_return_null" r.mayReturnNull,
    .withDefault "transfer" Transfer.none (fun t => string t.text) r.transfer]
  names_nodup := by simp

theorem ReturnDecl.decodes : Decodes ReturnDecl.ofJson? fun r => .record r.record := by
  refine decodes_record (fun _ => rfl) fun r fs hfs h => ?_
  simp only [ReturnDecl.record, List.forall_mem_cons] at h
  obtain ⟨htype, hnull, htransfer, -⟩ := h
  rw [Ty.decodes.required hfs htype, Decodes.flag hfs hnull,
    Transfer.decodes.withDefault hfs htransfer]
  rfl

def ParamDecl.record (p : ParamDecl) : Roster where
  members := [
    .required "name" (string p.name),
    .required "type" (.record p.type.record),
    .withDefault "direction" Direction.input (fun d => string d.text) p.direction,
    .flag "null_ok" p.nullOk,
    .flag "optional" p.optional,
    .flag "dipper" p.dipper,
    .flag "retval" p.retval,
    .withDefault "transfer" Transfer.none (fun t => string t.text) p.transfer]
  names_nodup := by simp

theorem ParamDecl.decodes : Decodes ParamDecl.ofJson? fun p => .record p.record := by
  refine decodes_record (fun _ => rfl) fun p fs hfs h => ?_
  simp only [ParamDecl.record, List.forall_mem_cons] at h
  obtain ⟨hname, htype, hdirection, hnull, hoptional, hdipper, hretval, htransfer, -⟩ := h
  rw [decodes_string.required hfs hname, Ty.decodes.required hfs htype,
    Direction.decodes.withDefault hfs hdirection, Decodes.flag hfs hnull,
    Decodes.flag hfs hoptional, Decodes.flag hfs hdipper, Decodes.flag hfs hretval,
    Transfer.decodes.withDefault hfs htransfer]
  rfl

def Signature.record (s : Signature) : Roster where
  members := [
    .optional "result" (fun r => .record r.record) s.result,
    .list "params" (fun p => .record p.record) s.params]
  names_nodup := by simp

theorem Signature.decodes : Decodes Signature.ofJson? fun s => .record s.record := by
  refine decodes_record (fun _ => rfl) fun s fs hfs h => ?_
  simp only [Signature.record, List.forall_mem_cons] at h
  obtain ⟨hresult, hparams, -⟩ := h
  rw [Decodes.optional ReturnDecl.decodes rfl hfs hresult,
    Decodes.list ParamDecl.decodes hfs hparams]
  rfl

/-- Without a result and without parameters, a signature may be left out. -/
def Signature.member (s : Signature) : Member :=
  .withDefault "signature" ({} : Signature) (fun s => .record s.record) s

@[simp] theorem Signature.member_name (s : Signature) : s.member.name = "signature" := rfl

/-! ### Callables -/

def FunctionDecl.record (f : FunctionDecl) : Roster where
  members := [
    .required "name" (string f.name),
    .flag "deprecated" f.deprecated,
    .required "symbol" (string f.symbol),
    .flag "method" f.method,
    .flag "constructor" f.constructor,
    .flag "getter" f.getter,
    .flag "setter" f.setter,
    .optional "wraps_vfunc" string f.wrapsVFunc,
    .optional "property" string f.property,
    f.signature.member]
  names_nodup := by simp

theorem FunctionDecl.decodes : Decodes FunctionDecl.ofJson? fun f => .record f.record := by
  refine decodes_record (fun _ => rfl) fun f fs hfs h => ?_
  simp only [FunctionDecl.record, List.forall_mem_cons] at h
  obtain ⟨hname, hdeprecated, hsymbol, hmethod, hconstructor, hgetter, hsetter, hwraps, hproperty,
    hsignature, -⟩ := h
  rw [decodes_string.required hfs hname, Decodes.flag hfs hdeprecated,
    decodes_string.required hfs hsymbol, Decodes.flag hfs hmethod, Decodes.flag hfs hconstructor,
    Decodes.flag hfs hgetter, Decodes.flag hfs hsetter,
    Decodes.optional decodes_string rfl hfs hwraps,
    Decodes.optional decodes_string rfl hfs hproperty,
    Signature.decodes.withDefault hfs hsignature]
  rfl

def CallbackDecl.record (c : CallbackDecl) : Roster where
  members := [
    .required "name" (string c.name),
    .flag "deprecated" c.deprecated,
    c.signature.member]
  names_nodup := by simp

theorem CallbackDecl.decodes : Decodes CallbackDecl.ofJson? fun c => .record c.record := by
  refine decodes_record (fun _ => rfl) fun c fs hfs h => ?_
  simp only [CallbackDecl.record, List.forall_mem_cons] at h
  obtain ⟨hname, hdeprecated, hsignature, -⟩ := h
  rw [decodes_string.required hfs hname, Decodes.flag hfs hdeprecated,
    Signature.decodes.withDefault hfs hsignature]
  rfl

/-- How a phase is written. -/
def RunPhase.text : RunPhase → String
  | first => "first"
  | last => "last"
  | cleanup => "cleanup"

theorem RunPhase.decodes : Decodes RunPhase.ofJson? fun r => string r.text := by
  rintro r _ rfl -
  cases r <;> rfl

def SignalDecl.record (s : SignalDecl) : Roster where
  members := [
    .required "name" (string s.name),
    .flag "deprecated" s.deprecated,
    .withDefault "run" RunPhase.last (fun r => string r.text) s.run,
    .flag "no_recurse" s.noRecurse,
    .flag "detailed" s.detailed,
    .flag "action" s.action,
    .flag "no_hooks" s.noHooks,
    .flag "true_stops_emit" s.trueStopsEmit,
    .optional "class_closure" string s.classClosure,
    s.signature.member]
  names_nodup := by simp

theorem SignalDecl.decodes : Decodes SignalDecl.ofJson? fun s => .record s.record := by
  refine decodes_record (fun _ => rfl) fun s fs hfs h => ?_
  simp only [SignalDecl.record, List.forall_mem_cons] at h
  obtain ⟨hname, hdeprecated, hrun, hrecurse, hdetailed, haction, hhooks, hstops, hclosure,
    hsignature, -⟩ := h
  rw [decodes_string.required hfs hname, Decodes.flag hfs hdeprecated,
    RunPhase.decodes.withDefault hfs hrun, Decodes.flag hfs hrecurse,
    Decodes.flag hfs hdetailed, Decodes.flag hfs haction, Decodes.flag hfs hhooks,
    Decodes.flag hfs hstops, Decodes.optional decodes_string rfl hfs hclosure,
    Signature.decodes.withDefault hfs hsignature]
  rfl

def VFuncDecl.record (v : VFuncDecl) : Roster where
  members := [
    .required "name" (string v.name),
    .flag "must_chain_up" v.mustChainUp,
    .flag "must_be_implemented" v.mustBeImplemented,
    .flag "must_not_be_implemented" v.mustNotBeImplemented,
    .flag "class_closure" v.classClosure,
    .optional "signal" string v.signal,
    .withDefault "struct_offset" 0 uint16 v.structOffset,
    v.signature.member]
  names_nodup := by simp

theorem VFuncDecl.decodes : Decodes VFuncDecl.ofJson? fun v => .record v.record := by
  refine decodes_record (fun _ => rfl) fun v fs hfs h => ?_
  simp only [VFuncDecl.record, List.forall_mem_cons] at h
  obtain ⟨hname, hchain, hmust, hnot, hclosure, hsignal, hoffset, hsignature, -⟩ := h
  rw [decodes_string.required hfs hname, Decodes.flag hfs hchain, Decodes.flag hfs hmust,
    Decodes.flag hfs hnot, Decodes.flag hfs hclosure,
    Decodes.optional decodes_string rfl hfs hsignal,
    decodes_uint16.withDefault hfs hoffset, Signature.decodes.withDefault hfs hsignature]
  rfl

end Typelib
