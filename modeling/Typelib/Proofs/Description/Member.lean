import Typelib.Description.Member
import Typelib.Proofs.Description.Ty

/-!
# How members are written

Fields, properties, enumeration values and constants are records. Fields and properties are readable
unless they say otherwise.

* `FieldDecl.record`, `PropertyDecl.record`, `ValueDecl.record`, `ConstantDecl.record`: how members
  are written;
* `FieldDecl.decodes` and its likes: they are read from each value that spells them.
-/

namespace Typelib

open Outline

def FieldDecl.record (f : FieldDecl) : Roster where
  members := [
    .required "name" (string f.name),
    .required "type" (.record f.type.record),
    .withDefault "readable" true bool f.readable,
    .flag "writable" f.writable,
    .withDefault "bits" 0 uint8 f.bits,
    .withDefault "struct_offset" 0 uint16 f.structOffset]
  names_nodup := by simp

theorem FieldDecl.decodes : Decodes FieldDecl.ofJson? fun f => .record f.record := by
  refine decodes_record (fun _ => rfl) fun f fs hfs h => ?_
  simp only [FieldDecl.record, List.forall_mem_cons] at h
  obtain ⟨hname, htype, hreadable, hwritable, hbits, hoffset, -⟩ := h
  rw [decodes_string.required hfs hname, Ty.decodes.required hfs htype,
    decodes_bool.withDefault hfs hreadable, Decodes.flag hfs hwritable,
    decodes_uint8.withDefault hfs hbits, decodes_uint16.withDefault hfs hoffset]
  rfl

def PropertyDecl.record (p : PropertyDecl) : Roster where
  members := [
    .required "name" (string p.name),
    .flag "deprecated" p.deprecated,
    .required "type" (.record p.type.record),
    .withDefault "readable" true bool p.readable,
    .flag "writable" p.writable,
    .flag "construct" p.construct,
    .flag "construct_only" p.constructOnly]
  names_nodup := by simp

theorem PropertyDecl.decodes : Decodes PropertyDecl.ofJson? fun p => .record p.record := by
  refine decodes_record (fun _ => rfl) fun p fs hfs h => ?_
  simp only [PropertyDecl.record, List.forall_mem_cons] at h
  obtain ⟨hname, hdeprecated, htype, hreadable, hwritable, hconstruct, honly, -⟩ := h
  rw [decodes_string.required hfs hname, Decodes.flag hfs hdeprecated,
    Ty.decodes.required hfs htype, decodes_bool.withDefault hfs hreadable,
    Decodes.flag hfs hwritable, Decodes.flag hfs hconstruct, Decodes.flag hfs honly]
  rfl

def ValueDecl.record (v : ValueDecl) : Roster where
  members := [
    .required "name" (string v.name),
    .flag "deprecated" v.deprecated,
    .required "value" (int64 v.value)]
  names_nodup := by simp

theorem ValueDecl.decodes : Decodes ValueDecl.ofJson? fun v => .record v.record := by
  refine decodes_record (fun _ => rfl) fun v fs hfs h => ?_
  simp only [ValueDecl.record, List.forall_mem_cons] at h
  obtain ⟨hname, hdeprecated, hvalue, -⟩ := h
  rw [decodes_string.required hfs hname, Decodes.flag hfs hdeprecated,
    decodes_int64.required hfs hvalue]
  rfl

def ConstantDecl.record (c : ConstantDecl) : Roster where
  members := [
    .required "name" (string c.name),
    .flag "deprecated" c.deprecated,
    .required "type" (.record c.type.record),
    .required "value" (string c.value)]
  names_nodup := by simp

theorem ConstantDecl.decodes : Decodes ConstantDecl.ofJson? fun c => .record c.record := by
  refine decodes_record (fun _ => rfl) fun c fs hfs h => ?_
  simp only [ConstantDecl.record, List.forall_mem_cons] at h
  obtain ⟨hname, hdeprecated, htype, hvalue, -⟩ := h
  rw [decodes_string.required hfs hname, Decodes.flag hfs hdeprecated,
    Ty.decodes.required hfs htype, decodes_string.required hfs hvalue]
  rfl

end Typelib
