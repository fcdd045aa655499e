import Typelib.Description.Document
import Typelib.Proofs.Description.Callable
import Typelib.Proofs.Description.Member

/-!
# How nodes are written

A node is a record with its kind beside the members of what it describes. The kind may come
anywhere, also behind the members that it governs.

* `StructDecl.record`, `ObjectDecl.record` and their likes: how entries are written;
* `Node.record`: how a node is written;
* `Node.ofJson_eq`: a node is read from each value that spells it.
-/

namespace Typelib

open Outline

/-! ### Entries -/

def StructDecl.record (s : StructDecl) : Roster where
  members := [
    .required "name" (string s.name),
    .flag "deprecated" s.deprecated,
    .optional "gtype_name" string s.gtypeName,
    .optional "gtype_init" string s.gtypeInit,
    .list "fields" (fun f => .record f.record) s.fields,
    .list "methods" (fun f => .record f.record) s.methods]
  names_nodup := by simp

theorem StructDecl.decodes : Decodes StructDecl.ofJson? fun s => .record s.record := by
  refine decodes_record (fun _ => rfl) fun s fs hfs h => ?_
  simp only [StructDecl.record, List.forall_mem_cons] at h
  obtain ⟨hname, hdeprecated, htype, hinit, hfields, hmethods, -⟩ := h
  rw [decodes_string.required hfs hname, Decodes.flag hfs hdeprecated,
    Decodes.optional decodes_string rfl hfs htype, Decodes.optional decodes_string rfl hfs hinit,
    Decodes.list FieldDecl.decodes hfs hfields, Decodes.list FunctionDecl.decodes hfs hmethods]
  rfl

def Discriminator.record (d : Discriminator) : Roster where
  members := [
    .required "offset" (int32 d.offset),
    .required "type" (.record d.type.record),
    .list "values" (fun c => .record c.record) d.values]
  names_nodup := by simp

theorem Discriminator.decodes : Decodes Discriminator.ofJson? fun d => .record d.record := by
  refine decodes_record (fun _ => rfl) fun d fs hfs h => ?_
  simp only [Discriminator.record, List.forall_mem_cons] at h
  obtain ⟨hoffset, htype, hvalues, -⟩ := h
  rw [decodes_int32.required hfs hoffset, Ty.decodes.required hfs htype,
    Decodes.list ConstantDecl.decodes hfs hvalues]
  rfl

def UnionDecl.record (u : UnionDecl) : Roster where
  members := [
    .required "name" (string u.name),
    .flag "deprecated" u.deprecated,
    .optional "gtype_name" string u.gtypeName,
    .optional "gtype_init" string u.gtypeInit,
    .list "fields" (fun f => .record f.record) u.fields,
    .list "methods" (fun f => .record f.record) u.methods,
    .optional "discriminator" (fun d => .record d.record) u.discriminator]
  names_nodup := by simp

theorem UnionDecl.decodes : Decodes UnionDecl.ofJson? fun u => .record u.record := by
  refine decodes_record (fun _ => rfl) fun u fs hfs h => ?_
  simp only [UnionDecl.record, List.forall_mem_cons] at h
  obtain ⟨hname, hdeprecated, htype, hinit, hfields, hmethods, hdiscriminator, -⟩ := h
  rw [decodes_string.required hfs hname, Decodes.flag hfs hdeprecated,
    Decodes.optional decodes_string rfl hfs htype, Decodes.optional decodes_string rfl hfs hinit,
    Decodes.list FieldDecl.decodes hfs hfields, Decodes.list FunctionDecl.decodes hfs hmethods,
    Decodes.optional Discriminator.decodes rfl hfs hdiscriminator]
  rfl

def EnumDecl.record (e : EnumDecl) : Roster where
  members := [
    .required "name" (string e.name),
    .flag "deprecated" e.deprecated,
    .optional "gtype_name" string e.gtypeName,
    .optional "gtype_init" string e.gtypeInit,
    .list "values" (fun v => .record v.record) e.values]
  names_nodup := by simp

theorem EnumDecl.decodes : Decodes EnumDecl.ofJson? fun e => .record e.record := by
  refine decodes_record (fun _ => rfl) fun e fs hfs h => ?_
  simp only [EnumDecl.record, List.forall_mem_cons] at h
  obtain ⟨hname, hdeprecated, htype, hinit, hvalues, -⟩ := h
  rw [decodes_string.required hfs hname, Decodes.flag hfs hdeprecated,
    Decodes.optional decodes_string rfl hfs htype, Decodes.optional decodes_string rfl hfs hinit,
    Decodes.list ValueDecl.decodes hfs hvalues]
  rfl

def ObjectDecl.record (o : ObjectDecl) : Roster where
  members := [
    .required "name" (string o.name),
    .flag "deprecated" o.deprecated,
    .optional "gtype_name" string o.gtypeName,
    .optional "gtype_init" string o.gtypeInit,
    .optional "parent" string o.parent,
    .list "interfaces" string o.interfaces,
    .list "fields" (fun f => .record f.record) o.fields,
    .list "properties" (fun p => .record p.record) o.properties,
    .list "methods" (fun f => .record f.record) o.methods,
    .list "signals" (fun s => .record s.record) o.signals,
    .list "vfuncs" (fun v => .record v.record) o.vfuncs,
    .list "constants" (fun c => .record c.record) o.constants]
  names_nodup := by simp

theorem ObjectDecl.decodes : Decodes ObjectDecl.ofJson? fun o => .record o.record := by
  refine decodes_record (fun _ => rfl) fun o fs hfs h => ?_
  simp only [ObjectDecl.record, List.forall_mem_cons] at h
  obtain ⟨hname, hdeprecated, htype, hinit, hparent, hinterfaces, hfields, hproperties, hmethods,
    hsignals, hvfuncs, hconstants, -⟩ := h
  rw [decodes_string.required hfs hname, Decodes.flag hfs hdeprecated,
    Decodes.optional decodes_string rfl hfs htype, Decodes.optional decodes_string rfl hfs hinit,
    Decodes.optional decodes_string rfl hfs hparent, Decodes.list decodes_string hfs hinterfaces,
    Decodes.list FieldDecl.decodes hfs hfields, Decodes.list PropertyDecl.decodes hfs hproperties,
    Decodes.list FunctionDecl.decodes hfs hmethods, Decodes.list SignalDecl.decodes hfs hsignals,
    Decodes.list VFuncDecl.decodes hfs hvfuncs, Decodes.list ConstantDecl.decodes hfs hconstants]
  rfl

def InterfaceDecl.record (i : InterfaceDecl) : Roster where
  members := [
    .required "name" (string i.name),
    .flag "deprecated" i.deprecated,
    .optional "gtype_name" string i.gtypeName,
    .optional "gtype_init" string i.gtypeInit,
    .list "prerequisites" string i.prerequisites,
    .list "properties" (fun p => .record p.record) i.properties,
    .list "methods" (fun f => .record f.record) i.methods,
    .list "signals" (fun s => .record s.record) i.signals,
    .list "vfuncs" (fun v => .record v.record) i.vfuncs,
    .list "constants" (fun c => .record c.record) i.constants]
  names_nodup := by simp

theorem InterfaceDecl.decodes : Decodes InterfaceDecl.ofJson? fun i => .record i.record := by
  refine decodes_record (fun _ => rfl) fun i fs hfs h => ?_
  simp only [InterfaceDecl.record, List.forall_mem_cons] at h
  obtain ⟨hname, hdeprecated, htype, hinit, hprerequisites, hproperties, hmethods, hsignals,
    hvfuncs, hconstants, -⟩ := h
  rw [decodes_string.required hfs hname, Decodes.flag hfs hdeprecated,
    Decodes.optional decodes_string rfl hfs htype, Decodes.optional decodes_string rfl hfs hinit,
    Decodes.list decodes_string hfs hprerequisites,
    Decodes.list PropertyDecl.decodes hfs hproperties,
    Decodes.list FunctionDecl.decodes hfs hmethods, Decodes.list SignalDecl.decodes hfs hsignals,
    Decodes.list VFuncDecl.decodes hfs hvfuncs, Decodes.list ConstantDecl.decodes hfs hconstants]
  rfl

def ErrorDomainDecl.record (e : ErrorDomainDecl) : Roster where
  members := [
    .required "name" (string e.name),
    .flag "deprecated" e.deprecated,
    .required "get_quark" (string e.getQuark),
    .required "codes" (string e.codes)]
  names_nodup := by simp

theorem ErrorDomainDecl.decodes : Decodes ErrorDomainDecl.ofJson? fun e => .record e.record := by
  refine decodes_record (fun _ => rfl) fun e fs hfs h => ?_
  simp only [ErrorDomainDecl.record, List.forall_mem_cons] at h
  obtain ⟨hname, hdeprecated, hquark, hcodes, -⟩ := h
  rw [decodes_string.required hfs hname, Decodes.flag hfs hdeprecated,
    decodes_string.required hfs hquark, decodes_string.required hfs hcodes]
  rfl

/-! ### Nodes -/

namespace Node

/-- How that which a node describes is written. -/
def content : Node → Roster
  | function d => d.record
  | callback d => d.record
  | struct d | boxed d => d.record
  | union d => d.record
  | enum d | flags d => d.record
  | object d => d.record
  | interface d => d.record
  | errorDomain d => d.record
  | constant d => d.record
  | field d => d.record
  | property d => d.record
  | signal d => d.record
  | vfunc d => d.record
  | param d => d.record
  | value d => d.record
  | type t => t.record

theorem kind_notMem_content (n : Node) : "kind" ∉ n.content.members.map Member.name := by
  cases n with
  | type t => cases t <;> simp [content, Ty.record]
  | _ =>
    simp [content, FunctionDecl.record, CallbackDecl.record, StructDecl.record, UnionDecl.record,
      EnumDecl.record, ObjectDecl.record, InterfaceDecl.record, ErrorDomainDecl.record,
      ConstantDecl.record, FieldDecl.record, PropertyDecl.record, SignalDecl.record,
      VFuncDecl.record, ParamDecl.record, ValueDecl.record]

/-- How a node is written. -/
def record (n : Node) : Roster where
  members := .required "kind" (string n.kindName) :: n.content.members
  names_nodup := List.nodup_cons.2 ⟨n.kind_notMem_content, n.content.names_nodup⟩

/-- The reader that the kind names takes the other members to the node. -/
def ReadBy (n : Node) (read : Json → Option Node) : Prop :=
  readers.lookup n.kindName = some read ∧
    ∀ j, (Outline.record n.content).Spells j → j.depth ≤ Json.nestingLimit → read j = some n

theorem readBy_of_decodes {α : Type} {decode : Json → Option α} {r : α → Roster}
    {make : α → Node} (hd : Decodes decode fun a => .record (r a)) {a : α}
    (hcontent : (make a).content = r a)
    (hlookup : readers.lookup (make a).kindName = some fun j => (decode j).map make) :
    ∃ read, (make a).ReadBy read := by
  refine ⟨_, hlookup, fun j hj hdepth => ?_⟩
  rw [hcontent] at hj
  rw [hd a j hj hdepth]
  rfl

/-- Each kind has its reader. -/
theorem exists_readBy (n : Node) : ∃ read, n.ReadBy read := by
  cases n with
  | function => exact readBy_of_decodes FunctionDecl.decodes rfl rfl
  | callback => exact readBy_of_decodes CallbackDecl.decodes rfl rfl
  | struct => exact readBy_of_decodes StructDecl.decodes rfl rfl
  | boxed => exact readBy_of_decodes StructDecl.decodes rfl rfl
  | union => exact readBy_of_decodes UnionDecl.decodes rfl rfl
  | enum => exact readBy_of_decodes EnumDecl.decodes rfl rfl
  | flags => exact readBy_of_decodes EnumDecl.decodes rfl rfl
  | object => exact readBy_of_decodes ObjectDecl.decodes rfl rfl
  | interface => exact readBy_of_decodes InterfaceDecl.decodes rfl rfl
  | errorDomain => exact readBy_of_decodes ErrorDomainDecl.decodes rfl rfl
  | constant => exact readBy_of_decodes ConstantDecl.decodes rfl rfl
  | field => exact readBy_of_decodes FieldDecl.decodes rfl rfl
  | property => exact readBy_of_decodes PropertyDecl.decodes rfl rfl
  | signal => exact readBy_of_decodes SignalDecl.decodes rfl rfl
  | vfunc => exact readBy_of_decodes VFuncDecl.decodes rfl rfl
  | param => exact readBy_of_decodes ParamDecl.decodes rfl rfl
  | value => exact readBy_of_decodes ValueDecl.decodes rfl rfl
  | type => exact readBy_of_decodes Ty.decodes rfl rfl

/-! ### Reading nodes -/

variable {content : Json → Option Node} {acc fs : Json.Fields} {j : Json}

theorem reader_eq {kind : String} (h : readers.lookup kind = some content) :
    reader (.string kind) = .ok content := by
  simp only [reader, Json.meant, h]

theorem ofMembers_found (hkind : Member.named fs "kind" = [])
    (hwhole : ∀ f ∈ fs, f.2.fault? = none) :
    ofMembers none (some content) acc fs =
      (Json.object (acc.reverse ++ fs) none).meant content := by
  induction fs generalizing acc with
  | nil => rw [List.append_nil]; rfl
  | cons f fs ih =>
    obtain ⟨key, j⟩ := f
    rw [List.forall_mem_cons] at hwhole
    have hkey : key ≠ "kind" := by
      rintro rfl
      cases hkind
    have hj : j.whole = .ok j := by rw [Json.whole, hwhole.1]
    rw [Member.named_cons_of_ne hkey] at hkind
    rw [ofMembers, if_neg hkey, hj]
    exact (ih hkind hwhole.2).trans (by rw [List.reverse_cons, List.append_assoc]; rfl)

/-- The kind decides how the other members are read, those before it as well as those behind it. -/
theorem ofMembers_eq (hkind : Member.named fs "kind" = [("kind", j)]) (hj : reader j = .ok content)
    (hwhole : ∀ f ∈ fs, f.2.fault? = none) :
    ofMembers none none acc fs =
      (Json.object (acc.reverse ++ fs.filter fun f => f.1 != "kind") none).meant content := by
  induction fs generalizing acc with
  | nil => cases hkind
  | cons f fs ih =>
    obtain ⟨key, v⟩ := f
    rw [List.forall_mem_cons] at hwhole
    by_cases hkey : key = "kind"
    · subst hkey
      rw [Member.named_cons_self] at hkind
      -- no other kind follows, so the rest is read as it stands
      obtain ⟨hf, hrest⟩ := List.cons.inj hkind
      obtain rfl : v = j := congrArg Prod.snd hf
      have hothers : fs.filter (fun f => f.1 != "kind") = fs :=
        List.filter_eq_self.2 fun f hf => by simpa using List.filter_eq_nil_iff.1 hrest f hf
      rw [List.filter_cons_of_neg (by simp), hothers, ← ofMembers_found hrest hwhole.2, ofMembers,
        if_pos rfl, hj]
      rfl
    · have hv : v.whole = .ok v := by rw [Json.whole, hwhole.1]
      rw [Member.named_cons_of_ne hkey] at hkind
      rw [ofMembers, if_neg hkey, hv, List.filter_cons_of_pos (by simpa using hkey)]
      exact (ih hkind hwhole.2).trans (by rw [List.reverse_cons, List.append_assoc]; rfl)

/-- A node is read from each value that spells it. -/
theorem ofJson_eq {n : Node} (hj : (Outline.record n.record).Spells j) (hwhole : j.fault? = none)
    (hdepth : j.depth ≤ Json.nestingLimit) : ofJson j = .ok n := by
  obtain ⟨fs, rfl, h⟩ := hj
  rw [record, List.forall_mem_cons] at h
  obtain ⟨hkind, hcontent⟩ := h
  obtain ⟨read, hlookup, hread⟩ := n.exists_readBy
  have hothers : ∀ m ∈ n.content.members, m.In (fs.filter fun f => f.1 != "kind") := by
    refine fun m hm => (hcontent m hm).congr
      (Member.named_filter (p := (· != "kind")) (bne_iff_ne.2 fun heq => ?_))
    exact n.kind_notMem_content (List.mem_map.2 ⟨m, hm, heq⟩)
  have hshallow : (Json.object (fs.filter fun f => f.1 != "kind") none).depth ≤ Json.nestingLimit :=
    Nat.le_trans (Nat.succ_le_succ (Json.membersDepth_le.2 fun f hf =>
      Json.membersDepth_le.1 (Nat.le_refl _) f (List.mem_of_mem_filter hf))) hdepth
  cases hkind with
  | absent ho => cases ho
  | @present kind hnamed hkind =>
    obtain rfl : kind = .string n.kindName := hkind
    rw [ofJson, ofMembers_eq hnamed (reader_eq hlookup) (Json.membersFault?_eq_none.1 hwhole)]
    simp only [List.reverse_nil, List.nil_append, Json.meant, hread _ ⟨_, rfl, hothers⟩ hshallow]

end Node

end Typelib
