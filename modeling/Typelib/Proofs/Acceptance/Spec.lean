import Mathlib.Data.List.Dedup
import Typelib.Proofs.Image.Assembled
import Typelib.Proofs.Reading.Uses

/-!
# Which descriptions are accepted

Some descriptions can not become files: names clash or lead nowhere, members refer to others that
are not there, numbers and literals do not fit, or there is too much of something. All this is said
of a description before anything is written.

* `Scope`: the names of a description, and which of them stand for entries that are not local;
* `Document.Acceptable`: the conditions under which a description becomes a file;
* `Document.Violates`: the errors, each with the condition that it names.
-/

namespace Typelib

/-! ### Names -/

/-- The names that a description may use. -/
structure Scope where
  namespaceName : String
  /-- The names of the local entries. -/
  locals : List String
  options : Options
  /-- The names that are referred to. -/
  names : List String

namespace Scope

variable (s : Scope)

/-- The namespace and the symbol that a name stands for, unless it is the name of a local entry, with
or without this namespace in front of it. -/
def foreign? (name : String) : Option (String × String) :=
  if name ∈ s.locals then none
  else
    match SymbolTable.splitName name with
    | none => some (s.namespaceName, name)
    | some (ns, symbol) =>
      if ns = s.namespaceName ∧ symbol ∈ s.locals then none else some (ns, symbol)

/-- The entries that are referred to and are not local, each once. -/
def foreigns : List (String × String) := (s.names.filterMap s.foreign?).dedup

/-- A name is that of a local entry, or lies in a namespace that may be referred to: any one if names
are not strict, else one that is included and is not this one. -/
def Admits (name : String) : Prop :=
  ∀ ns symbol, s.foreign? name = some (ns, symbol) → s.options.strict = true →
    ns ≠ s.namespaceName ∧ ns ∈ s.options.includes

end Scope

/-! ### Members -/

/-- One member of an entry refers to another one by its name. -/
structure MemberRef where
  /-- What the other one should be. -/
  kind : String
  /-- The names that there are of this kind. -/
  members : List String
  name : String

/-- A function refers to the virtual function that it wraps, or else to its property. -/
def FunctionDecl.memberRefs (owner : Owner) (f : FunctionDecl) : List MemberRef :=
  match f.wrapsVFunc, f.property with
  | some name, _ => [⟨"vfunc", owner.vfuncs, name⟩]
  | none, some name => [⟨"property", owner.properties, name⟩]
  | none, none => []

def SignalDecl.memberRefs (owner : Owner) (s : SignalDecl) : List MemberRef :=
  s.classClosure.toList.map fun name => ⟨"vfunc", owner.vfuncs, name⟩

def VFuncDecl.memberRefs (owner : Owner) (v : VFuncDecl) : List MemberRef :=
  v.signal.toList.map fun name => ⟨"signal", owner.signals, name⟩

namespace Node

def memberRefs : Node → List MemberRef
  | function f => f.memberRefs { name := f.name }
  | struct s | boxed s => s.methods.flatMap (FunctionDecl.memberRefs { name := s.name })
  | union u => u.methods.flatMap (FunctionDecl.memberRefs { name := u.name })
  | object o =>
    o.methods.flatMap (FunctionDecl.memberRefs o.owner) ++
      o.signals.flatMap (SignalDecl.memberRefs o.owner) ++
      o.vfuncs.flatMap (VFuncDecl.memberRefs o.owner)
  | interface i =>
    i.methods.flatMap (FunctionDecl.memberRefs i.owner) ++
      i.signals.flatMap (SignalDecl.memberRefs i.owner) ++
      i.vfuncs.flatMap (VFuncDecl.memberRefs i.owner)
  | _ => []

/-- The numbers of members of each kind. -/
def memberCounts : Node → List (String × Nat)
  | struct s | boxed s => [("fields", s.fields.length), ("methods", s.methods.length)]
  | union u =>
    [("fields", u.fields.length), ("methods", u.methods.length),
      ("discriminators", u.discriminators.length)]
  | enum e | flags e => [("values", e.values.length)]
  | object o =>
    [("interfaces", o.interfaces.length), ("fields", o.fields.length),
      ("properties", o.properties.length), ("methods", o.methods.length),
      ("signals", o.signals.length), ("vfuncs", o.vfuncs.length),
      ("constants", o.constants.length)]
  | interface i =>
    [("prerequisites", i.prerequisites.length), ("properties", i.properties.length),
      ("methods", i.methods.length), ("signals", i.signals.length),
      ("vfuncs", i.vfuncs.length), ("constants", i.constants.length)]
  | _ => []

def values : Node → List ValueDecl
  | enum e | flags e => e.values
  | _ => []

/-- The names that are referred to outside of types. -/
def links : Node → List String
  | object o => o.parent.toList ++ o.interfaces
  | interface i => i.prerequisites
  | errorDomain e => [e.codes]
  | _ => []

/-- All names that are referred to, also inside types. -/
def names (node : Node) : List String := node.links ++ node.types.flatMap Ty.names

end Node

/-- A value fits a signed or an unsigned word. -/
def ValueDecl.Fits (v : ValueDecl) : Prop :=
  -0x80000000 ≤ v.value.toInt ∧ v.value.toInt ≤ 0xFFFFFFFF

/-! ### Descriptions -/

namespace Document

variable (doc : Document) (options : Options)

/-- The names of a description. -/
def scope : Scope where
  namespaceName := doc.namespaceName
  locals := doc.nodes.map Node.name
  options
  names := doc.nodes.flatMap Node.names

/-- Number of directory entries: the local ones, and those that are referred to and are not local. -/
def entryCount : Nat := doc.nodes.length + (doc.scope options).foreigns.length

/-- The draft that building a description leaves. -/
def draft : Draft := .final doc.namespaceName doc.nodes doc.sharedLibrary options

/-- Length of the file, as it is computed from what was written. -/
def fileSize : Nat := (doc.draft options).placement.total

/-- The conditions under which a description becomes a file. -/
structure Acceptable : Prop where
  kinds : ∀ node ∈ doc.nodes, node.entryKind?.isSome
  distinct : (doc.nodes.map Node.name).Nodup
  members : ∀ node ∈ doc.nodes, ∀ list ∈ node.memberCounts, list.2 ≤ 65535
  params : ∀ node ∈ doc.nodes, ∀ s ∈ node.signatures, s.params.length ≤ 65535
  values : ∀ node ∈ doc.nodes, ∀ v ∈ node.values, v.Fits
  constants : ∀ node ∈ doc.nodes, ∀ c ∈ node.constants, ∃ bytes, c.encode = .ok bytes
  owners : ∀ node ∈ doc.nodes, ∀ ref ∈ node.memberRefs, ref.name ∈ ref.members
  names : ∀ node ∈ doc.nodes, ∀ name ∈ node.names, (doc.scope options).Admits name
  entries : doc.entryCount options ≤ 65535
  size : doc.fileSize options ≤ 2 ^ 32 - 1

/-- An error names a condition that a description violates. -/
inductive Violates : BuildError → Prop
  | kinds {node : Node} : node ∈ doc.nodes → node.entryKind? = none →
      Violates (.unexpectedNode node.kindName node.name)
  | distinct {name : String} : 2 ≤ (doc.nodes.map Node.name).count name →
      Violates (.duplicateEntry name)
  | members {node : Node} {kind : String} {n : Nat} : node ∈ doc.nodes →
      (kind, n) ∈ node.memberCounts → 65535 < n → Violates (.tooManyMembers node.name kind n)
  | params {node : Node} {s : Signature} : node ∈ doc.nodes → s ∈ node.signatures →
      65535 < s.params.length →
      Violates (.tooManyMembers "signature" "arguments" s.params.length)
  | values {node : Node} {v : ValueDecl} : node ∈ doc.nodes → v ∈ node.values → ¬ v.Fits →
      Violates (.valueOutOfRange node.name v.name v.value.toInt)
  | constants {node : Node} {c : ConstantDecl} : node ∈ doc.nodes → c ∈ node.constants →
      (∀ bytes, c.encode ≠ .ok bytes) → Violates (.invalidConstant c.name c.type.tag c.value)
  | owners {node : Node} {ref : MemberRef} : node ∈ doc.nodes → ref ∈ node.memberRefs →
      ref.name ∉ ref.members → Violates (.unknownMember node.name ref.kind ref.name)
  | names {node : Node} {name : String} : node ∈ doc.nodes → name ∈ node.names →
      ¬ (doc.scope options).Admits name → Violates (.unresolvedName name)
  | entries : 65535 < doc.entryCount options → Violates (.tooManyEntries 65536)
  | size {size : Nat} : 2 ^ 32 - 1 < size → size ≤ doc.fileSize options →
      Violates (.tooLarge size)

variable {doc options} {e : BuildError}

/-- The condition is indeed violated. -/
theorem Violates.not_acceptable (h : doc.Violates options e) : ¬ doc.Acceptable options := by
  intro ha
  cases h with
  | kinds hn hk => simpa [hk] using ha.kinds _ hn
  | distinct hc => exact absurd (List.nodup_iff_count_le_one.1 ha.distinct _) (Nat.not_le.2 hc)
  | members hn hm hlt => exact absurd (ha.members _ hn _ hm) (Nat.not_le.2 hlt)
  | params hn hs hlt => exact absurd (ha.params _ hn _ hs) (Nat.not_le.2 hlt)
  | values hn hv hf => exact hf (ha.values _ hn _ hv)
  | constants hn hc hb =>
    obtain ⟨bytes, he⟩ := ha.constants _ hn _ hc
    exact hb bytes he
  | owners hn hr hm => exact hm (ha.owners _ hn _ hr)
  | names hn hm hf => exact hf (ha.names _ hn _ hm)
  | entries hlt => exact absurd ha.entries (Nat.not_le.2 hlt)
  | size hlt hle => exact absurd (Nat.le_trans hle ha.size) (Nat.not_le.2 hlt)

end Document

end Typelib
