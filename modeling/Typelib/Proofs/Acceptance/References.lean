import Typelib.Proofs.Acceptance.Exact

/-!
# References to members

Rows refer to other members of their entry by name: a signal to its class closure, a virtual function
to its signal, and a function to the virtual function that it wraps and to its property. In a
description that compiles each of them names a member.

The row of a function has one place for both of its references, and the virtual function takes it.
Then the property is not looked up, and may be the name of nothing.

* `Node.Refers`: the references of a node, as they are written;
* `Document.unshadowed`: a description without the properties that are not looked up;
* `compile_members`: they make no difference, and all other references are checked.
-/

namespace Typelib

/-! ### References as they are written -/

/-- The rows of an entry that may refer to members of it. -/
structure Callables where
  owner : Owner
  functions : List FunctionDecl := []
  signals : List SignalDecl := []
  vfuncs : List VFuncDecl := []

/-- The rows refer to a member. -/
inductive Callables.Refers (c : Callables) : MemberRef → Prop
  | classClosure {s : SignalDecl} {name : String} : s ∈ c.signals → s.classClosure = some name →
      c.Refers ⟨"vfunc", c.owner.vfuncs, name⟩
  | signal {v : VFuncDecl} {name : String} : v ∈ c.vfuncs → v.signal = some name →
      c.Refers ⟨"signal", c.owner.signals, name⟩
  | wrapsVFunc {f : FunctionDecl} {name : String} : f ∈ c.functions → f.wrapsVFunc = some name →
      c.Refers ⟨"vfunc", c.owner.vfuncs, name⟩
  | property {f : FunctionDecl} {name : String} : f ∈ c.functions → f.property = some name →
      c.Refers ⟨"property", c.owner.properties, name⟩

/-- Only objects and interfaces have members that can be referred to. -/
def Node.callables : Node → Callables
  | function f => { owner := { name := f.name }, functions := [f] }
  | struct s | boxed s => { owner := { name := s.name }, functions := s.methods }
  | union u => { owner := { name := u.name }, functions := u.methods }
  | object o => ⟨o.owner, o.methods, o.signals, o.vfuncs⟩
  | interface i => ⟨i.owner, i.methods, i.signals, i.vfuncs⟩
  | signal s => { owner := { name := s.name }, signals := [s] }
  | vfunc v => { owner := { name := v.name }, vfuncs := [v] }
  | node => { owner := { name := node.name } }

/-- A node refers to a member. -/
def Node.Refers (node : Node) (ref : MemberRef) : Prop := node.callables.Refers ref

/-! ### References that are not looked up -/

/-- A function without its property, if it wraps a virtual function. -/
def FunctionDecl.unshadowed (f : FunctionDecl) : FunctionDecl :=
  if f.wrapsVFunc.isSome then { f with property := none } else f

def Node.unshadowed : Node → Node
  | function f => function f.unshadowed
  | struct s => struct { s with methods := s.methods.map FunctionDecl.unshadowed }
  | boxed s => boxed { s with methods := s.methods.map FunctionDecl.unshadowed }
  | union u => union { u with methods := u.methods.map FunctionDecl.unshadowed }
  | object o => object { o with methods := o.methods.map FunctionDecl.unshadowed }
  | interface i => interface { i with methods := i.methods.map FunctionDecl.unshadowed }
  | node => node

def Document.unshadowed (doc : Document) : Document :=
  { doc with nodes := doc.nodes.map Node.unshadowed }

variable {doc : Document} {options : Options} {ref : MemberRef}

namespace FunctionDecl

variable (f : FunctionDecl) (owner : Owner)

theorem unshadowed_eq_self (h : f.wrapsVFunc = none) : f.unshadowed = f := by
  simp [unshadowed, h]

theorem property_unshadowed {vfunc : String} (h : f.wrapsVFunc = some vfunc) :
    f.unshadowed.property = none := by
  simp [unshadowed, h]

@[simp] theorem wrapsVFunc_unshadowed : f.unshadowed.wrapsVFunc = f.wrapsVFunc := by
  unfold unshadowed
  split <;> rfl

@[simp] theorem name_unshadowed : f.unshadowed.name = f.name := by
  unfold unshadowed
  split <;> rfl

@[simp] theorem cells_unshadowed : f.unshadowed.cells owner = f.cells owner := by
  cases h : f.wrapsVFunc with
  | none => rw [f.unshadowed_eq_self h]
  | some vfunc => simp [unshadowed, cells, index, h]

end FunctionDecl

namespace Node

variable (node : Node)

@[simp] theorem name_unshadowed : node.unshadowed.name = node.name := by
  cases node <;> simp [unshadowed, name]

@[simp] theorem entryKind?_unshadowed : node.unshadowed.entryKind? = node.entryKind? := by
  cases node <;> rfl

@[simp] theorem misplaced_unshadowed : node.unshadowed.misplaced = node.misplaced := by
  cases node <;> simp [misplaced, unshadowed, kindName, name]

@[simp] theorem cells_unshadowed : node.unshadowed.cells = node.cells := by
  cases node <;>
    simp [unshadowed, cells, StructDecl.cells, UnionDecl.cells, UnionDecl.discriminators,
      UnionDecl.discriminatorCells, ObjectDecl.cells, ObjectDecl.owner, InterfaceDecl.cells,
      InterfaceDecl.owner, Cell.count, List.flatMap_map]

end Node

/-! ### They make no difference -/

namespace Build

theorem register_unshadowed : ∀ nodes : List Node,
    register (nodes.map Node.unshadowed) = register nodes
  | [] => rfl
  | node :: nodes => by
    simp only [List.map_cons, register, Node.entryKind?_unshadowed, Node.misplaced_unshadowed,
      Node.name_unshadowed, register_unshadowed nodes]

theorem entries_unshadowed : ∀ nodes : List Node,
    entries (nodes.map Node.unshadowed) = entries nodes
  | [] => rfl
  | node :: nodes => by
    simp only [List.map_cons, entries, entry, Node.name_unshadowed, Node.cells_unshadowed,
      entries_unshadowed nodes]

end Build

theorem Document.compile_unshadowed (doc : Document) (options : Options) :
    doc.unshadowed.compile options = doc.compile options := by
  simp only [Document.compile, Typelib.compile, Document.unshadowed, Build.document,
    Build.register_unshadowed, Build.entries_unshadowed]

/-! ### All others are checked -/

/-- Each reference of a function is looked up, unless its property is shadowed. -/
theorem FunctionDecl.looked_up (f : FunctionDecl) {owner : Owner} {name : String} :
    (f.unshadowed.wrapsVFunc = some name →
        ⟨"vfunc", owner.vfuncs, name⟩ ∈ f.unshadowed.memberRefs owner) ∧
      (f.unshadowed.property = some name →
        ⟨"property", owner.properties, name⟩ ∈ f.unshadowed.memberRefs owner) := by
  cases h : f.wrapsVFunc with
  | none => simp +contextual [memberRefs, h]
  | some vfunc => simp +contextual [memberRefs, h, f.property_unshadowed h]

namespace Callables

/-- The references that are looked up. -/
def memberRefs (c : Callables) : List MemberRef :=
  c.functions.flatMap (FunctionDecl.memberRefs c.owner) ++
    c.signals.flatMap (SignalDecl.memberRefs c.owner) ++
    c.vfuncs.flatMap (VFuncDecl.memberRefs c.owner)

def unshadowed (c : Callables) : Callables :=
  { c with functions := c.functions.map FunctionDecl.unshadowed }

theorem Refers.mem_memberRefs {c : Callables} (h : c.unshadowed.Refers ref) :
    ref ∈ c.unshadowed.memberRefs := by
  simp only [memberRefs, List.mem_append, List.mem_flatMap]
  cases h with
  | classClosure hs hname => exact .inl (.inr ⟨_, hs, by simp [SignalDecl.memberRefs, hname]⟩)
  | signal hv hname => exact .inr ⟨_, hv, by simp [VFuncDecl.memberRefs, hname]⟩
  | wrapsVFunc hf hname =>
    obtain ⟨f, -, rfl⟩ := List.mem_map.1 hf
    exact .inl (.inl ⟨_, hf, f.looked_up.1 hname⟩)
  | property hf hname =>
    obtain ⟨f, -, rfl⟩ := List.mem_map.1 hf
    exact .inl (.inl ⟨_, hf, f.looked_up.2 hname⟩)

end Callables

namespace Node

variable (node : Node)

theorem callables_unshadowed : node.unshadowed.callables = node.callables.unshadowed := by
  cases node <;>
    simp [unshadowed, callables, Callables.unshadowed, ObjectDecl.owner, InterfaceDecl.owner, name]

theorem memberRefs_callables (h : node.entryKind?.isSome) :
    node.memberRefs = node.callables.memberRefs := by
  cases node <;> simp_all [memberRefs, callables, Callables.memberRefs, entryKind?]

end Node

/-- The members of a description that compiles: all that are referred to are there. -/
theorem Document.mem_members {a : Artifact} (h : doc.compile options = .ok a) :
    ∀ node ∈ doc.unshadowed.nodes, ∀ ref, node.Refers ref → ref.name ∈ ref.members := by
  intro node hnode ref href
  have hacceptable := Document.acceptable_of_compile (doc.compile_unshadowed options ▸ h)
  refine hacceptable.owners node hnode ref ?_
  rw [node.memberRefs_callables (hacceptable.kinds node hnode)]
  obtain ⟨node, -, rfl⟩ := List.mem_map.1 hnode
  rw [Node.Refers, node.callables_unshadowed] at href
  exact node.callables_unshadowed ▸ href.mem_memberRefs

/-- **Members are there.** The property of a function that wraps a virtual function as well makes no
difference. All other references are checked: in a description that compiles they name members, and
a description with one that does not is refused, with an error that names what it violates, or
because its build used up the identities. -/
theorem compile_members (doc : Document) (options : Options) :
    doc.unshadowed.compile options = doc.compile options ∧
      (∀ a, doc.compile options = .ok a →
        ∀ node ∈ doc.unshadowed.nodes, ∀ ref, node.Refers ref → ref.name ∈ ref.members) ∧
      ∀ node ∈ doc.unshadowed.nodes, ∀ ref, node.Refers ref → ref.name ∉ ref.members →
        ∃ e, doc.compile options = .error e ∧
          (doc.Violates options e ∨ doc.Exhausted options e) := by
  refine ⟨doc.compile_unshadowed options, fun a => Document.mem_members, ?_⟩
  intro node hnode ref href hunknown
  cases h : doc.compile options with
  | ok a => exact absurd (Document.mem_members h node hnode ref href) hunknown
  | error e => exact ⟨e, rfl, Document.violates_or_exhausted h⟩

namespace Sample

/-- A method that wraps a virtual function and has a property. -/
def draw (property : String) : FunctionDecl where
  name := "draw"
  symbol := "widget_draw"
  wrapsVFunc := some "draw"
  property := some property

/-- An object whose members refer to each other. -/
def widget (property : String) : ObjectDecl where
  name := "Widget"
  properties := [{ name := "label", type := .scalar .utf8 false }]
  methods := [draw property]
  signals := [{ name := "drawn", classClosure := some "draw" }]
  vfuncs := [{ name := "draw", signal := some "drawn" }]

/-- A description of nothing but an object. -/
def shelf (decl : ObjectDecl) : Document where
  namespaceName := "Sample"
  nodes := [.object decl]

theorem exists_compile_widget : ∃ a, (shelf (widget "missing")).compile {} = .ok a :=
  exists_of_isOk (by decide +kernel)

end Sample

/-- The virtual function that the method wraps is there; with another one as class closure of the
signal, the object is refused. -/
theorem compile_members_sample :
    "draw" ∈ (Sample.widget "missing").owner.vfuncs ∧
      ∃ e, (Sample.shelf { Sample.widget "label" with
        signals := [{ name := "drawn", classClosure := some "paint" }] }).compile {} = .error e := by
  constructor
  · obtain ⟨a, h⟩ := Sample.exists_compile_widget
    exact (compile_members _ _).2.1 a h _ (List.mem_singleton_self _) _
      (.wrapsVFunc (List.mem_singleton_self _) (Sample.draw "missing").wrapsVFunc_unshadowed)
  · obtain ⟨e, h, -⟩ := (compile_members (Sample.shelf { Sample.widget "label" with
      signals := [{ name := "drawn", classClosure := some "paint" }] }) {}).2.2 _
      (List.mem_singleton_self _) ⟨"vfunc", _, "paint"⟩
      (.classClosure (List.mem_singleton_self _) rfl) (by decide)
    exact ⟨e, h⟩

/-- The property of a method is the name of nothing, and the object compiles. -/
theorem shadowed_property_escapes :
    (∃ a, (Sample.shelf (Sample.widget "missing")).compile {} = .ok a) ∧
      ∃ node ∈ (Sample.shelf (Sample.widget "missing")).nodes,
        ∃ ref, node.Refers ref ∧ ref.name ∉ ref.members :=
  ⟨Sample.exists_compile_widget, _, List.mem_singleton_self _, ⟨"property", _, "missing"⟩,
    .property (List.mem_singleton_self _) rfl, by decide⟩

end Typelib
