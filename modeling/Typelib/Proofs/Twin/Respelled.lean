import Mathlib.Data.List.Forall2
import Typelib.Build.Bodies
import Typelib.Description.Document

/-!
# Descriptions in another spelling

Two descriptions may be the same but for the names by which they refer to entries, in links and inside
types. Every occurrence of a name may be spelled in its own way. What does not depend on names is the
same in both, such as tags, weights and the values of constants.

* `Ty.Respelled`, `Node.Respelled`, `Document.Respelled`: the same but for names that a relation joins.
-/

namespace Typelib

variable {R : String → String → Prop}

/-- Members that agree on something agree on it as lists. -/
theorem list_rel_map_eq {α β : Type} {S : α → α → Prop} {f : α → β} {as as' : List α}
    (h : List.Forall₂ S as as') (hf : ∀ a a', S a a' → f a' = f a) : as'.map f = as.map f := by
  induction h with
  | nil => rfl
  | cons ha _ ih => rw [List.map_cons, List.map_cons, hf _ _ ha, ih]

theorem option_rel_refl {α : Type} {S : α → α → Prop} (hS : ∀ a, S a a) (o : Option α) :
    Option.Rel S o o := by
  cases o with
  | none => exact .none
  | some a => exact .some (hS a)

theorem option_rel_map {α β : Type} {S : α → α → Prop} {S' : β → β → Prop} {f f' : α → β}
    {o o' : Option α} (h : Option.Rel S o o') (hf : ∀ a a', S a a' → S' (f a) (f' a')) :
    Option.Rel S' (o.map f) (o'.map f') := by
  cases h with
  | none => exact .none
  | some ha => exact .some (hf _ _ ha)

theorem list_rel_refl {α : Type} {S : α → α → Prop} (hS : ∀ a, S a a) (as : List α) :
    List.Forall₂ S as as := List.forall₂_same.2 fun a _ => hS a

/-! ### Types -/

/-- The same type, but for names. -/
inductive Ty.Respelled (R : String → String → Prop) : Ty → Ty → Prop
  | scalar (kind : Scalar) (p : Bool) : Respelled R (.scalar kind p) (.scalar kind p)
  | interface {name name' : String} (p : Bool) :
    R name name' → Respelled R (.interface name p) (.interface name' p)
  | array {element element' : Ty} (zeroTerminated : Bool) (length : Option UInt16) (p : Bool) :
    Respelled R element element' →
      Respelled R (.array element zeroTerminated length p) (.array element' zeroTerminated length p)
  | list {element element' : Ty} (p : Bool) :
    Respelled R element element' → Respelled R (.list element p) (.list element' p)
  | slist {element element' : Ty} (p : Bool) :
    Respelled R element element' → Respelled R (.slist element p) (.slist element' p)
  | hash {key key' value value' : Ty} (p : Bool) :
    Respelled R key key' → Respelled R value value' →
      Respelled R (.hash key value p) (.hash key' value' p)
  | error {domains domains' : List String} (p : Bool) :
    List.Forall₂ R domains domains' → Respelled R (.error domains p) (.error domains' p)

namespace Ty.Respelled

variable {t t' : Ty}

theorem refl (hR : ∀ name, R name name) (t : Ty) : t.Respelled R t := by
  induction t with
  | scalar kind p => exact .scalar kind p
  | interface name p => exact .interface p (hR name)
  | array element z l p ih => exact .array z l p ih
  | list element p ih => exact .list p ih
  | slist element p ih => exact .slist p ih
  | hash key value p ihk ihv => exact .hash p ihk ihv
  | error domains p => exact .error p (list_rel_refl hR domains)

theorem tag (h : t.Respelled R t') : t'.tag = t.tag := by cases h <;> rfl

theorem pointer (h : t.Respelled R t') : t'.pointer = t.pointer := by cases h <;> rfl

theorem weight (h : t.Respelled R t') : t'.weight = t.weight := by
  induction h with
  | scalar | interface | error => rfl
  | array _ _ _ _ ih | list _ _ ih | slist _ _ ih => rw [Ty.weight, ih, Ty.weight]
  | hash _ _ _ ihk ihv => rw [Ty.weight, ihk, ihv, Ty.weight]

end Ty.Respelled

/-! ### Members -/

inductive FieldDecl.Respelled (R : String → String → Prop) (f : FieldDecl) : FieldDecl → Prop
  | mk {type : Ty} : f.type.Respelled R type → Respelled R f { f with type }

inductive PropertyDecl.Respelled (R : String → String → Prop) (p : PropertyDecl) :
    PropertyDecl → Prop
  | mk {type : Ty} : p.type.Respelled R type → Respelled R p { p with type }

inductive ConstantDecl.Respelled (R : String → String → Prop) (c : ConstantDecl) :
    ConstantDecl → Prop
  | mk {type : Ty} : c.type.Respelled R type → Respelled R c { c with type }

inductive ReturnDecl.Respelled (R : String → String → Prop) (r : ReturnDecl) : ReturnDecl → Prop
  | mk {type : Ty} : r.type.Respelled R type → Respelled R r { r with type }

inductive ParamDecl.Respelled (R : String → String → Prop) (p : ParamDecl) : ParamDecl → Prop
  | mk {type : Ty} : p.type.Respelled R type → Respelled R p { p with type }

inductive Signature.Respelled (R : String → String → Prop) (s : Signature) : Signature → Prop
  | mk {result : Option ReturnDecl} {params : List ParamDecl} :
    Option.Rel (ReturnDecl.Respelled R) s.result result →
      List.Forall₂ (ParamDecl.Respelled R) s.params params → Respelled R s { result, params }

inductive FunctionDecl.Respelled (R : String → String → Prop) (f : FunctionDecl) :
    FunctionDecl → Prop
  | mk {signature : Signature} :
    f.signature.Respelled R signature → Respelled R f { f with signature }

inductive CallbackDecl.Respelled (R : String → String → Prop) (c : CallbackDecl) :
    CallbackDecl → Prop
  | mk {signature : Signature} :
    c.signature.Respelled R signature → Respelled R c { c with signature }

inductive SignalDecl.Respelled (R : String → String → Prop) (s : SignalDecl) : SignalDecl → Prop
  | mk {signature : Signature} :
    s.signature.Respelled R signature → Respelled R s { s with signature }

inductive VFuncDecl.Respelled (R : String → String → Prop) (v : VFuncDecl) : VFuncDecl → Prop
  | mk {signature : Signature} :
    v.signature.Respelled R signature → Respelled R v { v with signature }

inductive Discriminator.Respelled (R : String → String → Prop) (d : Discriminator) :
    Discriminator → Prop
  | mk {type : Ty} {values : List ConstantDecl} :
    d.type.Respelled R type → List.Forall₂ (ConstantDecl.Respelled R) d.values values →
      Respelled R d { d with type, values }

/-! ### Nodes -/

inductive StructDecl.Respelled (R : String → String → Prop) (s : StructDecl) : StructDecl → Prop
  | mk {fields : List FieldDecl} {methods : List FunctionDecl} :
    List.Forall₂ (FieldDecl.Respelled R) s.fields fields →
      List.Forall₂ (FunctionDecl.Respelled R) s.methods methods →
      Respelled R s { s with fields, methods }

inductive UnionDecl.Respelled (R : String → String → Prop) (u : UnionDecl) : UnionDecl → Prop
  | mk {fields : List FieldDecl} {methods : List FunctionDecl}
      {discriminator : Option Discriminator} :
    List.Forall₂ (FieldDecl.Respelled R) u.fields fields →
      List.Forall₂ (FunctionDecl.Respelled R) u.methods methods →
      Option.Rel (Discriminator.Respelled R) u.discriminator discriminator →
      Respelled R u { u with fields, methods, discriminator }

inductive ObjectDecl.Respelled (R : String → String → Prop) (o : ObjectDecl) : ObjectDecl → Prop
  | mk {parent : Option String} {interfaces : List String} {fields : List FieldDecl}
      {properties : List PropertyDecl} {methods : List FunctionDecl} {signals : List SignalDecl}
      {vfuncs : List VFuncDecl} {constants : List ConstantDecl} :
    Option.Rel R o.parent parent → List.Forall₂ R o.interfaces interfaces →
      List.Forall₂ (FieldDecl.Respelled R) o.fields fields →
      List.Forall₂ (PropertyDecl.Respelled R) o.properties properties →
      List.Forall₂ (FunctionDecl.Respelled R) o.methods methods →
      List.Forall₂ (SignalDecl.Respelled R) o.signals signals →
      List.Forall₂ (VFuncDecl.Respelled R) o.vfuncs vfuncs →
      List.Forall₂ (ConstantDecl.Respelled R) o.constants constants →
      Respelled R o
        { o with parent, interfaces, fields, properties, methods, signals, vfuncs, constants }

inductive InterfaceDecl.Respelled (R : String → String → Prop) (i : InterfaceDecl) :
    InterfaceDecl → Prop
  | mk {prerequisites : List String} {properties : List PropertyDecl}
      {methods : List FunctionDecl} {signals : List SignalDecl} {vfuncs : List VFuncDecl}
      {constants : List ConstantDecl} :
    List.Forall₂ R i.prerequisites prerequisites →
      List.Forall₂ (PropertyDecl.Respelled R) i.properties properties →
      List.Forall₂ (FunctionDecl.Respelled R) i.methods methods →
      List.Forall₂ (SignalDecl.Respelled R) i.signals signals →
      List.Forall₂ (VFuncDecl.Respelled R) i.vfuncs vfuncs →
      List.Forall₂ (ConstantDecl.Respelled R) i.constants constants →
      Respelled R i { i with prerequisites, properties, methods, signals, vfuncs, constants }

inductive ErrorDomainDecl.Respelled (R : String → String → Prop) (d : ErrorDomainDecl) :
    ErrorDomainDecl → Prop
  | mk {codes : String} : R d.codes codes → Respelled R d { d with codes }

/-- The same node, but for the names by which it refers to entries. -/
inductive Node.Respelled (R : String → String → Prop) : Node → Node → Prop
  | function {f f' : FunctionDecl} : f.Respelled R f' → Respelled R (.function f) (.function f')
  | callback {c c' : CallbackDecl} : c.Respelled R c' → Respelled R (.callback c) (.callback c')
  | struct {s s' : StructDecl} : s.Respelled R s' → Respelled R (.struct s) (.struct s')
  | boxed {s s' : StructDecl} : s.Respelled R s' → Respelled R (.boxed s) (.boxed s')
  | union {u u' : UnionDecl} : u.Respelled R u' → Respelled R (.union u) (.union u')
  | enum (e : EnumDecl) : Respelled R (.enum e) (.enum e)
  | flags (e : EnumDecl) : Respelled R (.flags e) (.flags e)
  | object {o o' : ObjectDecl} : o.Respelled R o' → Respelled R (.object o) (.object o')
  | interface {i i' : InterfaceDecl} :
    i.Respelled R i' → Respelled R (.interface i) (.interface i')
  | errorDomain {d d' : ErrorDomainDecl} :
    d.Respelled R d' → Respelled R (.errorDomain d) (.errorDomain d')
  | constant {c c' : ConstantDecl} : c.Respelled R c' → Respelled R (.constant c) (.constant c')
  | field {f f' : FieldDecl} : f.Respelled R f' → Respelled R (.field f) (.field f')
  | property {p p' : PropertyDecl} : p.Respelled R p' → Respelled R (.property p) (.property p')
  | signal {s s' : SignalDecl} : s.Respelled R s' → Respelled R (.signal s) (.signal s')
  | vfunc {v v' : VFuncDecl} : v.Respelled R v' → Respelled R (.vfunc v) (.vfunc v')
  | param {p p' : ParamDecl} : p.Respelled R p' → Respelled R (.param p) (.param p')
  | value (v : ValueDecl) : Respelled R (.value v) (.value v)
  | type {t t' : Ty} : t.Respelled R t' → Respelled R (.type t) (.type t')

/-- The same description, but for the names by which its nodes refer to entries. -/
inductive Document.Respelled (R : String → String → Prop) (doc : Document) : Document → Prop
  | mk {nodes : List Node} :
    List.Forall₂ (Node.Respelled R) doc.nodes nodes → Respelled R doc { doc with nodes }

/-! ### Nothing respelled -/

section Refl

variable (hR : ∀ name, R name name)
include hR

theorem FieldDecl.Respelled.refl (f : FieldDecl) : f.Respelled R f := .mk (.refl hR _)

theorem PropertyDecl.Respelled.refl (p : PropertyDecl) : p.Respelled R p := .mk (.refl hR _)

theorem ConstantDecl.Respelled.refl (c : ConstantDecl) : c.Respelled R c := .mk (.refl hR _)

theorem ParamDecl.Respelled.refl (p : ParamDecl) : p.Respelled R p := .mk (.refl hR _)

theorem Signature.Respelled.refl (s : Signature) : s.Respelled R s :=
  .mk (option_rel_refl (fun _ => .mk (.refl hR _)) _)
    (list_rel_refl (ParamDecl.Respelled.refl hR) _)

theorem FunctionDecl.Respelled.refl (f : FunctionDecl) : f.Respelled R f := .mk (.refl hR _)

theorem SignalDecl.Respelled.refl (s : SignalDecl) : s.Respelled R s := .mk (.refl hR _)

theorem VFuncDecl.Respelled.refl (v : VFuncDecl) : v.Respelled R v := .mk (.refl hR _)

theorem Discriminator.Respelled.refl (d : Discriminator) : d.Respelled R d :=
  .mk (.refl hR _) (list_rel_refl (ConstantDecl.Respelled.refl hR) _)

theorem StructDecl.Respelled.refl (s : StructDecl) : s.Respelled R s :=
  .mk (list_rel_refl (FieldDecl.Respelled.refl hR) _) (list_rel_refl (FunctionDecl.Respelled.refl hR) _)

theorem UnionDecl.Respelled.refl (u : UnionDecl) : u.Respelled R u :=
  .mk (list_rel_refl (FieldDecl.Respelled.refl hR) _) (list_rel_refl (FunctionDecl.Respelled.refl hR) _)
    (option_rel_refl (Discriminator.Respelled.refl hR) _)

theorem ObjectDecl.Respelled.refl (o : ObjectDecl) : o.Respelled R o :=
  .mk (option_rel_refl hR _) (list_rel_refl hR _) (list_rel_refl (FieldDecl.Respelled.refl hR) _)
    (list_rel_refl (PropertyDecl.Respelled.refl hR) _) (list_rel_refl (FunctionDecl.Respelled.refl hR) _)
    (list_rel_refl (SignalDecl.Respelled.refl hR) _) (list_rel_refl (VFuncDecl.Respelled.refl hR) _)
    (list_rel_refl (ConstantDecl.Respelled.refl hR) _)

theorem InterfaceDecl.Respelled.refl (i : InterfaceDecl) : i.Respelled R i :=
  .mk (list_rel_refl hR _) (list_rel_refl (PropertyDecl.Respelled.refl hR) _)
    (list_rel_refl (FunctionDecl.Respelled.refl hR) _) (list_rel_refl (SignalDecl.Respelled.refl hR) _)
    (list_rel_refl (VFuncDecl.Respelled.refl hR) _) (list_rel_refl (ConstantDecl.Respelled.refl hR) _)

theorem Node.Respelled.refl (n : Node) : n.Respelled R n := by
  cases n with
  | function f => exact .function (.refl hR f)
  | callback c => exact .callback (.mk (.refl hR _))
  | struct s => exact .struct (.refl hR s)
  | boxed s => exact .boxed (.refl hR s)
  | union u => exact .union (.refl hR u)
  | enum e => exact .enum e
  | flags e => exact .flags e
  | object o => exact .object (.refl hR o)
  | interface i => exact .interface (.refl hR i)
  | errorDomain d => exact .errorDomain (.mk (hR _))
  | constant c => exact .constant (.refl hR c)
  | field f => exact .field (.refl hR f)
  | property p => exact .property (.refl hR p)
  | signal s => exact .signal (.refl hR s)
  | vfunc v => exact .vfunc (.refl hR v)
  | param p => exact .param (.refl hR p)
  | value v => exact .value v
  | type t => exact .type (.refl hR t)

end Refl

/-! ### What does not depend on names -/

theorem Signature.Respelled.params {s s' : Signature} (h : s.Respelled R s') :
    s'.params.length = s.params.length := by
  obtain ⟨-, hparams⟩ := h
  exact hparams.length_eq.symm

theorem Signature.Respelled.weight {s s' : Signature} (h : s.Respelled R s') :
    s'.weight = s.weight := by
  obtain ⟨result, params⟩ := s
  obtain @⟨result', params', hresult, hparams⟩ := h
  have hr : (result'.map fun r => r.type.weight) = result.map fun r => r.type.weight := by
    cases hresult with
    | none => rfl
    | some h =>
      obtain ⟨ht⟩ := h
      exact congrArg some ht.weight
  have hp : totalWeight (fun p => p.type.weight) params' =
      totalWeight (fun p => p.type.weight) params := by
    change List.Forall₂ _ params params' at hparams
    clear hresult hr
    induction hparams with
    | nil => rfl
    | cons h _ ih =>
      obtain ⟨ht⟩ := h
      rw [totalWeight, totalWeight, ih, ht.weight]
  rw [Signature.weight, Signature.weight, hr, hp]

theorem ConstantDecl.Respelled.encode {c c' : ConstantDecl} (h : c.Respelled R c') :
    c'.encode = c.encode := by
  obtain ⟨ht⟩ := h
  simp only [ConstantDecl.encode, ht.tag]

namespace Node.Respelled

variable {n n' : Node}

theorem name (h : n.Respelled R n') : n'.name = n.name := by
  cases h with
  | enum | flags | value | type => rfl
  | _ h => cases h; rfl

theorem entryKind? (h : n.Respelled R n') : n'.entryKind? = n.entryKind? := by cases h <;> rfl

theorem misplaced (h : n.Respelled R n') : n'.misplaced = n.misplaced := by
  have hkind : n'.kindName = n.kindName := by cases h <;> rfl
  rw [Node.misplaced, hkind, h.name, Node.misplaced]

end Node.Respelled

end Typelib
