import Typelib.Binary.EntryKind
import Typelib.Description.Member

/-!
# Nodes of a description

A description is a list of nodes. Nodes of the entry kinds become directory entries; the member kinds
exist so that any part of a description can be handed around, and describe no entry of their own.

* `Node.entryKind?`: the kind of entry that a node describes;
* `Node.readers`: for each kind the reader of its other members.
-/

namespace Typelib

/-- A plain structure or a boxed type. -/
structure StructDecl where
  name : String
  deprecated : Bool := false
  gtypeName : Option String := none
  gtypeInit : Option String := none
  fields : List FieldDecl := []
  methods : List FunctionDecl := []
  deriving DecidableEq, Repr

/-- What tells the fields of a union apart: where the tag lives, its type, and a constant for each
field. -/
structure Discriminator where
  offset : Int32
  type : Ty
  values : List ConstantDecl := []
  deriving DecidableEq, Repr

structure UnionDecl where
  name : String
  deprecated : Bool := false
  gtypeName : Option String := none
  gtypeInit : Option String := none
  fields : List FieldDecl := []
  methods : List FunctionDecl := []
  discriminator : Option Discriminator := none
  deriving DecidableEq, Repr

/-- An enumeration or a set of flags. -/
structure EnumDecl where
  name : String
  deprecated : Bool := false
  gtypeName : Option String := none
  gtypeInit : Option String := none
  values : List ValueDecl := []
  deriving DecidableEq, Repr

structure ObjectDecl where
  name : String
  deprecated : Bool := false
  gtypeName : Option String := none
  gtypeInit : Option String := none
  parent : Option String := none
  interfaces : List String := []
  fields : List FieldDecl := []
  properties : List PropertyDecl := []
  methods : List FunctionDecl := []
  signals : List SignalDecl := []
  vfuncs : List VFuncDecl := []
  constants : List ConstantDecl := []
  deriving DecidableEq, Repr

structure InterfaceDecl where
  name : String
  deprecated : Bool := false
  gtypeName : Option String := none
  gtypeInit : Option String := none
  prerequisites : List String := []
  properties : List PropertyDecl := []
  methods : List FunctionDecl := []
  signals : List SignalDecl := []
  vfuncs : List VFuncDecl := []
  constants : List ConstantDecl := []
  deriving DecidableEq, Repr

structure ErrorDomainDecl where
  name : String
  deprecated : Bool := false
  /-- The function that returns the quark of the domain. -/
  getQuark : String
  /-- The enumeration of the error codes. -/
  codes : String
  deriving DecidableEq, Repr

/-- One node of a description. -/
inductive Node
  | function (decl : FunctionDecl)
  | callback (decl : CallbackDecl)
  | struct (decl : StructDecl)
  | boxed (decl : StructDecl)
  | union (decl : UnionDecl)
  | enum (decl : EnumDecl)
  | flags (decl : EnumDecl)
  | object (decl : ObjectDecl)
  | interface (decl : InterfaceDecl)
  | errorDomain (decl : ErrorDomainDecl)
  | constant (decl : ConstantDecl)
  | field (decl : FieldDecl)
  | property (decl : PropertyDecl)
  | signal (decl : SignalDecl)
  | vfunc (decl : VFuncDecl)
  | param (decl : ParamDecl)
  | value (decl : ValueDecl)
  | type (type : Ty)
  deriving DecidableEq, Repr

namespace Node

/-- The name of a node; types have none. -/
def name : Node → String
  | function d => d.name
  | callback d => d.name
  | struct d | boxed d => d.name
  | union d => d.name
  | enum d | flags d => d.name
  | object d => d.name
  | interface d => d.name
  | errorDomain d => d.name
  | constant d => d.name
  | field d => d.name
  | property d => d.name
  | signal d => d.name
  | vfunc d => d.name
  | param d => d.name
  | value d => d.name
  | type _ => ""

/-- The kind of a node, as it is written. -/
def kindName : Node → String
  | function _ => "function"
  | callback _ => "callback"
  | struct _ => "struct"
  | boxed _ => "boxed"
  | union _ => "union"
  | enum _ => "enum"
  | flags _ => "flags"
  | object _ => "object"
  | interface _ => "interface"
  | errorDomain _ => "error-domain"
  | constant _ => "constant"
  | field _ => "field"
  | property _ => "property"
  | signal _ => "signal"
  | vfunc _ => "vfunc"
  | param _ => "param"
  | value _ => "value"
  | type _ => "type"

/-- The kind of the entry that a node describes; the member kinds describe none. -/
def entryKind? : Node → Option EntryKind
  | function _ => some .function
  | callback _ => some .callback
  | struct _ => some .struct
  | boxed _ => some .boxed
  | union _ => some .union
  | enum _ => some .enum
  | flags _ => some .flags
  | object _ => some .object
  | interface _ => some .interface
  | errorDomain _ => some .errorDomain
  | constant _ => some .constant
  | field _ | property _ | signal _ | vfunc _ | param _ | value _ | type _ => none

end Node

/-! ### Reading -/

def StructDecl.ofJson? (j : Json) : Option StructDecl := do
  let fs ← j.fields? ["name", "deprecated", "gtype_name", "gtype_init", "fields", "methods"]
  return {
    name := ← Field.required fs "name" Json.string?
    deprecated := ← Field.flag fs "deprecated"
    gtypeName := ← Field.optional fs "gtype_name" Json.string?
    gtypeInit := ← Field.optional fs "gtype_init" Json.string?
    fields := ← Field.list fs "fields" FieldDecl.ofJson?
    methods := ← Field.list fs "methods" FunctionDecl.ofJson? }

def Discriminator.ofJson? (j : Json) : Option Discriminator := do
  let fs ← j.fields? ["offset", "type", "values"]
  return {
    offset := ← Field.required fs "offset" Json.int32?
    type := ← Field.required fs "type" Ty.ofJson?
    values := ← Field.list fs "values" ConstantDecl.ofJson? }

def UnionDecl.ofJson? (j : Json) : Option UnionDecl := do
  let fs ← j.fields?
    ["name", "deprecated", "gtype_name", "gtype_init", "fields", "methods", "discriminator"]
  return {
    name := ← Field.required fs "name" Json.string?
    deprecated := ← Field.flag fs "deprecated"
    gtypeName := ← Field.optional fs "gtype_name" Json.string?
    gtypeInit := ← Field.optional fs "gtype_init" Json.string?
    fields := ← Field.list fs "fields" FieldDecl.ofJson?
    methods := ← Field.list fs "methods" FunctionDecl.ofJson?
    discriminator := ← Field.optional fs "discriminator" Discriminator.ofJson? }

def EnumDecl.ofJson? (j : Json) : Option EnumDecl := do
  let fs ← j.fields? ["name", "deprecated", "gtype_name", "gtype_init", "values"]
  return {
    name := ← Field.required fs "name" Json.string?
    deprecated := ← Field.flag fs "deprecated"
    gtypeName := ← Field.optional fs "gtype_name" Json.string?
    gtypeInit := ← Field.optional fs "gtype_init" Json.string?
    values := ← Field.list fs "values" ValueDecl.ofJson? }

def ObjectDecl.ofJson? (j : Json) : Option ObjectDecl := do
  let fs ← j.fields? ["name", "deprecated", "gtype_name", "gtype_init", "parent", "interfaces",
    "fields", "properties", "methods", "signals", "vfuncs", "constants"]
  return {
    name := ← Field.required fs "name" Json.string?
    deprecated := ← Field.flag fs "deprecated"
    gtypeName := ← Field.optional fs "gtype_name" Json.string?
    gtypeInit := ← Field.optional fs "gtype_init" Json.string?
    parent := ← Field.optional fs "parent" Json.string?
    interfaces := ← Field.list fs "interfaces" Json.string?
    fields := ← Field.list fs "fields" FieldDecl.ofJson?
    properties := ← Field.list fs "properties" PropertyDecl.ofJson?
    methods := ← Field.list fs "methods" FunctionDecl.ofJson?
    signals := ← Field.list fs "signals" SignalDecl.ofJson?
    vfuncs := ← Field.list fs "vfuncs" VFuncDecl.ofJson?
    constants := ← Field.list fs "constants" ConstantDecl.ofJson? }

def InterfaceDecl.ofJson? (j : Json) : Option InterfaceDecl := do
  let fs ← j.fields? ["name", "deprecated", "gtype_name", "gtype_init", "prerequisites",
    "properties", "methods", "signals", "vfuncs", "constants"]
  return {
    name := ← Field.required fs "name" Json.string?
    deprecated := ← Field.flag fs "deprecated"
    gtypeName := ← Field.optional fs "gtype_name" Json.string?
    gtypeInit := ← Field.optional fs "gtype_init" Json.string?
    prerequisites := ← Field.list fs "prerequisites" Json.string?
    properties := ← Field.list fs "properties" PropertyDecl.ofJson?
    methods := ← Field.list fs "methods" FunctionDecl.ofJson?
    signals := ← Field.list fs "signals" SignalDecl.ofJson?
    vfuncs := ← Field.list fs "vfuncs" VFuncDecl.ofJson?
    constants := ← Field.list fs "constants" ConstantDecl.ofJson? }

def ErrorDomainDecl.ofJson? (j : Json) : Option ErrorDomainDecl := do
  let fs ← j.fields? ["name", "deprecated", "get_quark", "codes"]
  return {
    name := ← Field.required fs "name" Json.string?
    deprecated := ← Field.flag fs "deprecated"
    getQuark := ← Field.required fs "get_quark" Json.string?
    codes := ← Field.required fs "codes" Json.string? }

namespace Node

/-- The kinds of nodes, each with the reader of its other members. -/
def readers : List (String × (Json → Option Node)) :=
  [("function", fun j => (FunctionDecl.ofJson? j).map function),
    ("callback", fun j => (CallbackDecl.ofJson? j).map callback),
    ("struct", fun j => (StructDecl.ofJson? j).map struct),
    ("boxed", fun j => (StructDecl.ofJson? j).map boxed),
    ("union", fun j => (UnionDecl.ofJson? j).map union),
    ("enum", fun j => (EnumDecl.ofJson? j).map enum),
    ("flags", fun j => (EnumDecl.ofJson? j).map flags),
    ("object", fun j => (ObjectDecl.ofJson? j).map object),
    ("interface", fun j => (InterfaceDecl.ofJson? j).map interface),
    ("error-domain", fun j => (ErrorDomainDecl.ofJson? j).map errorDomain),
    ("constant", fun j => (ConstantDecl.ofJson? j).map constant),
    ("field", fun j => (FieldDecl.ofJson? j).map field),
    ("property", fun j => (PropertyDecl.ofJson? j).map property),
    ("signal", fun j => (SignalDecl.ofJson? j).map signal),
    ("vfunc", fun j => (VFuncDecl.ofJson? j).map vfunc),
    ("param", fun j => (ParamDecl.ofJson? j).map param),
    ("value", fun j => (ValueDecl.ofJson? j).map value),
    ("type", fun j => (Ty.ofJson? j).map type)]

end Node

end Typelib
