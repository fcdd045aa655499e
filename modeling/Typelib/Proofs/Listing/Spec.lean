import Typelib.Binary.Header
import Typelib.Image.Value
import Typelib.Proofs.Directory.Document
import Typelib.Text.Lines

/-!
# Descriptions as text

The text of a description, printed from the description alone: what its file says about it, without
the file. Only the length of the file has to be told.

* `Scope.entity`, `Scope.directory`: what names stand for, and the entries of the file in order;
* `Scope.typeText`, `Scope.callableText`: types and callables;
* `Scope.nodeLines`: the members of a node, group by group;
* `Document.listing`: the whole text.
-/

namespace Typelib

/-! ### Entries -/

/-- What a name stands for: a local entry or one of another namespace. -/
inductive Entity
  | entry (name : String)
  | foreign (namespaceName symbol : String)
  deriving DecidableEq, Repr

/-- Entries of other namespaces are shown with their namespace. -/
def Entity.text : Entity → String
  | entry name => Text.cut name
  | foreign ns symbol => Text.cut ns ++ "." ++ Text.cut symbol

namespace Listing

/-- The position of an entry, counted from one and filled up with zeros to the width of the largest. -/
def refText (total i : Nat) : String :=
  let digits := toString (i + 1)
  "#" ++ String.ofList (List.replicate ((toString (max total 1)).length - digits.length) '0') ++
    digits

/-- A word in a column of twelve. -/
def column (word : String) : String :=
  word ++ String.ofList (List.replicate (12 - word.length) ' ')

/-! ### Parts of lines -/

def starred (pointer : Bool) (base : String) : String := if pointer then base ++ "*" else base

def arrayText (element : String) (zeroTerminated : Bool) (length : Option UInt16) : String :=
  "array<" ++ element ++ ">" ++ (if zeroTerminated then "[zt]" else "") ++
    match length with
    | some n => s!"[len={n.toNat}]"
    | none => ""

def errorText (domains : List String) : String :=
  if domains.isEmpty then "error" else "error<" ++ ", ".intercalate domains ++ ">"

def directionText : Direction → String
  | .input => ""
  | .output => "out "
  | .inout => "inout "

/-- One letter for each way in which a property is used. -/
def modeText (p : PropertyDecl) : String :=
  (if p.readable then "r" else "") ++ (if p.writable then "w" else "") ++
    (if p.construct then "c" else "") ++ if p.constructOnly then "C" else ""

/-- The bytes of the value, shown by the type. -/
def valueText (c : ConstantDecl) : String :=
  match c.encode with
  | .ok bytes => Value.format (some c.type.tag) bytes
  | .error _ => ""

/-- The registered name of a type, with its function if there is one. -/
def gtypeLines : Option String → Option String → List String
  | some name, some init => ["  gtype " ++ Text.cut name ++ " (" ++ Text.cut init ++ ")"]
  | some name, none => ["  gtype " ++ Text.cut name]
  | none, _ => []

def valueLine (v : ValueDecl) : String :=
  "  value " ++ Text.cut v.name ++ " = " ++ toString v.value.toInt

end Listing

namespace Scope

open Listing

variable (s : Scope)

/-- A name stands for the local entry of that name, or else, without the namespace in front of it,
for a local entry; otherwise for an entry of the namespace in front of it, or of this one. -/
def entity (name : String) : Entity :=
  if name ∈ s.locals then .entry name
  else
    match SymbolTable.splitName name with
    | none => .foreign s.namespaceName name
    | some (ns, symbol) =>
      if ns = s.namespaceName ∧ symbol ∈ s.locals then .entry symbol else .foreign ns symbol

variable {s} in
/-- A bare name that is not local stands for an entry of this namespace. -/
theorem entity_of_bare {name : String} (hnone : name ∉ s.locals)
    (hsplit : SymbolTable.splitName name = none) :
    s.foreign? name = some (s.namespaceName, name) ∧
      s.entity name = .foreign s.namespaceName name := by
  simp only [foreign?, entity, if_neg hnone, hsplit, and_self]

variable {s} in
/-- A qualified name that is not local either way stands for what it says. -/
theorem entity_of_qualified {name ns symbol : String} (hnone : name ∉ s.locals)
    (hsplit : SymbolTable.splitName name = some (ns, symbol))
    (hnot : ¬ (ns = s.namespaceName ∧ symbol ∈ s.locals)) :
    s.foreign? name = some (ns, symbol) ∧ s.entity name = .foreign ns symbol := by
  simp only [foreign?, entity, if_neg hnone, hsplit, if_neg hnot, and_self]

/-- All entries: the local ones, and the others in the order in which they are first referred to. -/
def directory : List Entity :=
  s.locals.map .entry ++ (s.mentions s.names).map fun p => .foreign p.1 p.2

/-! ### Types and callables -/

/-- The entries that error domains stand for, each once, in the order of the directory. -/
def domainTexts (names : List String) : List String :=
  (s.directory.filter (· ∈ names.map s.entity)).map Entity.text

/-- A type, with a star for each pointer. -/
def typeText : Ty → String
  | .scalar kind p => starred p kind.name
  | .interface name p => starred p (s.entity name).text
  | .array element zeroTerminated length p =>
    starred p (arrayText (typeText element) zeroTerminated length)
  | .list element p => starred p ("list<" ++ typeText element ++ ">")
  | .slist element p => starred p ("slist<" ++ typeText element ++ ">")
  | .hash key value p => starred p ("hash<" ++ typeText key ++ ", " ++ typeText value ++ ">")
  | .error names p => starred p (errorText (s.domainTexts names))

def paramText (p : ParamDecl) : String :=
  directionText p.direction ++ Text.cut p.name ++ ": " ++ s.typeText p.type

/-- Nothing is returned as `void`. -/
def resultText : Option ReturnDecl → String
  | some r => s.typeText r.type
  | none => Scalar.void.name

def callableText (name : String) (signature : Signature) : String :=
  Text.cut name ++ "(" ++ ", ".intercalate (signature.params.map s.paramText) ++ ") -> " ++
    s.resultText signature.result

/-! ### Members -/

def fieldLine (f : FieldDecl) : String :=
  "  field " ++ Text.cut f.name ++ ": " ++ s.typeText f.type ++
    if f.bits = 0 then "" else s!" [bits={f.bits.toNat}]"

def propertyLine (p : PropertyDecl) : String :=
  "  property " ++ Text.cut p.name ++ ": " ++ s.typeText p.type ++ " [" ++ modeText p ++ "]"

def methodLine (f : FunctionDecl) : String := "  method " ++ s.callableText f.name f.signature

def signalLine (d : SignalDecl) : String := "  signal " ++ s.callableText d.name d.signature

def vfuncLine (v : VFuncDecl) : String := "  vfunc " ++ s.callableText v.name v.signature

def constantLine (c : ConstantDecl) : String :=
  "  const " ++ Text.cut c.name ++ ": " ++ s.typeText c.type ++ " = " ++ valueText c

def discriminatorLine (d : Discriminator) : String :=
  "  discriminator " ++ s.typeText d.type ++ " @ " ++ toString d.offset.toInt

/-- A line for each name of a list. -/
def linkLines (label : String) (names : List String) : List String :=
  names.map fun name => "  " ++ label ++ " " ++ (s.entity name).text

/-! ### Nodes -/

/-- The lines of a node, below its name. -/
def nodeLines : Node → List String
  | .function f => ["  symbol " ++ Text.cut f.symbol, "  fn " ++ s.callableText f.name f.signature]
  | .callback c => ["  fn " ++ s.callableText c.name c.signature]
  | .enum e | .flags e => gtypeLines e.gtypeName e.gtypeInit ++ e.values.map valueLine
  | .struct d | .boxed d =>
    gtypeLines d.gtypeName d.gtypeInit ++ d.fields.map s.fieldLine ++ d.methods.map s.methodLine
  | .union u =>
    gtypeLines u.gtypeName u.gtypeInit ++ u.fields.map s.fieldLine ++ u.methods.map s.methodLine ++
      u.discriminator.toList.map s.discriminatorLine ++ u.discriminators.map s.constantLine
  | .object o =>
    gtypeLines o.gtypeName o.gtypeInit ++ s.linkLines "parent" o.parent.toList ++
      s.linkLines "implements" o.interfaces ++ o.fields.map s.fieldLine ++
      o.properties.map s.propertyLine ++ o.methods.map s.methodLine ++ o.signals.map s.signalLine ++
      o.vfuncs.map s.vfuncLine ++ o.constants.map s.constantLine
  | .interface i =>
    gtypeLines i.gtypeName i.gtypeInit ++ s.linkLines "requires" i.prerequisites ++
      i.properties.map s.propertyLine ++ i.methods.map s.methodLine ++ i.signals.map s.signalLine ++
      i.vfuncs.map s.vfuncLine ++ i.constants.map s.constantLine
  | .constant c => [s.constantLine c]
  | .errorDomain d => ["  quark " ++ Text.cut d.getQuark, "  codes " ++ (s.entity d.codes).text]
  | _ => []

end Scope

/-! ### Whole descriptions -/

namespace Document

open Listing

variable (doc : Document) (options : Options)

/-- Number of lines of the directory. -/
def slotCount : Nat := doc.nodes.length + (doc.externals options).length

def headerLines (size : Nat) : List String :=
  ["[header]",
    "namespace " ++ Text.cut doc.namespaceName,
    "library   " ++ (doc.sharedLibrary.map Text.cut).getD "-",
    s!"version   {majorVersion.toNat}.{minorVersion.toNat}",
    s!"entries   {doc.slotCount options} ({doc.nodes.length} local)",
    s!"size      {size}"]

/-- A line for each node, and one for each entry of another namespace. -/
def directoryLines : List String :=
  "[directory]" ::
    ((doc.nodes.mapIdx fun i node =>
        refText (doc.slotCount options) i ++ " " ++ column node.kindName ++ " " ++
          Text.cut node.name) ++
      (doc.externals options).mapIdx fun j p =>
        refText (doc.slotCount options) (doc.nodes.length + j) ++ " " ++ column "extern" ++ " " ++
          (Entity.foreign p.1 p.2).text)

/-- The name of each node, and its members. -/
def entryLines : List String :=
  "[entries]" ::
    (doc.nodes.mapIdx fun i node =>
      (refText (doc.slotCount options) i ++ " " ++ node.kindName ++ " " ++ Text.cut node.name) ::
        (doc.scope options).nodeLines node).flatten

/-- The text of a description whose file has some length. -/
def listing (size : Nat) : String :=
  Text.ofLines (doc.headerLines options size ++ "" :: doc.directoryLines options ++
    "" :: doc.entryLines options)

end Document

end Typelib
