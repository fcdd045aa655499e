import Typelib.Description.Node
import Typelib.Json.Meaning

/-!
# Reading descriptions

A document describes one namespace: its name, its shared library and its nodes. It is refused with
the first problem that is met while it is read from front to back; so a name of the wrong type wins
over a bracket that is missing further on.

Within a node order matters less: a node is read whole before its members are looked at. Only its
kind is looked at when it is met.

* `Document.ofText`, `Node.listOfText`: readers of texts.
-/

namespace Typelib

/-- A namespace, as it is described. -/
structure Document where
  namespaceName : String
  sharedLibrary : Option String := none
  nodes : List Node := []
  deriving DecidableEq, Repr

/-! ### Nodes -/

namespace Node

/-- The reader for a kind. -/
def reader (kind : Json) : Except Fault (Json → Option Node) :=
  kind.meant fun
    | .string s => readers.lookup s
    | _ => none

/-- The members of a node from here on; the reader and the members met so far come with them, the
latter last first. -/
def ofMembers (cut : Option Fault) :
    Option (Json → Option Node) → Json.Fields → Json.Fields → Except Fault Node
  | found, acc, [] => do
    match ← Json.unlessCut cut found with
    | some content => (Json.object acc.reverse none).meant content
    | none => .error .mismatched
  | found, acc, (key, j) :: members =>
    if key = "kind" then
      match found with
      | some _ => .error .mismatched
      | none => do
        let content ← reader j
        ofMembers cut (some content) acc members
    else do
      let j ← j.whole
      ofMembers cut found ((key, j) :: acc) members

/-- A node, written as an object or as a list that begins with the kind. -/
def ofJson : Json → Except Fault Node
  | .broken fault => .error fault
  | .object members cut => ofMembers cut none [] members
  | .array [] cut => Json.unlessCut cut () >>= fun _ => .error .mismatched
  | .array (kind :: items) cut => do
    let content ← reader kind
    let j ← (Json.array items cut).whole
    j.meant content
  | _ => .error .mismatched

/-- The nodes of a text. -/
def listOfText : String → Except Fault (List Node) :=
  Json.ofText Json.keepAll (Json.meantList ofJson)

end Node

/-! ### Documents -/

namespace Document

/-- The members of a document. -/
def known : List String := ["namespace", "shared_library", "nodes"]

/-- What was read of a document. -/
structure Partial where
  name : Option String := none
  library : Option (Option String) := none
  nodes : Option (List Node) := none

namespace Partial

/-- One more member. -/
def add (p : Partial) (key : String) (value : Json) : Except Fault Partial :=
  if key = "namespace" then
    if p.name.isSome then .error .mismatched
    else do
      let name ← value.meant Json.string?
      .ok { p with name := some name }
  else if key = "shared_library" then
    if p.library.isSome then .error .mismatched
    else do
      let library ← value.meant (Json.nullable? Json.string?)
      .ok { p with library := some library }
  else if key = "nodes" then
    if p.nodes.isSome then .error .mismatched
    else do
      let nodes ← Json.meantList Node.ofJson value
      .ok { p with nodes := some nodes }
  else .ok p

/-- The document, which must have a name. -/
def finish (p : Partial) : Except Fault Document :=
  match p.name with
  | some name => .ok ⟨name, p.library.getD none, p.nodes.getD []⟩
  | none => .error .mismatched

end Partial

/-- A document, written as an object or as a list of its members. Whatever follows a full list
makes it malformed. -/
def ofJson : Json → Except Fault Document
  | .broken fault => .error fault
  | .object members cut => do
    let p ← members.foldlM (fun (p : Partial) (key, value) => p.add key value) {}
    (← Json.unlessCut cut p).finish
  | .array items cut => do
    let p ← (known.zip items).foldlM (fun (p : Partial) (key, value) => p.add key value) {}
    if known.length < items.length then .error .malformed
    else (← Json.unlessCut cut p).finish
  | _ => .error .mismatched

/-- The document of a text. -/
def ofText : String → Except Fault Document := Json.ofText known.contains ofJson

/-- The first node with a name. -/
def get? (d : Document) (name : String) : Option Node := d.nodes.find? fun node => node.name == name

end Document

end Typelib
