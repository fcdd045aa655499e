import Typelib.Build.Layout

/-!
# Writing bodies

All entries are registered before the first body is written, so that entries may refer to later ones.
After each entry the bodies that it promised are written, and those that these promise in turn:
complex types first, then signatures, then constant values.

* `Build.document`: everything that a description calls for.
-/

namespace Typelib

/-- Number of parts of a type. It bounds the bodies that writing the type can call for. -/
def Ty.weight : Ty → Nat
  | .scalar .. | .interface .. | .error .. => 1
  | .array element _ _ _ => element.weight + 1
  | .list element _ => element.weight + 1
  | .slist element _ => element.weight + 1
  | .hash key value _ => key.weight + value.weight + 1

/-- The weight of a list, if each member has one. -/
def totalWeight {α : Type} (weight : α → Nat) : List α → Nat
  | [] => 0
  | a :: as => weight a + totalWeight weight as

/-- Number of parts of the types of a signature, and one for itself. -/
def Signature.weight (s : Signature) : Nat :=
  1 + (s.result.map fun r => r.type.weight).getD 0 + totalWeight (fun p => p.type.weight) s.params

/-- A bound on the number of bodies that can still be called for. -/
def Queues.weight (q : Queues) : Nat :=
  totalWeight (fun item => item.1.weight) q.types.toList +
    totalWeight (fun item => item.1.weight) q.signatures.toList + q.constants.size

namespace Build

/-- Directory slots for nodes. -/
def register : List Node → Build Unit
  | [] => pure ()
  | node :: nodes => do
    match node.entryKind? with
    | none => throw node.misplaced
    | some kind =>
      let _ ← onSymbols fun _ t => t.register node.name kind
      register nodes

/-- The body of a registered node. -/
def entry (node : Node) : Build Unit := do
  match (← get).symbols.lookup node.name with
  | none => throw (.notRegistered node.name)
  | some symbol =>
    let _ ← start symbol.id
    cells node.cells

/-- The body of a complex type. -/
def complexBody (type : Ty) (id : BodyId) : Build Unit := do
  let _ ← start id
  cells type.cells

/-- The body of a signature. -/
def signatureBody (signature : Signature) (id : BodyId) : Build Unit := do
  if maxCount < signature.params.length then
    throw (.tooManyMembers "signature" "arguments" signature.params.length)
  else
    let _ ← start id
    cells signature.cells

/-- The value of a constant. -/
def constantBody (constant : ConstantDecl) (id : BodyId) : Build Unit := do
  match constant.encode with
  | .error e => throw e
  | .ok bytes =>
    let _ ← start id
    cell (.raw bytes)

/-- Writes the next body that waits, if there is one. -/
def next : Build Bool := do
  let queues := (← get).queues
  match queues.popType? with
  | some ((type, id), queues) =>
    onQueues fun _ => queues
    complexBody type id
    return true
  | none =>
    match queues.popSignature? with
    | some ((signature, id), queues) =>
      onQueues fun _ => queues
      signatureBody signature id
      return true
    | none =>
      match queues.popConstant? with
      | some ((constant, id), queues) =>
        onQueues fun _ => queues
        constantBody constant id
        return true
      | none => return false

/-- Writes bodies until none waits, at most as many as the fuel; tells how many were written on top of
`done`. -/
def drainLoop : Nat → Nat → Build Nat
  | 0, done => pure done
  | fuel + 1, done => do
    if ← next then drainLoop fuel (done + 1) else pure done

/-- Writes bodies until none waits, and tells how many. -/
def drain : Build Nat := do
  drainLoop (← get).queues.weight 0

/-- Each entry, and all that it calls for. -/
def entries : List Node → Build Unit
  | [] => pure ()
  | node :: nodes => do
    entry node
    let _ ← drain
    entries nodes

/-- Everything that a description calls for. -/
def document (nodes : List Node) : Build Unit := do
  register nodes
  entries nodes

end Build

end Typelib
