import Typelib.Proofs.Build.Promise

/-!
# Logs of runs

A draft may be put to use in any order: names are resolved, types are asked for, entries are
written, the queues are drained, and a step that fails ends nothing but itself. The log of such a
run notes each use of a complex type, also of those inside the bodies that are written on the way,
and each body that is begun.

* `Operation`: what can be asked of a draft;
* `Operation.after`, `Operation.log`: the draft that a run leaves, and what is noted of the run.
-/

namespace Typelib

/-- What is noted of a run. -/
inductive Event
  /-- A complex type was given a body. It is fresh if something was queued to get it written. -/
  | used (type : Ty) (body : BodyId) (fresh : Bool)
  | begun (body : BodyId)
  deriving DecidableEq, Repr

/-- What is noted of a step, by the draft on which it runs. -/
abbrev Log := Draft → List Event

namespace Log

def none : Log := fun _ => []

/-- What is noted of a step and of the rest, which runs if the step succeeds. -/
def andThen {α : Type} (log : Log) (x : Build α) (rest : α → Log) : Log := fun d =>
  log d ++ match x.outcome d with
    | (.ok a, d') => rest a d'
    | (.error _, _) => []

end Log

namespace Build

def typeUseLog (type : Ty) : Log := fun d =>
  match (typeUse type).outcome d with
  | (.ok (.complex _ _ id), d') => [.used type id (d.queues.pushed.1 < d'.queues.pushed.1)]
  | _ => []

def startLog (id : BodyId) : Log := fun d =>
  match d.body.startOf? id with
  | none => [.begun id]
  | some _ => []

def cellLog : Cell → Log
  | .type type => typeUseLog type
  | _ => Log.none

def cellsLog : List Cell → Log
  | [] => Log.none
  | c :: cs => (cellLog c).andThen (cell c) fun _ => cellsLog cs

def bodyLog (id : BodyId) (cs : List Cell) : Log :=
  (startLog id).andThen (start id) fun _ => cellsLog cs

def entryLog (node : Node) : Log := fun d =>
  match d.symbols.lookup node.name with
  | none => []
  | some symbol => bodyLog symbol.id node.cells d

def signatureBodyLog (signature : Signature) (id : BodyId) : Log :=
  if maxCount < signature.params.length then Log.none else bodyLog id signature.cells

def constantBodyLog (constant : ConstantDecl) (id : BodyId) : Log :=
  match constant.encode with
  | .error _ => Log.none
  | .ok _ => startLog id

def nextLog : Log := fun d =>
  match d.queues.popType? with
  | some ((type, id), queues) => bodyLog id type.cells { d with queues }
  | none =>
    match d.queues.popSignature? with
    | some ((signature, id), queues) => signatureBodyLog signature id { d with queues }
    | none =>
      match d.queues.popConstant? with
      | some ((constant, id), queues) => constantBodyLog constant id { d with queues }
      | none => []

def drainLoopLog : Nat → Log
  | 0 => Log.none
  | fuel + 1 => nextLog.andThen next fun more => if more then drainLoopLog fuel else Log.none

def drainLog : Log := fun d => drainLoopLog d.queues.weight d

def entriesLog : List Node → Log
  | [] => Log.none
  | node :: nodes =>
    (entryLog node).andThen (entry node) fun _ => drainLog.andThen drain fun _ => entriesLog nodes

end Build

/-- What can be asked of a draft. -/
inductive Operation
  | register (nodes : List Node)
  | entry (node : Node)
  /-- One body that waits is written. -/
  | next
  | drain
  | document (nodes : List Node)
  | typeUse (type : Ty)
  | shape (type : Ty)
  | resolve (name : String)
  | intern (s : String)
  | allocate
  /-- Parts of a body are written. -/
  | cells (cs : List Cell)

namespace Operation

/-- The operation gives slots to local entries. -/
def registers : Operation → Bool
  | register _ | document _ => true
  | _ => false

/-- The operation as a step on a draft, whatever it yields. -/
def run : Operation → Build Unit
  | register nodes => Build.register nodes
  | entry node => Build.entry node
  | next => do let _ ← Build.next
  | drain => do let _ ← Build.drain
  | document nodes => Build.document nodes
  | typeUse type => do let _ ← Build.typeUse type
  | shape type => do let _ ← Build.shape type
  | resolve name => do let _ ← Build.resolve name
  | intern s => do let _ ← Build.intern s
  | allocate => do let _ ← Build.allocate
  | cells cs => Build.cells cs

/-- What is noted of an operation. -/
def noted : Operation → Log
  | entry node => Build.entryLog node
  | next => Build.nextLog
  | drain => Build.drainLog
  | document nodes => Log.none.andThen (Build.register nodes) fun _ => Build.entriesLog nodes
  | typeUse type => Build.typeUseLog type
  | cells cs => Build.cellsLog cs
  | _ => Log.none

/-- The draft after operations, whether they succeed or not. -/
def after : List Operation → Draft → Draft
  | [], d => d
  | op :: ops, d => after ops (op.run.after d)

/-- The log of operations. -/
def log : List Operation → Log
  | [], _ => []
  | op :: ops, d => op.noted d ++ log ops (op.run.after d)

end Operation

end Typelib
