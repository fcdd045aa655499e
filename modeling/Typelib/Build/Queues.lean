import Typelib.Build.Error
import Typelib.Description.Member

/-!
# Bodies that wait to be written

Complex types, signatures and constant values are referred to before they are written. Each kind
waits in a queue of its own, first in, first out.

* `Fifo.toList_push`, `Fifo.toList_pop?`: the queue as a list.
-/

namespace Typelib

/-- A queue, as the items to be taken first, in order, and the items added last, in reverse. -/
structure Fifo (α : Type) where
  front : List α := []
  back : List α := []

namespace Fifo

variable {α : Type}

/-- The items, first in first. -/
def toList (q : Fifo α) : List α := q.front ++ q.back.reverse

def push (q : Fifo α) (a : α) : Fifo α := { q with back := a :: q.back }

/-- The first item and the queue without it. -/
def pop? (q : Fifo α) : Option (α × Fifo α) :=
  match q.front with
  | a :: front => some (a, { q with front })
  | [] =>
    match q.back.reverse with
    | a :: front => some (a, ⟨front, []⟩)
    | [] => none

def size (q : Fifo α) : Nat := q.front.length + q.back.length

theorem toList_push (q : Fifo α) (a : α) : (q.push a).toList = q.toList ++ [a] := by
  simp [toList, push]

theorem toList_pop? (q : Fifo α) :
    q.toList = match q.pop? with
      | some (a, rest) => a :: rest.toList
      | none => [] := by
  obtain ⟨front, back⟩ := q
  cases front with
  | cons a front => simp [toList, pop?]
  | nil => cases h : back.reverse <;> simp [toList, pop?, h]

end Fifo

/-- The bodies that wait to be written, each with the identity that it was promised. -/
structure Queues where
  types : Fifo (Ty × BodyId) := {}
  signatures : Fifo (Signature × BodyId) := {}
  constants : Fifo (ConstantDecl × BodyId) := {}
  /-- Numbers of types, signatures and constants that were ever added. -/
  pushed : Nat × Nat × Nat := (0, 0, 0)

namespace Queues

def pushType (q : Queues) (type : Ty) (id : BodyId) : Queues :=
  { q with types := q.types.push (type, id), pushed := (q.pushed.1 + 1, q.pushed.2) }

def pushSignature (q : Queues) (signature : Signature) (id : BodyId) : Queues :=
  { q with
    signatures := q.signatures.push (signature, id)
    pushed := (q.pushed.1, q.pushed.2.1 + 1, q.pushed.2.2) }

def pushConstant (q : Queues) (constant : ConstantDecl) (id : BodyId) : Queues :=
  { q with
    constants := q.constants.push (constant, id)
    pushed := (q.pushed.1, q.pushed.2.1, q.pushed.2.2 + 1) }

def popType? (q : Queues) : Option ((Ty × BodyId) × Queues) :=
  q.types.pop?.map fun (item, types) => (item, { q with types })

def popSignature? (q : Queues) : Option ((Signature × BodyId) × Queues) :=
  q.signatures.pop?.map fun (item, signatures) => (item, { q with signatures })

def popConstant? (q : Queues) : Option ((ConstantDecl × BodyId) × Queues) :=
  q.constants.pop?.map fun (item, constants) => (item, { q with constants })

/-- Number of bodies that wait. -/
def waiting (q : Queues) : Nat := q.types.size + q.signatures.size + q.constants.size

def isEmpty (q : Queues) : Bool := q.waiting == 0

end Queues

end Typelib
