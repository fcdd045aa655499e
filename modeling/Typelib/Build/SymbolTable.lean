import Typelib.Binary.Directory
import Typelib.Build.Options
import Typelib.Build.StringPool

/-!
# The directory of a file under construction

Local entries are registered first and take the first slots. A name that no local entry has is taken
for an entry of another namespace, which gets a slot of its own when it is first referred to.

* `SymbolTable.register`: a slot for a local entry;
* `SymbolTable.resolve`: the slot that a name stands for.

Both return the table also when they fail, since a failed operation may have used up an identity or
added strings to the pool.
-/

namespace Typelib

/-- A registered local entry. -/
structure Symbol where
  id : BodyId
  ref : DirRef
  deriving DecidableEq, Repr

/-- What a directory slot leads to. -/
inductive SlotTarget
  /-- A body of this file. -/
  | body (id : BodyId)
  /-- An entry of another namespace, whose name has this offset in the pool. -/
  | foreign (namespaceName : UInt32)
  deriving DecidableEq, Repr

/-- A directory slot, with pool offsets for strings. -/
structure Slot where
  kind : EntryKind
  name : UInt32
  target : SlotTarget
  deriving DecidableEq, Repr

def Slot.isLocal (s : Slot) : Bool :=
  match s.target with
  | .body _ => true
  | .foreign _ => false

/-- The names of a file under construction: its strings, its slots, and what stands for them. -/
structure SymbolTable where
  pool : StringPool
  namespaceName : String
  /-- Pool offset of the name of the namespace. -/
  namespaceOffset : UInt32
  slots : Array Slot := #[]
  locals : Std.TreeMap String Symbol := {}
  /-- The names of the local entries, in the order of their slots. -/
  localNames : Array String := #[]
  /-- The slots of entries of other namespaces, by qualified name. -/
  externals : Std.TreeMap String DirRef := {}
  /-- Number of identities handed out so far, of which only the low word is ever looked at. -/
  handedOut : Nat := 0

namespace SymbolTable

/-- The table of a namespace, with nothing in it. -/
def new (namespaceName : String) (pool : StringPool := {}) : SymbolTable :=
  let (namespaceOffset, pool) := pool.intern namespaceName
  { pool, namespaceName, namespaceOffset }

def localCount (t : SymbolTable) : Nat := t.localNames.size

def externalCount (t : SymbolTable) : Nat := t.slots.size - t.localCount

def intern (t : SymbolTable) (s : String) : UInt32 × SymbolTable :=
  let (offset, pool) := t.pool.intern s
  (offset, { t with pool })

/-- The identity that is handed out next. -/
def nextId (t : SymbolTable) : BodyId := .ofNat t.handedOut

/-- Number of identities handed out so far, unless there were too many for a word. -/
def allocated (t : SymbolTable) : Nat := t.nextId.toNat

/-- The next identity. It is a fresh one as long as there are fresh ones. -/
def allocate (t : SymbolTable) : BodyId × SymbolTable :=
  (t.nextId, { t with handedOut := t.handedOut + 1 })

/-- The identities follow one another as words do. -/
theorem nextId_allocate (t : SymbolTable) : t.allocate.2.nextId = t.nextId + 1 := by
  simp [nextId, allocate]

/-- One more slot, unless no reference could lead to it. -/
def pushSlot (t : SymbolTable) (slot : Slot) : Except BuildError DirRef × SymbolTable :=
  match DirRef.ofIndex? t.slots.size with
  | some ref => (.ok ref, { t with slots := t.slots.push slot })
  | none => (.error (.tooManyEntries (t.slots.size + 1)), t)

/-- The local entry with a name. -/
def lookup (t : SymbolTable) (name : String) : Option Symbol := t.locals[name]?

/-- A slot and an identity for a local entry. -/
def register (t : SymbolTable) (name : String) (kind : EntryKind) :
    Except BuildError Symbol × SymbolTable :=
  if t.locals.contains name then (.error (.duplicateEntry name), t)
  else if 0 < t.externalCount then (.error (.registeredLate name), t)
  else
    let (id, t) := t.allocate
    let (offset, t) := t.intern name
    match t.pushSlot ⟨kind, offset, .body id⟩ with
    | (.error e, t) => (.error e, t)
    | (.ok ref, t) =>
      (.ok ⟨id, ref⟩,
        { t with locals := t.locals.insert name ⟨id, ref⟩, localNames := t.localNames.push name })

/-- The parts of a name before and after its last dot. -/
def splitName (name : String) : Option (String × String) :=
  let cs := name.toList.reverse
  match cs.dropWhile (· != '.') with
  | [] => none
  | _ :: before =>
    some (String.ofList before.reverse, String.ofList (cs.takeWhile (· != '.')).reverse)

/-- What a name stands for. -/
inductive Meaning
  | entry (symbol : Symbol)
  | external (namespaceName symbol : String)
  deriving DecidableEq, Repr

/-- A local name stands for its entry, with or without the namespace in front of it. Any other name
stands for an entry of the namespace in front of its last dot, or of this one if it has no dot. -/
def meaning (t : SymbolTable) (name : String) : Meaning :=
  match t.lookup name with
  | some symbol => .entry symbol
  | none =>
    match splitName name with
    | none => .external t.namespaceName name
    | some (namespaceName, symbol) =>
      if namespaceName = t.namespaceName then
        match t.lookup symbol with
        | some symbol => .entry symbol
        | none => .external namespaceName symbol
      else .external namespaceName symbol

/-- The slot of an entry that is not local, which is added when it is first asked for. -/
def external (t : SymbolTable) (namespaceName symbol : String) :
    Except BuildError DirRef × SymbolTable :=
  let key := namespaceName ++ "." ++ symbol
  match t.externals[key]? with
  | some ref => (.ok ref, t)
  | none =>
    let (name, t) := t.intern symbol
    let (offset, t) := t.intern namespaceName
    match t.pushSlot ⟨.invalid, name, .foreign offset⟩ with
    | (.error e, t) => (.error e, t)
    | (.ok ref, t) => (.ok ref, { t with externals := t.externals.insert key ref })

/-- The slot that a name stands for. A name that is not local must be admitted by the options, and
no option admits one of this namespace if names are strict. -/
def resolve (t : SymbolTable) (options : Options) (name : String) :
    Except BuildError DirRef × SymbolTable :=
  match t.meaning name with
  | .entry symbol => (.ok symbol.ref, t)
  | .external namespaceName symbol =>
    if options.strict && (namespaceName == t.namespaceName || !options.admits namespaceName) then
      (.error (.unresolvedName name), t)
    else t.external namespaceName symbol

end SymbolTable

end Typelib
