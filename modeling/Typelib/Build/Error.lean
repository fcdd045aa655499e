import Typelib.Binary.TypeTag
import Typelib.Text.Hex

/-!
# What can go wrong when a file is built

The causes of failure and the message of each. Most of them blame the description. The last group
blames the sequence of operations on a draft: `BuildError.isInternal` tells them apart.
-/

namespace Typelib

/-- The identity of a body. Identities are handed out in order, and the last word is followed by the
first one again. -/
abbrev BodyId := UInt32

/-- Why a file could not be built. -/
inductive BuildError
  /-- A node that describes no entry stands among the entries. -/
  | unexpectedNode (kind name : String)
  /-- Two entries have one name. -/
  | duplicateEntry (name : String)
  /-- A member of an entry refers to another one that is not there. -/
  | unknownMember (owner kind name : String)
  /-- The value of a constant is none of its type. -/
  | invalidConstant (name : String) (type : TypeTag) (value : String)
  /-- An enumeration value fits neither a signed nor an unsigned word. -/
  | valueOutOfRange (owner name : String) (value : Int)
  /-- A name is neither local nor in an included namespace, though it must be. -/
  | unresolvedName (name : String)
  /-- The directory is full. -/
  | tooManyEntries (count : Nat)
  /-- An entry has more members of one kind than can be counted. -/
  | tooManyMembers (owner kind : String) (count : Nat)
  /-- The file is too long for its offsets. -/
  | tooLarge (size : Nat)
  /-- The bytes could not be handed on. -/
  | sink (reason : String)
  /-- An entry was written that has no directory slot. -/
  | notRegistered (name : String)
  /-- A local slot was asked for after the slots of other namespaces began. -/
  | registeredLate (name : String)
  /-- Bodies are still waiting to be written. -/
  | bodiesWaiting (count : Nat)
  /-- Not every body that was promised was written. -/
  | bodiesMissing (written promised : Nat)
  /-- A reference leads to a body that was not written. -/
  | danglingReference (id : BodyId)
  /-- A type that needs no body was to be given one. -/
  | notComplex (tag : TypeTag)
  /-- A body was begun a second time. -/
  | writtenTwice (id : BodyId) (start : Nat)
  deriving DecidableEq, Repr

namespace BuildError

/-- The draft was misused: no description causes the error by itself. -/
def isInternal : BuildError → Bool
  | notRegistered _ | registeredLate _ | bodiesWaiting _ | bodiesMissing .. | danglingReference _
  | notComplex _ => true
  | _ => false

def message : BuildError → String
  | unexpectedNode kind name => s!"unexpected {kind} node `{name}` at namespace level"
  | duplicateEntry name => s!"duplicate entry `{name}`"
  | unknownMember owner kind name => s!"`{owner}` has no {kind} named `{name}`"
  | invalidConstant name type value =>
    s!"constant `{name}`: invalid {type.name} literal `{value}`"
  | valueOutOfRange owner name value => s!"`{owner}` value `{name}` out of range: {value}"
  | unresolvedName name => s!"unresolved name `{name}`"
  | tooManyEntries count => s!"too many directory entries: {count} (max 65535)"
  | tooManyMembers owner kind count => s!"`{owner}` has too many {kind}: {count} (max 65535)"
  | tooLarge size => s!"typelib too large: {size} bytes"
  | sink reason => s!"io error: {reason}"
  | notRegistered name => s!"internal error: entry `{name}` written before registration"
  | registeredLate name =>
    s!"internal error: local `{name}` registered after external entries were created"
  | bodiesWaiting count => s!"internal error: {count} deferred bodies left at assembly"
  | bodiesMissing written promised =>
    s!"internal error: {written} bodies written for {promised} allocated entries"
  | danglingReference id => s!"internal error: dangling reference to E{id}"
  | notComplex tag => s!"internal error: {tag.name} queued as a complex type"
  | writtenTwice id start =>
    s!"body E{id} written twice (first at +0x{Text.hexNumber start})"

end BuildError

end Typelib
