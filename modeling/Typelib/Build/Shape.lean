import Std.Data.TreeSet
import Typelib.Binary.Directory
import Typelib.Binary.TypeTag

/-!
# Shapes of types

The shape of a type is the type with directory slots for names. Two spellings of a type that name the
same entries have one shape, so shapes tell which types share a body.

* `Shape.text`: a shape as text, by which bodies are found again.
-/

namespace Typelib

/-- A type, with directory slots for names. -/
inductive Shape
  | scalar (kind : Scalar) (pointer : Bool)
  | interface (slot : DirRef) (pointer : Bool)
  | array (element : Shape) (zeroTerminated : Bool) (length : Option UInt16) (pointer : Bool)
  | list (element : Shape) (pointer : Bool)
  | slist (element : Shape) (pointer : Bool)
  | hash (key value : Shape) (pointer : Bool)
  /-- The domains are strictly increasing. -/
  | error (domains : List DirRef) (pointer : Bool)
  deriving DecidableEq, Repr

/-- References in increasing order, each once. -/
def DirRef.sorted (refs : List DirRef) : List DirRef :=
  (Std.TreeSet.ofList (refs.map DirRef.raw)).toList.map DirRef.mk

namespace Shape

def tag : Shape → TypeTag
  | scalar kind _ => .scalar kind
  | interface .. => .interface
  | array .. => .array
  | list .. => .list
  | slist .. => .slist
  | hash .. => .hash
  | error .. => .error

def pointer : Shape → Bool
  | scalar _ p | interface _ p | array _ _ _ p | list _ p | slist _ p | hash _ _ p | error _ p => p

/-- A shape as text. -/
def text : Shape → String
  | scalar kind p => kind.name ++ star p
  | interface slot p => "interface" ++ slot.text ++ star p
  | array element zeroTerminated length p =>
    "array" ++ (if zeroTerminated then "[zt]" else "") ++
      (match length with
        | some n => s!"[len={n.toNat}]"
        | none => "") ++ "(" ++ element.text ++ ")" ++ star p
  | list element p => "list(" ++ element.text ++ ")" ++ star p
  | slist element p => "slist(" ++ element.text ++ ")" ++ star p
  | hash key value p => "hash(" ++ key.text ++ "," ++ value.text ++ ")" ++ star p
  | error domains p => "error(" ++ ",".intercalate (domains.map DirRef.text) ++ ")" ++ star p
where
  star (pointer : Bool) : String := if pointer then "*" else ""

end Shape

end Typelib
