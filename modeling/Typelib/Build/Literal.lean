import Typelib.Binary.Word
import Typelib.Build.StringPool
import Typelib.Decimal.Literal
import Typelib.Description.Member
import Typelib.Text.Blank

/-!
# Values of constants

A constant is described by a text; its file holds a value of its type. Numbers are little-endian
words, booleans words of four bytes, and everything else is kept as text with a zero byte behind it.

* `ConstantDecl.encode`: the bytes of a constant.
-/

namespace Typelib

namespace Literal

/-- A whole number: digits with an optional sign. Only signed types know a minus. -/
def integer? (signed : Bool) (text : String) : Option Int :=
  let (negative, digits) := match text.toList with
    | '+' :: cs => (false, cs)
    | '-' :: cs => if signed then (true, cs) else (false, '-' :: cs)
    | cs => (false, cs)
  if digits.isEmpty || !digits.all Decimal.isDigit then none
  else
    let n : Int := Decimal.digitsValue digits
    some (if negative then -n else n)

/-- The bytes of a whole number, if it fits the given number of bytes. -/
def integerBytes? (signed : Bool) (width : Nat) (text : String) : Option (List UInt8) := do
  let n ← integer? signed text
  let span : Int := byteSpan width
  let lo := if signed then -(span / 2) else 0
  if lo ≤ n ∧ n < lo + span then some (leBytes width (n % span).toNat) else none

def boolean? (text : String) : Option Bool :=
  if text = "true" ∨ text = "TRUE" ∨ text = "1" then some true
  else if text = "false" ∨ text = "FALSE" ∨ text = "0" then some false
  else none

/-- The bytes of a literal of a scalar type. Strings keep the blanks around them. -/
def bytes? (kind : Scalar) (value : String) : Option (List UInt8) :=
  let text := Text.trim value
  match kind with
  | .boolean => (boolean? text).map fun b => leBytes 4 b.toNat
  | .int8 => integerBytes? true 1 text
  | .uint8 => integerBytes? false 1 text
  | .int16 => integerBytes? true 2 text
  | .uint16 => integerBytes? false 2 text
  | .int32 | .int => integerBytes? true 4 text
  | .uint32 | .uint => integerBytes? false 4 text
  | .int64 | .long | .ssize => integerBytes? true 8 text
  | .uint64 | .ulong | .size => integerBytes? false 8 text
  | .float => (Decimal.Format.single.ofLiteral? text).map (leBytes 4)
  | .double => (Decimal.Format.double.ofLiteral? text).map (leBytes 8)
  | .utf8 | .filename => some (nulTerminated value)
  | .void => some (nulTerminated text)

end Literal

/-- The bytes of the value of a constant. -/
def ConstantDecl.encode (c : ConstantDecl) : Except BuildError (List UInt8) :=
  match c.type.tag with
  | .scalar kind =>
    match Literal.bytes? kind c.value with
    | some bytes => .ok bytes
    | none => .error (.invalidConstant c.name c.type.tag c.value)
  | _ => .ok (nulTerminated (Text.trim c.value))

end Typelib
