import Typelib.Binary.TypeTag
import Typelib.Binary.Word
import Typelib.Decimal.Shortest
import Typelib.Text.Quoted
import Typelib.Text.Utf8

/-!
# Values of constants as text

The bytes of a constant, shown as a value of its type. A value that is too short for its type is shown
byte by byte.
-/

namespace Typelib.Value

/-- The number that a word of some bytes stands for in two's complement. -/
def signed (width n : Nat) : Int := if n < byteSpan width / 2 then n else n - (byteSpan width : Int)

/-- The bytes in brackets. -/
def byteList (bytes : List UInt8) : String :=
  "[" ++ ", ".intercalate (bytes.map Text.hexByte) ++ "]"

/-- The word in the first bytes, as text, if there are enough of them. -/
def word? (width : Nat) (text : Nat → String) (bytes : List UInt8) : Option String :=
  if bytes.length < width then none else some (text (leNat (bytes.take width)))

/-- The bytes up to the first zero byte, as text. -/
def text (bytes : List UInt8) : String := Text.ofBytes (bytes.takeWhile (· != 0))

/-- A value of a scalar type. -/
def scalar? (kind : Scalar) (bytes : List UInt8) : Option String :=
  let signedText (width : Nat) := word? width (fun n => toString (signed width n)) bytes
  let unsignedText (width : Nat) := word? width (fun n => toString n) bytes
  match kind with
  | .boolean => word? 4 (fun n => if n = 0 then "false" else "true") bytes
  | .int8 => signedText 1
  | .uint8 => unsignedText 1
  | .int16 => signedText 2
  | .uint16 => unsignedText 2
  | .int32 | .int => signedText 4
  | .uint32 | .uint => unsignedText 4
  | .int64 | .long | .ssize => signedText 8
  | .uint64 | .ulong | .size => unsignedText 8
  | .float => word? 4 Decimal.Format.single.text bytes
  | .double => word? 8 Decimal.Format.double.text bytes
  | .utf8 | .filename => some (Text.quoted (text bytes))
  | .void => some (text bytes)

/-- A value of a type with a given tag, which may be unknown. -/
def format (tag : Option TypeTag) (bytes : List UInt8) : String :=
  match tag with
  | some (.scalar kind) => (scalar? kind bytes).getD (byteList bytes)
  | _ => text bytes

end Typelib.Value
