import Typelib.Text.Hex
import Typelib.Text.Utf8

/-!
# Names, strings, comments and bytes in C

How a text that may hold any character is put into C source.

* `literal`: a string literal that stands for the bytes of a text;
* `identifier`: a name made from a text;
* `comment`: a comment that holds a text;
* `byte`: a byte as a number.
-/

namespace Typelib.CSource

/-! ### String literals -/

/-- The digit for a number below eight. -/
def octalDigit (n : Nat) : Char := Char.ofNat (48 + n % 8)

/-- A backslash and three octal digits: as many as an escape can have, so that no digit after it is
taken for a part of it. -/
def octalEscape (b : UInt8) : List Char :=
  ['\\', octalDigit (b.toNat / 64), octalDigit (b.toNat / 8), octalDigit b.toNat]

/-- A byte between the quotes of a string literal. A question mark is escaped since two of them may
begin a trigraph. -/
def escape (b : UInt8) : List Char :=
  let c := Char.ofNat b.toNat
  if c = '"' ∨ c = '\\' ∨ c = '?' then ['\\', c]
  else if ' ' ≤ c ∧ c ≤ '~' then [c]
  else octalEscape b

/-- The characters of a string literal for bytes. -/
def literalChars (bytes : List UInt8) : List Char := '"' :: bytes.flatMap escape ++ ['"']

/-- The string literal for the bytes of a text. -/
def literal (s : String) : String := String.ofList (literalChars (Text.toBytes s))

/-! ### Identifiers -/

/-- A character of an identifier: other characters than ASCII letters and digits become underscores. -/
def identifierChar (c : Char) : Char := if c.isAlphanum then c.toLower else '_'

/-- The characters of an identifier. None begins with a digit or is empty. -/
def identifierChars (cs : List Char) : List Char :=
  match cs.map identifierChar with
  | [] => ['_']
  | c :: rest => if c.isDigit then '_' :: c :: rest else c :: rest

def identifier (s : String) : String := String.ofList (identifierChars s.toList)

/-! ### Comments -/

/-- A text without the pair of characters that ends a comment: a space is put between them. -/
def commentChars : List Char → List Char
  | '*' :: '/' :: rest => '*' :: ' ' :: '/' :: commentChars rest
  | c :: rest => c :: commentChars rest
  | [] => []

def comment (s : String) : String := "/* " ++ String.ofList (commentChars s.toList) ++ " */"

/-! ### Bytes -/

/-- A byte as a hexadecimal number. -/
def byte (b : UInt8) : String := "0x" ++ Text.hexByte b

end Typelib.CSource
