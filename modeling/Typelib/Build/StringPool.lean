import Std.Data.TreeMap
import Typelib.Build.Error
import Typelib.Text.Utf8

/-!
# The string pool

Every string of a file is stored once, with a zero byte behind it, in the order of first use. An
offset counts from the start of the pool; it is kept in 32 bits, and `StringPool.validate` refuses a
pool in which that could lose anything.
-/

namespace Typelib

/-- The bytes of a string, and a zero byte. -/
def nulTerminated (s : String) : List UInt8 := Text.toBytes s ++ [0]

/-- The largest number of a 32-bit word. -/
def maxWord32 : Nat := UInt32.size - 1

/-- The strings of a file under construction. -/
structure StringPool where
  offsets : Std.TreeMap String UInt32 := {}
  bytes : Array UInt8 := #[]

namespace StringPool

/-- The offset of a string, which is appended on first use. -/
def intern (p : StringPool) (s : String) : UInt32 × StringPool :=
  match p.offsets[s]? with
  | some offset => (offset, p)
  | none =>
    let offset := UInt32.ofNat p.bytes.size
    (offset, ⟨p.offsets.insert s offset, p.bytes ++ nulTerminated s⟩)

/-- The offset of a string that may be absent. -/
def internOpt (p : StringPool) : Option String → Option UInt32 × StringPool
  | none => (none, p)
  | some s =>
    let (offset, p) := p.intern s
    (some offset, p)

/-- The offset of a string that was interned. -/
def get? (p : StringPool) (s : String) : Option UInt32 := p.offsets[s]?

/-- Number of strings. -/
def count (p : StringPool) : Nat := p.offsets.size

/-- Refuses a pool whose offsets need more than 32 bits. -/
def validate (p : StringPool) : Except BuildError Unit :=
  if p.bytes.size ≤ maxWord32 then .ok () else .error (.tooLarge p.bytes.size)

end StringPool

end Typelib
