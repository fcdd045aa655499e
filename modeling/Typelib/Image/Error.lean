import Typelib.Text.Hex

/-!
# What can go wrong when a file is read

The causes for which a file is refused, or an answer from it, and the message of each.
-/

namespace Typelib

/-- Why a file, or a part of it, could not be read. -/
inductive ReadError
  | fileTooSmall (size : Nat)
  | invalidMagic
  | unsupportedVersion (major minor : UInt8)
  /-- The header and the file disagree on the length of the file. -/
  | sizeMismatch (recorded : UInt32) (actual : Nat)
  /-- Rows have another size than this version gives them. -/
  | rowSizeMismatch (kind : String) (expected found : UInt16)
  | directoryOutOfBounds (offset : UInt32) (entries : UInt16)
  /-- There are more local entries than entries. -/
  | localCountOverflow (localCount total : UInt16)
  | outOfBounds (offset : UInt32) (size : Nat)
  /-- There is no string at the offset. -/
  | invalidString (offset : UInt32)
  /-- The body of a type leads back to itself. -/
  | endlessType (offset : UInt32)
  deriving DecidableEq, Repr

def ReadError.message : ReadError → String
  | fileTooSmall size => s!"file too small: {size} bytes (minimum 96)"
  | invalidMagic => "invalid magic"
  | unsupportedVersion major minor =>
    s!"unsupported version: {major.toNat}.{minor.toNat} (expected 1.x)"
  | sizeMismatch recorded actual =>
    s!"size mismatch: header says {recorded.toNat} bytes, got {actual}"
  | rowSizeMismatch kind expected found =>
    s!"{kind} row size mismatch: expected {expected.toNat}, found {found.toNat}"
  | directoryOutOfBounds offset entries =>
    s!"directory of {entries.toNat} entries at 0x{Text.hexNumber offset.toNat} exceeds file"
  | localCountOverflow localCount total =>
    s!"{localCount.toNat} local entries but only {total.toNat} entries"
  | outOfBounds offset size =>
    s!"read of {size} bytes at 0x{Text.hexNumber offset.toNat} is out of bounds"
  | invalidString offset => s!"invalid string at 0x{Text.hexNumber offset.toNat}"
  | endlessType offset => s!"endless type at 0x{Text.hexNumber offset.toNat}"

end Typelib
