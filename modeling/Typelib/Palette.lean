/-!
# Colours of printed text

A `Palette` holds what is written before and after the parts of a text that stand out. The plain
palette writes nothing.
-/

namespace Typelib

/-- What is written around coloured parts. -/
structure Palette where
  /-- Before the heading of a section. -/
  heading : String
  /-- Before a name. -/
  name : String
  /-- Before what stands back. -/
  dim : String
  /-- After each of them. -/
  reset : String
  deriving DecidableEq, Repr

namespace Palette

def plain : Palette := ⟨"", "", "", ""⟩

/-- Terminal colours. -/
def terminal : Palette := ⟨"\x1b[34m", "\x1b[32m", "\x1b[2m", "\x1b[0m"⟩

/-- The palette of a terminal or of a plain file. -/
def ofBool (colored : Bool) : Palette := if colored then terminal else plain

/-- The palette writes anything. -/
def isColored (p : Palette) : Bool := !p.heading.isEmpty

end Palette

end Typelib
