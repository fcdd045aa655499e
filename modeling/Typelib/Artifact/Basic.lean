import Typelib.Binary.Word

/-!
# Artifacts

What building a document yields: the bytes of a file, with the name of the namespace that it
describes.
-/

namespace Typelib

/-- A file, with the name of its namespace. -/
structure Artifact where
  namespaceName : String
  bytes : Bytes
  deriving DecidableEq

namespace Artifact

def size (a : Artifact) : Nat := a.bytes.size

def isEmpty (a : Artifact) : Bool := a.bytes.isEmpty

end Artifact

end Typelib
