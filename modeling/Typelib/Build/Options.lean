/-!
# Options of a build

Whether names of other namespaces are taken on trust.
-/

namespace Typelib

/-- How names are treated that no local entry has. -/
structure Options where
  /-- Such a name must lie in an included namespace. -/
  strict : Bool := false
  /-- The namespaces that may be referred to when `strict` is set. -/
  includes : List String := []
  deriving DecidableEq, Repr

/-- The options admit references into a namespace other than the one that is built. -/
def Options.admits (o : Options) (namespaceName : String) : Bool :=
  !o.strict || o.includes.contains namespaceName

end Typelib
