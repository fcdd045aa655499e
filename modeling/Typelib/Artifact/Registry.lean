import Typelib.Artifact.Basic

/-!
# Registries of loaded namespaces

A running program keeps the files that it has loaded in a registry, by namespace. A `Registry` is how
its state changes; an artifact is loaded into it, removed from it, or held in it while it is used.
-/

namespace Typelib

/-- A registry with states `σ` that may refuse a file with an `ε`. -/
structure Registry (σ ε : Type) where
  register : (namespaceName : String) → Bytes → σ → Except ε Unit × σ
  unregister : (namespaceName : String) → σ → σ

namespace Artifact

variable {σ ε α : Type} (a : Artifact) (r : Registry σ ε)

/-- Registers the file under its namespace. -/
def load (s : σ) : Except ε Unit × σ := r.register a.namespaceName a.bytes s

/-- Removes the namespace. -/
def unload (s : σ) : σ := r.unregister a.namespaceName s

/-- Looks at the registry while the file is in it. Nothing is removed if the file is refused. -/
def whileLoaded (look : σ → α) (s : σ) : Except ε α × σ :=
  match a.load r s with
  | (.error e, s) => (.error e, s)
  | (.ok _, s) => (.ok (look s), a.unload r s)

end Artifact

end Typelib
