import Typelib.Proofs.Reading.Document
import Typelib.Proofs.Symbols.Registered

/-!
# Names of the entries of a namespace

The name of a local entry is resolved to its own slot, whatever the options and whatever was asked
of the draft before, since no slot and no name is ever taken back. So is the name with the namespace
in front of it, unless another local entry has that name, or the name has a dot of its own and is
taken apart there.

* `SymbolTable.resolve_local`, `SymbolTable.resolve_qualified`: bare and qualified names;
* `resolve_own_name`: the entries of a description.
-/

namespace Typelib

namespace SymbolTable

variable {t : SymbolTable} {name : String} {s : Symbol}

/-- A local name is resolved to its own slot. -/
theorem resolve_local (hs : t.lookup name = some s) (options : Options) :
    t.resolve options name = (.ok s.ref, t) := by
  have hm : t.meaning name = .entry s := meaning_eq_entry.2 (.inl hs)
  simp only [resolve, hm]

/-- A qualified name that is no local name itself is resolved to the slot of its symbol. -/
theorem resolve_qualified (hs : t.lookup name = some s) (hd : '.' ∉ name.toList)
    (hnone : t.lookup (t.namespaceName ++ "." ++ name) = none) (options : Options) :
    t.resolve options (t.namespaceName ++ "." ++ name) = (.ok s.ref, t) := by
  have hm : t.meaning (t.namespaceName ++ "." ++ name) = .entry s :=
    meaning_eq_entry.2 (.inr ⟨hnone, name, hd, rfl, hs⟩)
  simp only [resolve, hm]

/-- A local entry has no slot of another namespace. -/
theorem Meant.not_external (h : t.Meant) (hsound : t.Sound) (hv : t.pool.bytes.size < UInt32.size)
    (hs : t.lookup name = some s) (i : Nat) : ¬ t.External i t.namespaceName name := by
  intro hx
  have hmax : maxWord32 = UInt32.size - 1 := rfl
  obtain ⟨-, hd, ref, -, hk⟩ := hsound.external_of_slot (by omega) hx
  rw [h.lookup_eq_none hd hk] at hs
  cases hs

end SymbolTable

/-- **Names of an entry lead to its own slot.** Once the entries of a description are registered,
the name of each is resolved to the slot of this entry, under any options and after anything else,
more registrations among it. So is the name with the namespace in front of it, if the name has no dot
and no other node is called so that has a slot by then. And the namespace and the name are never those
of a slot of another namespace. -/
theorem resolve_own_name {ns : String} {sharedLibrary : Option String} {options : Options}
    {nodes : List Node} {d : Draft}
    (h : (Build.register nodes).Yields (.new ns sharedLibrary options) () d) (ops : List Operation)
    {i : Nat} {node : Node} (hi : nodes[i]? = some node) (asked : Options) :
    let t := (Operation.after ops d).symbols
    ∃ ref slot, DirRef.ofIndex? i = some ref ∧ t.slots[i]? = some slot ∧ slot.isLocal = true ∧
      node.entryKind? = some slot.kind ∧ t.pool.get? node.name = some slot.name ∧
      t.resolve asked node.name = (.ok ref, t) ∧
      ('.' ∉ node.name.toList →
        (∀ other ∈ nodes ++ Operation.registered ops d, other.name ≠ ns ++ "." ++ node.name) →
        t.resolve asked (ns ++ "." ++ node.name) = (.ok ref, t)) ∧
      (t.pool.bytes.size < UInt32.size → ∀ j, ¬ t.External j ns node.name) := by
  intro t
  obtain ⟨hd, ht⟩ := Build.registered_register (Draft.registered_new ns sharedLibrary options)
    (Draft.titled_new ns sharedLibrary options) h
  rw [List.nil_append] at hd
  obtain ⟨kind, offset, ref, hkind, href, hs, hslot, hname⟩ := hd.lookup hi
  -- whatever is asked of the draft, the entry keeps its name and its slot
  have hgains : d.symbols.Gains t := Operation.gains_after ops d
  have hlocal : t.lookup node.name = some ⟨.ofNat i, ref⟩ := hgains.lookup _ _ hs
  have hns : t.namespaceName = ns := hgains.namespaceName.trans ht.namespaceName
  obtain ⟨_, htracks, hmeant⟩ :=
    Operation.symbols_after ns sharedLibrary options (.register nodes :: ops)
  have hrun : Operation.after (.register nodes :: ops) (.new ns sharedLibrary options) =
      Operation.after ops d := by
    rw [Operation.after, Operation.run, h.after]
  rw [hrun] at htracks hmeant
  have hsound : t.Sound := htracks.sound
  refine ⟨ref, _, href, hgains.slots _ _ hslot, rfl, hkind, hgains.pool _ _ hname,
    SymbolTable.resolve_local hlocal asked, fun hdot hother => ?_, fun hv j => ?_⟩
  · subst hns
    refine SymbolTable.resolve_qualified hlocal hdot (hsound.lookup_eq_none.2 ?_) asked
    rw [Operation.localNames_after ops hd.symbols, hd.localNames, ← List.map_append, List.mem_map]
    rintro ⟨other, hmem, hsame⟩
    exact hother other hmem hsame
  · subst hns
    exact hmeant.not_external hsound hv hlocal j

namespace Sample

/-- The entries of a description have their slots. -/
theorem exists_register (ns : String) (nodes : List Node)
    (h : ((Build.register nodes).outcome (.new ns none {})).1.isOk = true) :
    (Build.register nodes).Yields (.new ns none {}) ()
      ((Build.register nodes).after (.new ns none {})) := by
  rw [Build.Yields, Build.after]
  revert h
  obtain ⟨_ | _, d⟩ := (Build.register nodes).outcome (.new ns none {})
  · exact fun h => by cases h
  · exact fun _ => rfl

end Sample

/-- A structure is found by its qualified name, also when that is asked for strictly and after one
more entry was registered and an entry of another namespace got a slot. -/
theorem resolve_own_name_sample :
    ∃ d, (Build.register [.struct Sample.point]).Yields (.new "Sample" none {}) () d ∧
      ∃ ref, ((Operation.after [.register [.constant Sample.limit], .resolve "Base.Failure"]
        d).symbols.resolve { strict := true } "Sample.Point").1 = .ok ref := by
  have hreg := Sample.exists_register "Sample" [.struct Sample.point] (by decide +kernel)
  obtain ⟨ref, slot, -, -, -, -, -, -, hqualified, -⟩ := resolve_own_name hreg
    [.register [.constant Sample.limit], .resolve "Base.Failure"] (i := 0) rfl { strict := true }
  exact ⟨_, hreg, ref, congrArg Prod.fst (hqualified (by decide +kernel) (by decide +kernel))⟩

namespace Sample

/-- Names that are taken for others with the namespace `N` in front of them. -/
def clashing : List Node := [.struct { name := "x" }, .struct { name := "N.x" },
  .struct { name := "a.b" }]

/-- The draft in which these have their slots. -/
def clashed : Draft := (Build.register clashing).after (.new "N" none {})

end Sample

/-- A qualified name may be that of another entry, and a name with a dot is taken apart at its last
dot, so that it leads out of the namespace or nowhere. -/
theorem qualified_name_elsewhere :
    (Build.register Sample.clashing).Yields (.new "N" none {}) () Sample.clashed ∧
      Sample.clashed.symbols.lookup "x" = some ⟨0, ⟨1⟩⟩ ∧
      (∀ asked : Options, (Sample.clashed.symbols.resolve asked "N.x").1 = .ok ⟨2⟩) ∧
      Sample.clashed.symbols.lookup "a.b" = some ⟨2, ⟨3⟩⟩ ∧
      (Sample.clashed.symbols.resolve {} "N.a.b").1 = .ok ⟨4⟩ ∧
      (Sample.clashed.symbols.resolve { strict := true } "N.a.b").1 =
        .error (.unresolvedName "N.a.b") := by
  have hx : Sample.clashed.symbols.lookup "N.x" = some ⟨1, ⟨2⟩⟩ := by decide +kernel
  refine ⟨Sample.exists_register "N" Sample.clashing (by decide +kernel), by decide +kernel,
    fun asked => ?_, by decide +kernel, ?_, ?_⟩
  · rw [SymbolTable.resolve_local hx]
  · decide +kernel
  · decide +kernel

end Typelib
