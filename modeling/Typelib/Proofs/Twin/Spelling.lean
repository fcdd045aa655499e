import Typelib.Proofs.Twin.Document

/-!
# How references are spelled

The name of an entry may be spelled with the namespace in front of it or without. If no entry has a
dot in its name, both spellings are resolved alike, whether the entry is local or not, and so they
make the same file.

* `Spelling`: the spellings of a name;
* `SymbolTable.meaning_spelling`: both stand for the same entry;
* `compile_respelled`: a description and any other spelling of it.
-/

namespace Typelib

/-- A name is spelled as it is, or with the namespace in front of it if it has no dot. -/
def Spelling (ns name name' : String) : Prop :=
  name' = name ∨ '.' ∉ name.toList ∧ name' = ns ++ "." ++ name

namespace SymbolTable

variable {t t' : SymbolTable} {ns name name' : String}

/-- The table is that of a namespace, and no local entry has a dot in its name. -/
structure Dotless (ns : String) (t : SymbolTable) : Prop where
  namespaceName : t.namespaceName = ns
  locals : ∀ (name : String) (symbol : Symbol), t.lookup name = some symbol → '.' ∉ name.toList

theorem Dotless.mono (h : t.Dotless ns) (hx : t.Extends t') : t'.Dotless ns where
  namespaceName := hx.namespaceName.trans h.namespaceName
  locals name symbol hs := by
    rw [lookup, hx.locals] at hs
    exact h.locals name symbol hs

/-- Both spellings stand for the same entry. -/
theorem meaning_spelling (h : t.Dotless ns) (hs : Spelling ns name name') :
    t.meaning name' = t.meaning name := by
  obtain rfl | ⟨hdot, rfl⟩ := hs
  · rfl
  -- the qualified name is not that of a local entry, so it is split in front of the symbol
  have hqualified : t.lookup (ns ++ "." ++ name) = none := by
    cases hl : t.lookup (ns ++ "." ++ name) with
    | none => rfl
    | some symbol => exact absurd (by simp) (h.locals _ symbol hl)
  have hbare : splitName name = none := by
    cases hsplit : splitName name with
    | none => rfl
    | some parts =>
      have hname := (splitName_eq_some hsplit).1
      rw [hname] at hdot
      simp at hdot
  unfold meaning
  rw [hqualified, splitName_append hdot, hbare]
  simp only [h.namespaceName, if_true]

/-- Names that are not strict are resolved by what they stand for alone. -/
theorem resolve_spelling {options : Options} (hstrict : options.strict = false) (h : t.Dotless ns)
    (hs : Spelling ns name name') : t.resolve options name' = t.resolve options name := by
  unfold resolve
  rw [meaning_spelling h hs, hstrict]
  rfl

end SymbolTable

/-- Two builds that differ in the spelling of names. -/
def Variation.spelling (ns : String) (options : Options) : Variation where
  options
  options' := options
  spells := Spelling ns
  givesUp _ := False
  knows := SymbolTable.Dotless ns

theorem Variation.harmless_spelling (ns : String) {options : Options}
    (hstrict : options.strict = false) : (spelling ns options).Harmless where
  grows _ _ := SymbolTable.Dotless.mono
  resolve t name name' ht hs := by
    have hresolve := SymbolTable.resolve_spelling hstrict ht hs
    exact .inr ⟨congrArg Prod.fst hresolve, congrArg Prod.snd hresolve⟩

/-- The names of local entries are those of the nodes. -/
theorem Draft.Registered.dotless {d : Draft} {nodes : List Node} {ns : String}
    (hd : d.Registered nodes) (hns : d.symbols.namespaceName = ns)
    (hdot : ∀ node ∈ nodes, '.' ∉ node.name.toList) : d.symbols.Dotless ns where
  namespaceName := hns
  locals name symbol hs := by
    obtain ⟨i, hi⟩ := hd.symbols.named name symbol hs
    have hmem : name ∈ nodes.map Node.name :=
      hd.localNames ▸ Array.mem_toList_iff.2 (Array.mem_of_getElem? hi)
    obtain ⟨node, hnode, rfl⟩ := List.mem_map.1 hmem
    exact hdot node hnode

/-- **The spelling of references does not matter.** If names are not strict and no node has a dot in
its name, a description makes the same file, or fails with the same error, whichever of its
references without a dot are spelled with the namespace in front of them. -/
theorem compile_respelled {doc doc' : Document} {options : Options}
    (hstrict : options.strict = false) (hdot : ∀ node ∈ doc.nodes, '.' ∉ node.name.toList)
    (h : doc.Respelled (Spelling doc.namespaceName) doc') :
    doc'.compile options = doc.compile options := by
  obtain ⟨hnodes⟩ := h
  obtain ⟨e, hnever, -⟩ | ⟨hsame, -⟩ :=
    compile_agree (Variation.harmless_spelling doc.namespaceName hstrict) doc.namespaceName
      doc.sharedLibrary hnodes fun d hd hns => hd.dotless hns hdot
  · exact hnever.elim
  · exact hsame

namespace Sample

/-- An object and another one derived from it, with an interface that is not local. The references
are spelled as given. -/
def derived (parent interface : String) : Document where
  namespaceName := "Sample"
  nodes := [.object { name := "Base" }, .object { name := "Leaf", parent, interfaces := [interface] }]

theorem derived_isOk : ((derived "Base" "Mask").compile {}).isOk = true := by decide +kernel

end Sample

/-- A local parent and an interface that is not local: both spellings make the same file. -/
theorem compile_respelled_sample :
    ∃ a, (Sample.derived "Base" "Mask").compile {} = .ok a ∧
      (Sample.derived "Sample.Base" "Sample.Mask").compile {} = .ok a := by
  have hsame : (Sample.derived "Sample.Base" "Sample.Mask").compile {} =
      (Sample.derived "Base" "Mask").compile {} := by
    refine compile_respelled rfl (by decide)
      (.mk (.cons (.refl (fun _ => .inl rfl) _) (.cons ?_ .nil)))
    refine .object (.mk (.some ?_) (.cons ?_ .nil) .nil .nil .nil .nil .nil .nil)
    · exact .inr ⟨by decide, by decide⟩
    · exact .inr ⟨by decide, by decide⟩
  rw [hsame]
  have hok := Sample.derived_isOk
  cases h : (Sample.derived "Base" "Mask").compile {} with
  | ok a => exact ⟨a, rfl, rfl⟩
  | error e =>
    rw [h] at hok
    cases hok

end Typelib
