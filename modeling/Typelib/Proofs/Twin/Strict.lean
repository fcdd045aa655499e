import Typelib.Proofs.Acceptance.Exact
import Typelib.Proofs.Twin.Document

/-!
# Strict names are a filter

A build with strict names takes the same steps as one that takes all names on trust, until it meets a
name that is not admitted. So it makes the same file, or none: which of the two depends only on the
namespaces that the directory of that file leads into.

* `Options.SameAdmission`: options that treat all names alike;
* `Document.strict_of_external`, `Document.external_of_strict`: the two directions;
* `compile_strict`: which descriptions compile with strict names, and into what.
-/

namespace Typelib

/-! ### Options that treat names alike -/

/-- The first build gives up where a name is not admitted, and else the two do the same. -/
def Variation.strictly (includes : List String) : Variation where
  options := ⟨true, includes⟩
  options' := ⟨false, includes⟩
  spells := Eq
  givesUp e := ∃ name, e = .unresolvedName name
  knows _ := True

theorem Variation.harmless_strictly (includes : List String) : (strictly includes).Harmless where
  grows _ _ _ _ := trivial
  resolve t name name' _ hs := by
    obtain rfl : name = name' := hs
    unfold Agree SymbolTable.resolve
    simp only [strictly]
    split
    next => exact .inr ⟨rfl, rfl⟩
    next ns symbol _ =>
      simp only [Bool.true_and, Bool.false_and, Bool.false_eq_true, if_false]
      split_ifs
      · exact .inl ⟨_, ⟨name, rfl⟩, rfl⟩
      · exact .inr ⟨rfl, rfl⟩

/-- Two options treat all names alike: both are strict and include the same namespaces, or neither is
strict. -/
structure Options.SameAdmission (o o' : Options) : Prop where
  strict : o'.strict = o.strict
  includes : o.strict = true → ∀ ns, ns ∈ o'.includes ↔ ns ∈ o.includes

theorem Options.SameAdmission.resolve {o o' : Options} (h : o.SameAdmission o') (t : SymbolTable)
    (name : String) : t.resolve o' name = t.resolve o name := by
  unfold SymbolTable.resolve
  cases hstrict : o.strict with
  | false => simp only [h.strict, hstrict, Bool.false_and]
  | true =>
    have hadmits : ∀ ns, o'.admits ns = o.admits ns := by
      intro ns
      unfold Options.admits
      rw [h.strict, hstrict, Bool.eq_iff_iff]
      simpa using h.includes hstrict ns
    simp only [h.strict, hstrict, hadmits]

/-- Two builds with options that treat all names alike. -/
def Variation.admission (o o' : Options) : Variation where
  options := o
  options' := o'
  spells := Eq
  givesUp _ := False
  knows _ := True

theorem Options.SameAdmission.harmless {o o' : Options} (h : o.SameAdmission o') :
    (Variation.admission o o').Harmless where
  grows _ _ _ _ := trivial
  resolve t name name' _ hs := by
    obtain rfl : name = name' := hs
    have hresolve := h.resolve t name
    exact .inr ⟨congrArg Prod.fst hresolve, congrArg Prod.snd hresolve⟩

/-- Nothing else of the options matters for a file. -/
theorem Options.SameAdmission.compile {o o' : Options} (h : o.SameAdmission o') (doc : Document) :
    doc.compile o' = doc.compile o := by
  obtain ⟨e, hnever, -⟩ | ⟨hsame, -⟩ :=
    compile_agree h.harmless doc.namespaceName doc.sharedLibrary
      (list_rel_refl (Node.Respelled.refl fun _ => rfl) doc.nodes) fun _ _ _ => trivial
  · exact hnever.elim
  · exact hsame

/-! ### What is filtered -/

namespace Document

variable {doc : Document} {includes : List String} {a : Artifact}

/-- With strict names a description makes the same file as without, or a name is not admitted. -/
theorem strict_cases (doc : Document) (includes : List String) :
    (∃ name, doc.compile ⟨true, includes⟩ = .error (.unresolvedName name)) ∨
      doc.compile ⟨false, includes⟩ = doc.compile ⟨true, includes⟩ ∧
        (doc.draft ⟨false, includes⟩).symbols = (doc.draft ⟨true, includes⟩).symbols := by
  obtain ⟨_, ⟨name, rfl⟩, he⟩ | hsame :=
    compile_agree (Variation.harmless_strictly includes) doc.namespaceName doc.sharedLibrary
      (list_rel_refl (Node.Respelled.refl fun _ => rfl) doc.nodes) fun _ _ _ => trivial
  · exact .inl ⟨name, he⟩
  · exact .inr hsame

/-- The names of a description that compiled are those of its scope. -/
theorem governs_of_compile {options : Options} (h : doc.compile options = .ok a) :
    (doc.scope options).Governs (doc.draft options) := by
  rcases doc.compile_cases options with ⟨e, he, -⟩ | ⟨-, hsteady, -⟩
  · rw [h] at he
    cases he
  · exact hsteady.governs

/-- Every slot of a file that was made with strict names leads into an included namespace. -/
theorem external_of_strict (h : doc.compile ⟨true, includes⟩ = .ok a) {i : Nat}
    {ns symbol : String} (hx : (doc.draft ⟨true, includes⟩).symbols.External i ns symbol) :
    ns ∈ includes ∧ ns ≠ doc.namespaceName := by
  have hgoverns := governs_of_compile h
  obtain ⟨-, -, -, hcomplete, -⟩ := compile_ok h
  obtain ⟨-, hdot, ref, -, hk⟩ := hgoverns.symbols.external_of_slot hcomplete.pool hx
  -- the slot is that of a name of the description, and this was admitted
  obtain ⟨p, hp, he⟩ := List.mem_map.1 (hgoverns.externals _ _ hk)
  obtain ⟨name, hname, hforeign⟩ := Scope.mem_foreigns.1 hp
  obtain ⟨hns, -⟩ := SymbolTable.qualified_inj (Scope.foreign?_dotless hforeign) hdot he
  obtain ⟨node, hnode, hmem⟩ := List.mem_flatMap.1 hname
  obtain ⟨hne, hincluded⟩ :=
    (acceptable_of_compile h).names node hnode name hmem p.1 p.2 hforeign rfl
  exact ⟨hns ▸ hincluded, hns ▸ hne⟩

/-- If every slot leads into an included namespace, no name is refused. -/
theorem strict_of_external (h : doc.compile ⟨false, includes⟩ = .ok a)
    (hx : ∀ i ns symbol, (doc.draft ⟨false, includes⟩).symbols.External i ns symbol →
      ns ∈ includes ∧ ns ≠ doc.namespaceName) :
    doc.compile ⟨true, includes⟩ = .ok a := by
  rcases doc.strict_cases includes with ⟨name, he⟩ | ⟨hsame, -⟩
  · rcases violates_or_exhausted he with hviolates | hexhausted
    · cases hviolates with
      | names hnode hmem hrefused =>
        refine absurd (fun ns symbol hforeign _ => ?_) hrefused
        -- the name was given a slot where names were not strict
        have hgoverns := governs_of_compile h
        have hsettled := settled_of_compile h (List.mem_flatMap.2 ⟨_, hnode, hmem⟩)
        obtain ⟨ref, hk⟩ := (hgoverns.of_settled hsettled).2 (ns, symbol) hforeign
        obtain ⟨i, -, hslot⟩ :=
          hgoverns.symbols.slot_of_external (Scope.foreign?_dotless hforeign) hk
        exact (hx i ns symbol hslot).symm
    · -- names are not refused where the identities are used up
      rcases hexhausted.error with hinternal | ⟨_, _, htwice⟩
      · cases hinternal
      · cases htwice
  · rw [← hsame, h]

end Document

/-- **Strict names are a filter.** A description makes a file with strict names if and only if it
makes the same file without, and every slot of that file that is not local leads into a namespace that
is included and is not the one that is built. So with strict names only the set of included namespaces
matters, and without, not even that. -/
theorem compile_strict (doc : Document) (includes : List String) :
    (∀ a, doc.compile ⟨true, includes⟩ = .ok a ↔
      doc.compile ⟨false, includes⟩ = .ok a ∧
        ∀ i ns symbol, (doc.draft ⟨false, includes⟩).symbols.External i ns symbol →
          ns ∈ includes ∧ ns ≠ doc.namespaceName) ∧
      (∀ includes', (∀ ns, ns ∈ includes' ↔ ns ∈ includes) →
        doc.compile ⟨true, includes'⟩ = doc.compile ⟨true, includes⟩) ∧
      ∀ includes', doc.compile ⟨false, includes'⟩ = doc.compile ⟨false, includes⟩ := by
  refine ⟨fun a => ⟨fun h => ?_, fun ⟨h, hx⟩ => Document.strict_of_external h hx⟩,
    fun includes' hset => ?_, fun includes' => ?_⟩
  · obtain ⟨name, he⟩ | ⟨hsame, hsymbols⟩ := doc.strict_cases includes
    · rw [h] at he
      cases he
    · refine ⟨hsame.trans h, fun i ns symbol hx => ?_⟩
      rw [hsymbols] at hx
      exact Document.external_of_strict h hx
  · have hsame : Options.SameAdmission ⟨true, includes⟩ ⟨true, includes'⟩ := ⟨rfl, fun _ => hset⟩
    exact hsame.compile doc
  · have hsame : Options.SameAdmission ⟨false, includes⟩ ⟨false, includes'⟩ :=
      ⟨rfl, fun h => by cases h⟩
    exact hsame.compile doc

namespace Sample

/-- An object with an interface of another namespace. -/
def masked : Document where
  namespaceName := "Sample"
  nodes := [.object { name := "Leaf", interfaces := ["Other.Mask"] }]

theorem masked_isOk : (masked.compile ⟨true, ["Other"]⟩).isOk = true := by decide +kernel

end Sample

/-- The namespace of an interface is included: strict names make no difference, and neither does
including it twice. -/
theorem compile_strict_sample :
    (∃ a, Sample.masked.compile ⟨true, ["Other"]⟩ = .ok a ∧
      Sample.masked.compile ⟨false, ["Other"]⟩ = .ok a) ∧
      Sample.masked.compile ⟨true, ["Other", "Other"]⟩ =
        Sample.masked.compile ⟨true, ["Other"]⟩ := by
  obtain ⟨hiff, hset, -⟩ := compile_strict Sample.masked ["Other"]
  refine ⟨?_, hset ["Other", "Other"] (by simp)⟩
  have hok := Sample.masked_isOk
  cases h : Sample.masked.compile ⟨true, ["Other"]⟩ with
  | ok a => exact ⟨a, rfl, ((hiff a).1 h).1⟩
  | error e =>
    rw [h] at hok
    cases hok

end Typelib
