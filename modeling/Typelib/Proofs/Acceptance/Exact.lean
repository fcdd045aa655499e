import Typelib.Proofs.Acceptance.Accepted
import Typelib.Proofs.Acceptance.Rows
import Typelib.Proofs.Reading.Document

/-!
# Acceptance is exact

A description becomes a file if and only if it is acceptable, as long as there are identities for its
bodies. Otherwise the error names a condition that the description violates; it is never one that only
a misuse of the draft could cause.

* `compile_accepts`: which descriptions compile, and what the errors of the others say.
-/

namespace Typelib

variable {doc : Document} {options : Options} {e : BuildError}

/-- An error that names a condition is none of the errors that only a misuse of the draft or a
failure outside of it could cause. -/
theorem Document.Violates.ordinary (h : doc.Violates options e) :
    e.isInternal = false ∧ (∀ reason, e ≠ .sink reason) ∧
      ∀ id start, e ≠ .writtenTwice id start := by
  cases h <;> exact ⟨rfl, by simp, by simp⟩

/-- A description that is refused violates the condition that the error names, or it uses up the
identities. -/
theorem Document.violates_or_exhausted (h : doc.compile options = .error e) :
    doc.Violates options e ∨ doc.Exhausted options e := by
  obtain ⟨e', he, hcases⟩ | ⟨hfew, hsteady, hnil, hassemble⟩ := doc.compile_cases options
  · rw [h] at he
    cases he
    exact hcases
  · rw [hassemble] at h
    by_cases hle : (doc.draft options).placement.total ≤ maxWord32
    · obtain ⟨bytes, hbytes⟩ := hsteady.assemble_eq_ok hnil hfew hle
      rw [hbytes] at h
      cases h
    · obtain ⟨size, hsize, hlt, hmax⟩ := hsteady.assemble_eq_error hnil hfew (Nat.lt_of_not_le hle)
      rw [hsize] at h
      cases h
      exact .inl (.size hlt hmax)

theorem Document.violates_of_compile (h : doc.compile options = .error e)
    (hfew : (doc.draft options).symbols.handedOut < UInt32.size) : doc.Violates options e :=
  (violates_or_exhausted h).resolve_right fun hexhausted =>
    Nat.not_le_of_lt hfew hexhausted.handedOut

/-- **Acceptance is exact.** A description that calls for fewer bodies than there are identities
compiles if and only if it is acceptable. If it does not compile, it violates the condition that the
error names, and the error is not internal: all that was promised is written, nothing is written
twice, and each row takes as many bytes as are declared for it. -/
theorem compile_accepts (doc : Document) (options : Options)
    (hfew : (doc.draft options).symbols.handedOut < UInt32.size) :
    ((∃ a, doc.compile options = .ok a) ↔ doc.Acceptable options) ∧
      (∀ e, doc.compile options = .error e → doc.Violates options e ∧ e.isInternal = false ∧
        (∀ reason, e ≠ .sink reason) ∧ ∀ id start, e ≠ .writtenTwice id start) ∧
      ∀ work : Work, work.RowsExact := by
  refine ⟨⟨fun ⟨a, ha⟩ => Document.acceptable_of_compile ha, fun h => ?_⟩, fun e he => ?_,
    Work.rowsExact⟩
  · cases hc : doc.compile options with
    | ok a => exact ⟨a, rfl⟩
    | error e => exact absurd h (Document.violates_of_compile hc hfew).not_acceptable
  · have hv := Document.violates_of_compile he hfew
    exact ⟨hv, hv.ordinary⟩

namespace Sample

/-- A description with an entry that is repeated. -/
def twice : Document where
  namespaceName := "Sample"
  nodes := [.constant limit, .constant limit]

end Sample

/-- A small description is acceptable; with an entry repeated, it is refused for its name. -/
theorem compile_accepts_sample :
    (⟨"Sample", some "libsample.so", Sample.nodes⟩ : Document).Acceptable {} ∧
      Sample.twice.Violates {} (.duplicateEntry "LIMIT") := by
  constructor
  · have hfew : ((⟨"Sample", some "libsample.so", Sample.nodes⟩ : Document).draft
        {}).symbols.handedOut < UInt32.size := by
      decide +kernel
    exact (compile_accepts _ _ hfew).1.1 Sample.exists_compile
  · have hfew : (Sample.twice.draft {}).symbols.handedOut < UInt32.size := by decide +kernel
    have hrefused : Sample.twice.compile {} = .error (.duplicateEntry "LIMIT") := by decide +kernel
    exact ((compile_accepts _ _ hfew).2.1 _ hrefused).1

end Typelib
