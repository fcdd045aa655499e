import Typelib.Proofs.CSource.Array
import Typelib.Proofs.CSource.Comment
import Typelib.Proofs.CSource.Literal

/-!
# What a C file holds

The file of an artifact begins with a comment that names its namespace. The array with the bytes
follows, and the function behind it holds the name once more, as a string literal.

* `cSource_carries`: the array is read as the bytes, and the literal as the name;
* `cSource_comment`: the comment ends where it should, but for some names.
-/

namespace Typelib

open CSource

variable (a : Artifact)

/-- What stands above the array. -/
def Artifact.cSourceFront : String :=
  Text.ofLines
    [comment ("typelib for namespace " ++ a.namespaceName), "", "#include <girepository.h>", ""]

/-! ### Parts of the file -/

theorem Text.exists_ofLines {line : String} {lines : List String} (h : line ∈ lines) :
    ∃ front back, ofLines lines = front ++ line ++ back := by
  obtain ⟨before, after, rfl⟩ := List.append_of_mem h
  refine ⟨ofLines before, "\n" ++ ofLines after, ?_⟩
  rw [ofLines_append, ofLines_cons]
  simp only [String.append_assoc]

theorem exists_cSource_array : ∃ back, a.cSource.toList = a.cSourceFront.toList ++
    ((Text.ofLines (array (identifier a.namespaceName) a.bytes)).toList ++ back) := by
  unfold Artifact.cSource Artifact.cSourceFront
  simp only [Text.ofLines_append, String.toList_append, List.append_assoc]
  exact ⟨_, rfl⟩

theorem exists_cSource_literal : ∃ front back, a.cSource.toList = (front ++ [' ']) ++
    ((literal a.namespaceName).toList ++ back) := by
  let start := "      g_warning (\"failed to load typelib %s: %s\","
  obtain ⟨front, back, h⟩ : ∃ front back, a.cSource =
      front ++ (start ++ " " ++ literal a.namespaceName ++ ", error->message);") ++ back :=
    Text.exists_ofLines (by simp [constructor, start])
  refine ⟨(front ++ start).toList, (", error->message);" ++ back).toList, ?_⟩
  rw [h]
  simp only [String.toList_append, List.append_assoc]
  rfl

/-! ### What is read -/

/-- **The data is carried exactly.** The array behind the first lines of the file is declared with the
number of the bytes and holds the bytes. The name of the namespace stands in the file as a string
literal, whose characters are printable and which is read as the bytes of the name, whatever follows
it. -/
theorem cSource_carries :
    (∃ text rest, logical a.cSource.toList = logical a.cSourceFront.toList ++ text ∧
      readArray? (tokens text) = some (⟨(identifier a.namespaceName ++ "_typelib_data").toList,
        a.bytes.size, a.bytes.toList⟩, rest)) ∧
    (∃ front back, a.cSource.toList = front ++ ((literal a.namespaceName).toList ++ back) ∧
      logical a.cSource.toList =
        logical front ++ logical ((literal a.namespaceName).toList ++ back)) ∧
    (∀ c ∈ (literal a.namespaceName).toList, ' ' ≤ c ∧ c ≤ '~') ∧
    ∀ rest, readString? (logical ((literal a.namespaceName).toList ++ rest)) =
      some (Text.toBytes a.namespaceName, logical rest) := by
  obtain ⟨back, harray⟩ := exists_cSource_array a
  obtain ⟨front, after, hliteral⟩ := exists_cSource_literal a
  refine ⟨⟨_, _, ?_, readArray?_array a.namespaceName a.bytes back⟩,
    ⟨_, after, hliteral, ?_⟩, printable_literal _, readString?_literal _⟩
  · rw [harray, toList_array]
    exact logical_append_cons (by decide) (by decide) (by decide) _ _
  · rw [hliteral, literal, String.toList_ofList, literalChars]
    exact logical_append_cons (by decide) (by decide) (by decide) _ _

theorem exists_cSource_comment : ∃ tail,
    a.cSource = comment ("typelib for namespace " ++ a.namespaceName) ++ tail := by
  unfold Artifact.cSource
  simp only [Text.ofLines_append, Text.ofLines_cons, String.append_assoc]
  exact ⟨_, rfl⟩

/-- **The comment of the file.** It ends where it should, with the name of the namespace inside,
unless the name tears the end of a comment apart. -/
theorem cSource_comment : ∃ tail,
    a.cSource = comment ("typelib for namespace " ++ a.namespaceName) ++ tail ∧
      (afterComment? (logical a.cSource.toList) = some (logical tail.toList) ↔
        ¬ Torn a.namespaceName.toList) := by
  obtain ⟨tail, h⟩ := exists_cSource_comment a
  refine ⟨tail, h, ?_⟩
  rw [h, String.toList_append, afterComment?_comment, String.toList_append, torn_append (by decide)]

/-- This name ends the comment, and what stands behind it is read as code. -/
theorem torn_name_escapes :
    let a : Artifact := ⟨"*\\\n/int x;/*", #[0]⟩
    ∃ tail, a.cSource = comment ("typelib for namespace " ++ a.namespaceName) ++ tail ∧
      afterComment? (logical a.cSource.toList) =
        some ("int x;/* */".toList ++ logical tail.toList) := by
  intro a
  obtain ⟨tail, h⟩ := exists_cSource_comment a
  have htext : (comment ("typelib for namespace " ++ a.namespaceName)).toList =
      "/* typelib for namespace *\\\n/int x;/* */".toList := by
    decide +kernel
  refine ⟨tail, h, ?_⟩
  rw [h, String.toList_append, htext]
  rfl

end Typelib
