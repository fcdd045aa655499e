/-!
# Lines

A text that consists of lines, each of them ended by a line feed.
-/

namespace Typelib.Text

/-- The lines as one text. -/
def ofLines (lines : List String) : String := lines.foldl (fun text line => text ++ line ++ "\n") ""

theorem ofLines_append (xs ys : List String) : ofLines (xs ++ ys) = ofLines xs ++ ofLines ys := by
  have hstart (start : String) : ys.foldl (fun text line => text ++ line ++ "\n") start =
      start ++ ys.foldl (fun text line => text ++ line ++ "\n") "" := by
    induction ys generalizing start with
    | nil => simp
    | cons line ys ih =>
      rw [List.foldl_cons, ih, List.foldl_cons, ih ("" ++ line ++ "\n")]
      simp only [String.append_assoc, String.empty_append]
  rw [ofLines, List.foldl_append, hstart]
  rfl

@[simp]
theorem ofLines_nil : ofLines [] = "" := rfl

theorem ofLines_cons (line : String) (lines : List String) :
    ofLines (line :: lines) = line ++ "\n" ++ ofLines lines := by
  rw [← List.singleton_append, ofLines_append]
  simp [ofLines]

end Typelib.Text
