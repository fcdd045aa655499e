import Mathlib.Data.List.Forall2
import Typelib.Palette
import Typelib.Text.Lines

/-!
# Painted texts

A palette writes marks into a text and leaves its characters alone. Where a text holds no character
that begins a mark, the marks can be told from it, and deleting them gives it back.

* `Palette.delete`: a text without the marks of a palette;
* `Palette.Painted`: a text, and what a palette makes of it;
* `Palette.delete_of_paints`: deleting the marks of a terminal gives the text back.
-/

namespace Typelib

namespace Palette

variable (p : Palette)

/-! ### Deleting marks -/

/-- What the palette writes, where it writes anything. -/
def marks : List (List Char) :=
  ([p.heading, p.name, p.dim, p.reset].map String.toList).filter fun mark => !mark.isEmpty

/-- Characters without marks, left to right; so many of them belong to a mark that has begun. -/
def deleteMarks (marks : List (List Char)) : Nat → List Char → List Char
  | _, [] => []
  | skipped + 1, _ :: cs => deleteMarks marks skipped cs
  | 0, c :: cs =>
    match marks.find? fun mark => mark.isPrefixOf (c :: cs) with
    | some mark => deleteMarks marks (mark.length - 1) cs
    | none => c :: deleteMarks marks 0 cs

/-- A text without what the palette writes. -/
def delete (text : String) : String := .ofList (deleteMarks p.marks 0 text.toList)

/-- A mark inside of which the deletion is, is left out. -/
theorem deleteMarks_append (marks : List (List Char)) (cs rest : List Char) :
    deleteMarks marks cs.length (cs ++ rest) = deleteMarks marks 0 rest := by
  induction cs with
  | nil => rfl
  | cons c cs ih => exact ih

/-- Where the first mark that stands at the front is a certain one, it is left out. -/
theorem deleteMarks_mark {marks : List (List Char)} {c : Char} {mark rest : List Char}
    (h : (marks.find? fun m => m.isPrefixOf (c :: (mark ++ rest))) = some (c :: mark)) :
    deleteMarks marks 0 (c :: (mark ++ rest)) = deleteMarks marks 0 rest := by
  rw [deleteMarks, h]
  exact deleteMarks_append marks mark rest

theorem deleteMarks_char {marks : List (List Char)} {c : Char} (cs : List Char)
    (h : ∀ mark ∈ marks, mark.head? ≠ some c) (hnil : [] ∉ marks) :
    deleteMarks marks 0 (c :: cs) = c :: deleteMarks marks 0 cs := by
  have hnone : (marks.find? fun mark => mark.isPrefixOf (c :: cs)) = none := by
    rw [List.find?_eq_none]
    intro mark hmem hprefix
    cases mark with
    | nil => exact hnil hmem
    | cons d mark =>
      simp only [List.isPrefixOf, Bool.and_eq_true, beq_iff_eq] at hprefix
      exact h _ hmem (congrArg some hprefix.1)
  rw [deleteMarks, hnone]

/-! ### Painting -/

/-- Characters, and what becomes of them when marks of the palette are written between them. -/
inductive Painted : List Char → List Char → Prop
  | nil : Painted [] []
  | char {plain painted : List Char} (c : Char) (h : Painted plain painted) :
    Painted (c :: plain) (c :: painted)
  | mark {mark plain painted : List Char} (hmem : mark ∈ p.marks) (h : Painted plain painted) :
    Painted plain (mark ++ painted)

/-- A text, and what the palette makes of it. -/
def Paints (plain painted : String) : Prop := p.Painted plain.toList painted.toList

variable {p} {plain painted plain' painted' : List Char}

theorem Painted.append (h : p.Painted plain painted) (h' : p.Painted plain' painted') :
    p.Painted (plain ++ plain') (painted ++ painted') := by
  induction h with
  | nil => exact h'
  | char c _ ih => exact ih.char c
  | mark hmem _ ih =>
    rw [List.append_assoc]
    exact ih.mark hmem

theorem painted_refl (cs : List Char) : p.Painted cs cs := by
  induction cs with
  | nil => exact .nil
  | cons c cs ih => exact ih.char c

theorem paints_refl (s : String) : p.Paints s s := painted_refl _

theorem Paints.append {a b a' b' : String} (h : p.Paints a b) (h' : p.Paints a' b') :
    p.Paints (a ++ a') (b ++ b') := by
  rw [Paints, String.toList_append, String.toList_append]
  exact Painted.append h h'

/-- What the palette writes stands for no text. -/
theorem paints_mark {s : String} (h : s ∈ [p.heading, p.name, p.dim, p.reset]) :
    p.Paints "" s := by
  by_cases hs : s.toList = []
  · rw [Paints, hs]
    exact .nil
  · have hmem : s.toList ∈ p.marks := by
      refine List.mem_filter.2 ⟨List.mem_map_of_mem h, ?_⟩
      simpa using hs
    have := Painted.nil.mark hmem
    rwa [List.append_nil] at this

/-- A part of a text that stands out. -/
theorem paints_between {mark : String} (h : mark ∈ [p.heading, p.name, p.dim, p.reset])
    (s : String) :
    p.Paints s (mark ++ s ++ p.reset) := by
  have hs := ((paints_mark h).append (paints_refl s)).append (paints_mark (s := p.reset) (by simp))
  rwa [String.empty_append, String.append_empty] at hs

theorem paints_heading (s : String) : p.Paints s (p.heading ++ s ++ p.reset) :=
  paints_between (by simp) s

theorem paints_name (s : String) : p.Paints s (p.name ++ s ++ p.reset) :=
  paints_between (by simp) s

theorem paints_dim (s : String) : p.Paints s (p.dim ++ s ++ p.reset) :=
  paints_between (by simp) s

theorem paints_ofLines {lines lines' : List String} (h : List.Forall₂ p.Paints lines lines') :
    p.Paints (Text.ofLines lines) (Text.ofLines lines') := by
  induction h with
  | nil => exact paints_refl _
  | cons hline _ ih =>
    rw [Text.ofLines_cons, Text.ofLines_cons]
    exact (hline.append (paints_refl _)).append ih

/-! ### The marks of a terminal -/

theorem mem_marks_terminal {mark : List Char} (h : mark ∈ terminal.marks) :
    mark = "\x1b[34m".toList ∨ mark = "\x1b[32m".toList ∨ mark = "\x1b[2m".toList ∨
      mark = "\x1b[0m".toList := by
  simpa [marks, terminal] using h

/-- No mark of a terminal begins another one, so the first that stands at the front is the one that
was written. -/
theorem deleteMarks_terminal {mark : List Char} (h : mark ∈ terminal.marks) (rest : List Char) :
    deleteMarks terminal.marks 0 (mark ++ rest) = deleteMarks terminal.marks 0 rest := by
  rcases mem_marks_terminal h with rfl | rfl | rfl | rfl <;> exact deleteMarks_mark rfl

/-- **Deleting the marks of a terminal gives back a text** that holds no escape character. -/
theorem deleteMarks_painted (h : terminal.Painted plain painted) (hescape : '\x1b' ∉ plain) :
    deleteMarks terminal.marks 0 painted = plain := by
  induction h with
  | nil => rfl
  | char c _ ih =>
    rw [List.mem_cons, not_or] at hescape
    rw [deleteMarks_char _ (fun mark hmem => ?_) (by decide), ih hescape.2]
    rcases mem_marks_terminal hmem with rfl | rfl | rfl | rfl <;>
      exact fun he => hescape.1 (Option.some.inj he)
  | mark hmem _ ih => rw [deleteMarks_terminal hmem, ih hescape]

theorem delete_of_paints {s t : String} (h : terminal.Paints s t) (hescape : '\x1b' ∉ s.toList) :
    terminal.delete t = s := by
  rw [delete, deleteMarks_painted h hescape, String.ofList_toList]

end Palette

end Typelib
