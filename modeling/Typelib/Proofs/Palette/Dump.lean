import Typelib.Image.Dump
import Typelib.Proofs.Guard.Safe
import Typelib.Proofs.Palette.Painted

/-!
# Painted dumps

The palette of a dump is looked at where headings, names and kinds are written, and nowhere else. So
with any two palettes a file is read in the same way and fails in the same way; and what is written
differs in the marks of the palettes alone.

* `Dump.entry_repaint`: the lines below a name are the same with every palette;
* `Image.paints_dump`: a dump, and what a palette makes of it;
* `dump_painted`: the text of a terminal without its marks is the plain one.
-/

namespace Typelib

/-! ### Two outcomes -/

/-- Two outcomes fail with the same error, or succeed with results that are related. -/
inductive Matches {ε α β : Type} (R : α → β → Prop) : Except ε α → Except ε β → Prop
  | ok {a : α} {b : β} (h : R a b) : Matches R (.ok a) (.ok b)
  | error (e : ε) : Matches R (.error e) (.error e)

namespace Matches

variable {ε α β γ δ : Type} {R : α → β → Prop} {S : γ → δ → Prop}

theorem bind {x : Except ε α} {y : Except ε β} {f : α → Except ε γ} {g : β → Except ε δ}
    (h : Matches R x y) (hfg : ∀ a b, R a b → Matches S (f a) (g b)) :
    Matches S (x >>= f) (y >>= g) := by
  cases h with
  | ok h => exact hfg _ _ h
  | error e => exact .error e

/-- What both outcomes are made of may be looked at first. -/
theorem bind_same (x : Except ε α) {f : α → Except ε γ} {g : α → Except ε δ}
    (hfg : ∀ a, Matches S (f a) (g a)) : Matches S (x >>= f) (x >>= g) := by
  cases x with
  | ok a => exact hfg a
  | error e => exact .error e

theorem mapM {f : α → Except ε γ} {g : α → Except ε δ} (hfg : ∀ a, Matches S (f a) (g a)) :
    ∀ as : List α, Matches (List.Forall₂ S) (as.mapM f) (as.mapM g) := by
  intro as
  induction as with
  | nil => exact .ok .nil
  | cons a as ih =>
    rw [List.mapM_cons, List.mapM_cons]
    exact (hfg a).bind fun _ _ h => ih.bind fun _ _ hs => .ok (.cons h hs)

theorem eq_error_iff {x : Except ε α} {y : Except ε β} (h : Matches R x y) (e : ε) :
    y = .error e ↔ x = .error e := by
  cases h with
  | ok h => constructor <;> intro h <;> cases h
  | error e' => exact ⟨fun h => by cases h; rfl, fun h => by cases h; rfl⟩

theorem of_ok {x : Except ε α} {y : Except ε β} {a : α} {b : β} (h : Matches R x y)
    (hx : x = .ok a) (hy : y = .ok b) : R a b := by
  cases h with
  | ok h =>
    cases hx
    cases hy
    exact h
  | error => cases hx

end Matches

namespace Dump

variable (d : Dump) (p : Palette)

/-- The dump with another palette. -/
def repaint : Dump := { d with palette := p }

/-! ### What no palette changes -/

theorem palette_repaint : (d.repaint p).palette = p := rfl

theorem nameOf_repaint : (d.repaint p).nameOf = d.nameOf := rfl

theorem refText_repaint : (d.repaint p).refText = d.refText := rfl

theorem typeName_repaint (fuel : Nat) (t : TypeRef) :
    (d.repaint p).typeName fuel t = d.typeName fuel t := by
  induction fuel generalizing t with
  | zero => rfl
  | succ fuel ih =>
    have hinner : (d.repaint p).typeName fuel = d.typeName fuel := funext ih
    simp only [typeName, hinner]
    rfl

theorem type_repaint : (d.repaint p).type = d.type :=
  funext fun t => d.typeName_repaint p _ t

theorem arg_repaint : (d.repaint p).arg = d.arg := by
  funext a
  simp only [arg, type_repaint]
  rfl

theorem callable_repaint : (d.repaint p).callable = d.callable := by
  funext name signature
  simp only [callable, arg_repaint, type_repaint]
  rfl

theorem function_repaint : (d.repaint p).function = d.function := by
  funext label f
  simp only [function, callable_repaint]

theorem method_repaint : (d.repaint p).method = d.method :=
  congrFun (d.function_repaint p) "method"

theorem signal_repaint : (d.repaint p).signal = d.signal := by
  funext s
  simp only [signal, callable_repaint]

theorem vfunc_repaint : (d.repaint p).vfunc = d.vfunc := by
  funext v
  simp only [vfunc, callable_repaint]

theorem field_repaint : (d.repaint p).field = d.field := by
  funext f
  simp only [field, type_repaint]
  rfl

theorem property_repaint : (d.repaint p).property = d.property := by
  funext q
  simp only [property, type_repaint]
  rfl

theorem constant_repaint : (d.repaint p).constant = d.constant := by
  funext c
  simp only [constant, type_repaint]
  rfl

/-- The lines below a name are the same with every palette. -/
theorem entry_repaint : (d.repaint p).entry = d.entry := by
  funext kind offset
  cases kind <;>
    simp only [entry, callable_repaint, function_repaint, method_repaint, signal_repaint,
      vfunc_repaint, field_repaint, property_repaint, constant_repaint, type_repaint] <;>
    rfl

/-! ### What the palette paints -/

theorem paints_heading (title : String) :
    d.palette.Paints ((d.repaint .plain).heading title) (d.heading title) := by
  simpa [heading, palette_repaint, Palette.plain, String.append_assoc] using
    d.palette.paints_heading ("[" ++ title ++ "]")

theorem paints_headerLines : Matches (List.Forall₂ d.palette.Paints)
    (d.repaint .plain).headerLines d.headerLines := by
  refine .bind_same d.img.namespaceName fun name => .bind_same d.img.sharedLibrary fun library => ?_
  have hname : d.palette.Paints ("namespace " ++ "" ++ name ++ "")
      ("namespace " ++ d.palette.name ++ name ++ d.palette.reset) := by
    simpa [String.append_assoc] using
      (Palette.paints_refl "namespace ").append (d.palette.paints_name name)
  exact .ok (.cons (d.paints_heading "header") (.cons hname (.cons (Palette.paints_refl _)
    (.cons (Palette.paints_refl _) (.cons (Palette.paints_refl _)
      (.cons (Palette.paints_refl _) .nil))))))

theorem paints_directoryLines :
    List.Forall₂ d.palette.Paints (d.repaint .plain).directoryLines d.directoryLines := by
  refine .cons (d.paints_heading "directory") ?_
  rw [List.forall₂_map_left_iff, List.forall₂_map_right_iff]
  refine List.forall₂_same.2 ?_
  rintro ⟨r, e⟩ -
  -- the marks stand around the column, so they do not count among its twelve characters
  have hcolumn :=
    (Palette.paints_refl (d.refText r ++ " ")).append (d.palette.paints_dim (kindText e))
  have hline := hcolumn.append (Palette.paints_refl (" " ++ d.nameOf r))
  simpa [palette_repaint, refText_repaint, nameOf_repaint, Palette.plain, String.append_assoc]
    using hline

theorem paints_localEntry (r : DirRef) (e : DirEntry) : Matches (List.Forall₂ d.palette.Paints)
    ((d.repaint .plain).localEntry r e) (d.localEntry r e) := by
  unfold localEntry
  split
  next kind _ _ =>
    rw [entry_repaint]
    refine .bind_same (d.entry kind e.offset) fun lines => ?_
    have hline := (Palette.paints_refl (d.refText r ++ " " ++ kind.name ++ " ")).append
      (d.palette.paints_name (d.nameOf r))
    refine .ok (.cons ?_ (List.forall₂_same.2 fun line _ => Palette.paints_refl line))
    simpa [palette_repaint, refText_repaint, nameOf_repaint, Palette.plain, String.append_assoc]
      using hline
  next => exact .ok .nil

theorem paints_entryLines : Matches (List.Forall₂ d.palette.Paints)
    (d.repaint .plain).entryLines d.entryLines := by
  refine (Matches.mapM (fun (r, e) => d.paints_localEntry r e) d.img.entries).bind fun _ _ h => ?_
  exact .ok (.cons (d.paints_heading "entries") (List.rel_flatten h))

end Dump

/-- A dump fails in the same way with every palette, and the palette paints it. -/
theorem Image.paints_dump (img : Image) (p : Palette) :
    Matches p.Paints (img.dump .plain) (img.dump p) := by
  refine .bind_same _ fun names => ?_
  have hd : (⟨img, names.toArray, .plain⟩ : Dump) =
      (⟨img, names.toArray, p⟩ : Dump).repaint .plain :=
    rfl
  simp only [hd]
  refine (Dump.paints_headerLines _).bind fun _ _ hheader =>
    (Dump.paints_entryLines _).bind fun _ _ hentries => .ok (Palette.paints_ofLines ?_)
  have hdirectory := Dump.paints_directoryLines ⟨img, names.toArray, p⟩
  exact List.rel_append (List.rel_append hheader (.cons (Palette.paints_refl _) hdirectory))
    (.cons (Palette.paints_refl _) hentries)

/-- **Colours never change the content.** A file that cannot be shown in colours cannot be shown
without them, for the same reason; and where the plain text holds no escape character, the coloured
text without the marks of the palette is the plain one. -/
theorem dump_painted (img : Image) :
    (∀ e, img.dump .terminal = .error e ↔ img.dump .plain = .error e) ∧
    ∀ colored plain, img.dump .terminal = .ok colored → img.dump .plain = .ok plain →
      '\x1b' ∉ plain.toList → Palette.terminal.delete colored = plain :=
  have h := img.paints_dump .terminal
  ⟨h.eq_error_iff, fun _ _ hc hp hescape => Palette.delete_of_paints (h.of_ok hp hc) hescape⟩

/-- The file of a table is shown in colours, and without its marks that is the plain text. -/
theorem dump_painted_sample : Image.load Sample.tableFile.bytes = .ok Sample.tableFile ∧
    ∃ colored plain, Sample.tableFile.dump .terminal = .ok colored ∧
      Sample.tableFile.dump .plain = .ok plain ∧ '\x1b' ∉ plain.toList ∧
      Palette.terminal.delete colored = plain := by
  have hshown : ((Sample.tableFile.dump .plain).toOption.any fun plain =>
      !plain.toList.contains '\x1b') = true := by
    decide +kernel
  cases hp : Sample.tableFile.dump .plain with
  | error e =>
    rw [hp] at hshown
    cases hshown
  | ok plain =>
    have hescape : '\x1b' ∉ plain.toList := by
      rw [hp] at hshown
      simpa [Except.toOption] using hshown
    cases hc : Sample.tableFile.dump .terminal with
    | error e =>
      have hfails := ((dump_painted Sample.tableFile).1 e).1 hc
      rw [hp] at hfails
      cases hfails
    | ok colored =>
      exact ⟨Sample.load_tableFile, colored, plain, rfl, rfl, hescape,
        (dump_painted Sample.tableFile).2 _ _ hc hp hescape⟩

end Typelib
