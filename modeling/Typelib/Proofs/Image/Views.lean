import Typelib.Proofs.Image.Stretch
import Typelib.Proofs.Listing.Entries

/-!
# Views hold what stands in the places of their rows

A view walks over the rows behind the first one and keeps its position. It fails only where the file
ends, and holds exactly the rows that are read one by one in their places.

* `ViewLayout`: what follows the first row of a view, and what the view holds of it;
* `Walk.Reads`, `Walk.Agrees`: what one step of a walk reads, and what the rest of it reads;
* `views_agree`: all views of a file.
-/

namespace Typelib

/-! ### Walks -/

/-- How a view is laid out: its first row, what follows it, and what is held of that. -/
structure ViewLayout (α β : Type) where
  row : β → α
  next : α → List Stretch
  columns : β → List Column

namespace Walk

section Reads

variable (img : Image) {γ : Type}

/-- A walk reads one stretch, whole or not at all. -/
structure Reads (s : Stretch) (column : γ → Column) (w : Walk γ) : Prop where
  succeeds : ∀ pos, 0 < pos →
    ((∃ x, w pos = .ok x) ↔ (s.count ≠ 0 → pos + s.length ≤ img.bytes.size))
  holds : ∀ pos, 0 < pos → ∀ c stop, w pos = .ok (c, stop) →
    stop = s.stop pos ∧ (column c).stretch = s ∧ (column c).StandsAt img pos

variable {img} (ha : img.Accepted)

include ha

/-- Positions that no offset reaches lie outside, and so do the offsets that are taken for them. -/
theorem offset_inside_iff {pos size : Nat} (hpos : 0 < pos) (hsize : 0 < size) :
    (offset pos ≠ 0 ∧ (offset pos).toNat + size ≤ img.bytes.size) ↔
      pos + size ≤ img.bytes.size := by
  have hlt := ha.size_lt
  have hoffset := toNat_offset_min pos
  have hzero : offset pos ≠ 0 := fun hz => by
    rw [hz] at hoffset
    simp only [UInt32.toNat_zero, UInt32.size] at hoffset
    omega
  rw [hoffset, and_iff_right hzero]
  simp only [UInt32.size] at hlt ⊢
  omega

/-- What is read at the offset of a position is read at the position. -/
theorem Reads.of_offset {s : Stretch} {column : γ → Column} {w : Walk γ}
    {x : UInt32 → Except ReadError γ} (hlength : s.count ≠ 0 → 0 < s.length)
    (hempty : s.count = 0 → ∃ c, (∀ pos, w pos = .ok (c, pos)) ∧ (column c).stretch = s ∧
      ∀ pos, (column c).StandsAt img pos)
    (hread : s.count ≠ 0 → ∀ pos, w pos = x (offset pos) >>= fun c => .ok (c, s.stop pos))
    (hx : ∀ o, (∃ c, x o = .ok c) ↔ o ≠ 0 ∧ o.toNat + s.length ≤ img.bytes.size)
    (hstands : ∀ o c, o ≠ 0 → x o = .ok c →
      (column c).stretch = s ∧ (column c).StandsAt img o.toNat) : Reads img s column w := by
  by_cases hcount : s.count = 0
  · obtain ⟨c, hw, hstretch, hstand⟩ := hempty hcount
    refine ⟨fun pos _ => ?_, fun pos _ c' stop h => ?_⟩
    · exact ⟨fun _ hne => absurd hcount hne, fun _ => ⟨_, hw pos⟩⟩
    · rw [hw] at h
      cases h
      exact ⟨by rw [Stretch.stop, if_pos hcount], hstretch, hstand pos⟩
  · refine ⟨fun pos hpos => ?_, fun pos hpos c stop h => ?_⟩
    · rw [hread hcount, ← offset_inside_iff ha hpos (hlength hcount)]
      constructor
      · rintro ⟨y, hy⟩ -
        cases hc : x (offset pos) with
        | error e =>
          rw [hc] at hy
          cases hy
        | ok c => exact (hx _).1 ⟨c, hc⟩
      · intro hinside
        obtain ⟨c, hc⟩ := (hx _).2 (hinside hcount)
        exact ⟨(c, s.stop pos), by rw [hc]; rfl⟩
    · rw [hread hcount] at h
      cases hc : x (offset pos) with
      | error e =>
        rw [hc] at h
        cases h
      | ok c =>
        rw [hc] at h
        cases h
        have hinside := (hx _).1 ⟨c, hc⟩
        obtain ⟨hstretch, hstand⟩ := hstands _ _ hinside.1 hc
        have hpos' := ha.lt_of_offset (hlength hcount) hinside.2
        have hoffset : (offset pos).toNat = pos := by
          rw [toNat_offset_min]
          simp only [UInt32.size] at hpos' ⊢
          omega
        exact ⟨rfl, hstretch, hoffset ▸ hstand⟩

theorem reads_rows (α : Type) [Row α] [ConfinedRow α] (count : UInt16) :
    Reads img (.rows α count) (.rows α count) (rows img α count) := by
  refine .of_offset ha Stretch.length_rows_pos (fun hcount => ?_) (fun hcount pos => ?_)
    (fun o => Image.exists_rows_iff) fun o as h0 h => ⟨rfl, ha.standsAt_rows h h0⟩
  · change count = 0 at hcount
    exact ⟨[], fun pos => if_pos hcount, rfl, fun pos => ⟨by simp [hcount], by simp⟩⟩
  · change count ≠ 0 at hcount
    rw [Stretch.stop_rows hcount]
    exact if_neg hcount

theorem reads_refs (count : UInt16) :
    Reads img (.refs count) (.refs count) (refs img count) := by
  refine .of_offset ha Stretch.length_refs_pos (fun hcount => ?_) (fun hcount pos => ?_)
    (fun o => Image.exists_refs_iff) fun o rs _ h => ⟨rfl, Image.Accepted.standsAt_refs h⟩
  · change count = 0 at hcount
    exact ⟨[], fun pos => if_pos hcount, rfl, fun pos => ⟨by simp [hcount], by simp⟩⟩
  · change count ≠ 0 at hcount
    rw [Stretch.stop_refs hcount]
    exact if_neg hcount

end Reads

section Agrees

variable (img : Image) {α β γ : Type} (l : ViewLayout α β)

/-- Behind a first row and some columns, a walk reads the rest of a view. -/
structure Agrees (head : α) (done : List Column) (next : List Stretch) (w : Walk β) : Prop where
  succeeds : ∀ pos, 0 < pos → ((∃ x, w pos = .ok x) ↔ Stretch.Fit img.bytes.size pos next)
  holds : ∀ pos, 0 < pos → ∀ b stop, w pos = .ok (b, stop) → l.row b = head ∧
    ∃ cs, l.columns b = done ++ cs ∧ cs.map Column.stretch = next ∧ Column.Stand img pos cs

variable {img l} {head : α} {done : List Column} {next : List Stretch}

theorem Agrees.pure {b : β} (hrow : l.row b = head) (hcolumns : l.columns b = done) :
    Agrees img l head done [] (Pure.pure b) := by
  refine ⟨fun pos _ => ⟨fun _ => trivial, fun _ => ⟨(b, pos), rfl⟩⟩, fun pos _ b' stop h => ?_⟩
  cases h
  exact ⟨hrow, [], by rw [hcolumns, List.append_nil], rfl, trivial⟩

/-- One more stretch in front. -/
theorem Reads.bind {s : Stretch} {column : γ → Column} {w : Walk γ} {f : γ → Walk β}
    (hw : Reads img s column w) (hf : ∀ c, Agrees img l head (done ++ [column c]) next (f c)) :
    Agrees img l head done (s :: next) (w >>= f) := by
  have hbind : ∀ pos, (w >>= f) pos = w pos >>= fun part => f part.1 part.2 := fun _ => rfl
  refine ⟨fun pos hpos => ?_, fun pos hpos b stop h => ?_⟩
  · rw [hbind, Stretch.Fit, ← hw.succeeds pos hpos]
    cases hpart : w pos with
    | error e => exact ⟨fun ⟨_, h⟩ => (nomatch h), fun ⟨⟨_, h⟩, _⟩ => (nomatch h)⟩
    | ok part =>
      obtain ⟨hstop, -, -⟩ := hw.holds pos hpos _ _ hpart
      have hnext := (hf part.1).succeeds part.2 (hstop ▸ Nat.lt_of_lt_of_le hpos (s.le_stop pos))
      rw [← hstop, ← hnext]
      exact (and_iff_right ⟨part, rfl⟩).symm
  · rw [hbind] at h
    cases hpart : w pos with
    | error e =>
      rw [hpart] at h
      cases h
    | ok part =>
      rw [hpart] at h
      obtain ⟨hstop, hstretch, hstand⟩ := hw.holds pos hpos _ _ hpart
      obtain ⟨hrow, cs, hcolumns, hnext, hrest⟩ := (hf part.1).holds part.2
        (hstop ▸ Nat.lt_of_lt_of_le hpos (s.le_stop pos)) b stop h
      refine ⟨hrow, column part.1 :: cs, by rw [hcolumns, List.append_assoc]; rfl,
        by rw [List.map_cons, hstretch, hnext], hstand, ?_⟩
      rw [hstretch, ← hstop]
      exact hrest

end Agrees

end Walk

/-! ### Views -/

def SignatureView.layout : ViewLayout SignatureRow SignatureView where
  row v := v.row
  next row := [.rows ArgRow row.argCount]
  columns v := [.rows ArgRow v.row.argCount v.args]

def EnumView.layout : ViewLayout EnumRow EnumView where
  row v := v.row
  next row := [.rows ValueRow row.valueCount]
  columns v := [.rows ValueRow v.row.valueCount v.values]

def StructView.layout : ViewLayout StructRow StructView where
  row v := v.row
  next row := [.rows FieldRow row.fieldCount, .rows FunctionRow row.methodCount]
  columns v :=
    [.rows FieldRow v.row.fieldCount v.fields, .rows FunctionRow v.row.methodCount v.methods]

def UnionView.layout : ViewLayout UnionRow UnionView where
  row v := v.row
  next row :=
    [.rows FieldRow row.fieldCount, .rows FunctionRow row.functionCount,
      .rows ConstantRow row.discriminatorCount]
  columns v :=
    [.rows FieldRow v.row.fieldCount v.fields, .rows FunctionRow v.row.functionCount v.functions,
      .rows ConstantRow v.row.discriminatorCount v.discriminators]

def ObjectView.layout : ViewLayout ObjectRow ObjectView where
  row v := v.row
  next row :=
    [.refs row.interfaceCount, .rows FieldRow row.fieldCount, .rows PropertyRow row.propertyCount,
      .rows FunctionRow row.methodCount, .rows SignalRow row.signalCount,
      .rows VFuncRow row.vfuncCount, .rows ConstantRow row.constantCount]
  columns v :=
    [.refs v.row.interfaceCount v.interfaces, .rows FieldRow v.row.fieldCount v.fields,
      .rows PropertyRow v.row.propertyCount v.properties,
      .rows FunctionRow v.row.methodCount v.methods, .rows SignalRow v.row.signalCount v.signals,
      .rows VFuncRow v.row.vfuncCount v.vfuncs, .rows ConstantRow v.row.constantCount v.constants]

def InterfaceView.layout : ViewLayout InterfaceRow InterfaceView where
  row v := v.row
  next row :=
    [.refs row.prerequisiteCount, .rows PropertyRow row.propertyCount,
      .rows FunctionRow row.methodCount, .rows SignalRow row.signalCount,
      .rows VFuncRow row.vfuncCount, .rows ConstantRow row.constantCount]
  columns v :=
    [.refs v.row.prerequisiteCount v.prerequisites,
      .rows PropertyRow v.row.propertyCount v.properties,
      .rows FunctionRow v.row.methodCount v.methods, .rows SignalRow v.row.signalCount v.signals,
      .rows VFuncRow v.row.vfuncCount v.vfuncs, .rows ConstantRow v.row.constantCount v.constants]

namespace Image

variable {α β : Type} [Row α]

/-- There is a view at an offset if and only if the first row lies inside of the file and all that
follows it does. Then the view holds the first row, and behind it column after column of the rows that
stand in their places. -/
structure Shows (img : Image) (offset : UInt32) (l : ViewLayout α β) (view : Except ReadError β) :
    Prop where
  succeeds : (∃ v, view = .ok v) ↔
    offset ≠ 0 ∧ offset.toNat + Row.width α ≤ img.bytes.size ∧
      ∃ row, img.row α offset = .ok row ∧
        Stretch.Fit img.bytes.size (offset.toNat + Row.width α) (l.next row)
  holds : ∀ v, view = .ok v → img.row α offset = .ok (l.row v) ∧
    (l.columns v).map Column.stretch = l.next (l.row v) ∧
    Column.Stand img (offset.toNat + Row.width α) (l.columns v)

theorem view_eq_ok_iff {img : Image} {offset : UInt32} {members : α → Walk β} {v : β} :
    Walk.view img offset members = .ok v ↔ ∃ head stop, img.row α offset = .ok head ∧
      members head (offset.toNat + Row.width α) = .ok (v, stop) := by
  unfold Walk.view
  cases img.row α offset with
  | error e => exact ⟨fun h => (nomatch h), fun ⟨_, _, h, _⟩ => (nomatch h)⟩
  | ok head =>
    change (members head (offset.toNat + Row.width α) >>= fun part => .ok part.1) = _ ↔ _
    cases hpart : members head (offset.toNat + Row.width α) with
    | error e =>
      refine ⟨fun h => (nomatch h), fun ⟨head', stop, hhead, h⟩ => ?_⟩
      cases hhead
      rw [hpart] at h
      cases h
    | ok part =>
      constructor
      · intro h
        cases h
        exact ⟨head, part.2, rfl, hpart⟩
      · rintro ⟨head', stop, hhead, h⟩
        cases hhead
        rw [hpart] at h
        cases h
        rfl

theorem shows_view [ConfinedRow α] {img : Image} {offset : UInt32} {l : ViewLayout α β}
    {members : α → Walk β} (h : ∀ head, Walk.Agrees img l head [] (l.next head) (members head)) :
    img.Shows offset l (Walk.view img offset members) := by
  have hpos : 0 < offset.toNat + Row.width α := Nat.lt_add_left _ ConfinedRow.width_pos
  refine ⟨⟨?_, ?_⟩, fun v hv => ?_⟩
  · rintro ⟨v, hv⟩
    obtain ⟨head, stop, hrow, hmembers⟩ := view_eq_ok_iff.1 hv
    obtain ⟨h0, hinside⟩ := exists_row_iff.1 ⟨head, hrow⟩
    exact ⟨h0, hinside, head, hrow, ((h head).succeeds _ hpos).1 ⟨_, hmembers⟩⟩
  · rintro ⟨-, -, head, hrow, hfit⟩
    obtain ⟨⟨v, stop⟩, hmembers⟩ := ((h head).succeeds _ hpos).2 hfit
    exact ⟨v, view_eq_ok_iff.2 ⟨head, stop, hrow, hmembers⟩⟩
  · obtain ⟨head, stop, hrow, hmembers⟩ := view_eq_ok_iff.1 hv
    obtain ⟨rfl, cs, hcolumns, hnext, hstand⟩ := (h head).holds _ hpos _ _ hmembers
    rw [List.nil_append] at hcolumns
    exact ⟨hrow, by rw [hcolumns, hnext], hcolumns ▸ hstand⟩

namespace Accepted

variable {img : Image} (ha : img.Accepted) (offset : UInt32)

include ha

theorem shows_signatureView : img.Shows offset SignatureView.layout (img.signatureView offset) :=
  shows_view fun _ => (Walk.reads_rows ha _ _).bind fun _ => .pure rfl rfl

theorem shows_enumView : img.Shows offset EnumView.layout (img.enumView offset) :=
  shows_view fun _ => (Walk.reads_rows ha _ _).bind fun _ => .pure rfl rfl

theorem shows_structView : img.Shows offset StructView.layout (img.structView offset) :=
  shows_view fun _ => (Walk.reads_rows ha _ _).bind fun _ =>
    (Walk.reads_rows ha _ _).bind fun _ => .pure rfl rfl

theorem shows_unionView : img.Shows offset UnionView.layout (img.unionView offset) :=
  shows_view fun _ => (Walk.reads_rows ha _ _).bind fun _ =>
    (Walk.reads_rows ha _ _).bind fun _ => (Walk.reads_rows ha _ _).bind fun _ => .pure rfl rfl

theorem shows_objectView : img.Shows offset ObjectView.layout (img.objectView offset) :=
  shows_view fun _ => (Walk.reads_refs ha _).bind fun _ => (Walk.reads_rows ha _ _).bind fun _ =>
    (Walk.reads_rows ha _ _).bind fun _ => (Walk.reads_rows ha _ _).bind fun _ =>
      (Walk.reads_rows ha _ _).bind fun _ => (Walk.reads_rows ha _ _).bind fun _ =>
        (Walk.reads_rows ha _ _).bind fun _ => .pure rfl rfl

theorem shows_interfaceView : img.Shows offset InterfaceView.layout (img.interfaceView offset) :=
  shows_view fun _ => (Walk.reads_refs ha _).bind fun _ => (Walk.reads_rows ha _ _).bind fun _ =>
    (Walk.reads_rows ha _ _).bind fun _ => (Walk.reads_rows ha _ _).bind fun _ =>
      (Walk.reads_rows ha _ _).bind fun _ => (Walk.reads_rows ha _ _).bind fun _ => .pure rfl rfl

end Accepted

end Image

variable {bytes : Bytes} {img : Image}

/-- **Views agree with reading row by row.** Wherever a view of a file that can be loaded is asked
for, there is one if and only if the offset is not 0, the first row lies inside of the file, and so do
all rows that follow it; filler behind the last of them need not. Then each row of the view is the one
in its own place. -/
theorem views_agree (h : Image.load bytes = .ok img) (offset : UInt32) :
    img.bytes = bytes ∧
      img.Shows offset SignatureView.layout (img.signatureView offset) ∧
      img.Shows offset EnumView.layout (img.enumView offset) ∧
      img.Shows offset StructView.layout (img.structView offset) ∧
      img.Shows offset UnionView.layout (img.unionView offset) ∧
      img.Shows offset ObjectView.layout (img.objectView offset) ∧
      img.Shows offset InterfaceView.layout (img.interfaceView offset) := by
  obtain ⟨hbytes, ha⟩ := Image.accepted_of_load h
  exact ⟨hbytes, ha.shows_signatureView offset, ha.shows_enumView offset,
    ha.shows_structView offset, ha.shows_unionView offset, ha.shows_objectView offset,
    ha.shows_interfaceView offset⟩

/-- The structure of a small description is read from its file, with both of its fields in their
places. -/
theorem views_agree_sample : ∃ a img offset v,
    compile "Sample" Sample.nodes (some "libsample.so") {} = .ok a ∧
      Image.load a.bytes = .ok img ∧ img.structView offset = .ok v ∧ v.fields.length = 2 ∧
      Column.Stand img (offset.toNat + Row.width StructRow) (StructView.layout.columns v) := by
  obtain ⟨a, ha⟩ := Sample.exists_compile
  obtain ⟨r, views, hload, -, -, hviews, -⟩ := compile_reading ha
  obtain ⟨view, -, hnode⟩ := hviews.exists_view (i := 0) rfl
  obtain ⟨_, e, kind, -, -, -, -, hkind, -, hview⟩ := hnode.entry
  cases hkind
  obtain ⟨v, hv, rfl⟩ := map_eq_ok hview
  obtain ⟨-, -, -, hstruct, -⟩ := views_agree hload e.offset
  exact ⟨a, r.img, e.offset, v, ha, hload, hv, hnode.reads.fields.length_eq,
    (hstruct.holds v hv).2.2⟩

end Typelib
