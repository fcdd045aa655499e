import Typelib.Build.StringPool

/-!
# The string pool keeps what it is given

The strings of a pool stand one after another, in the order in which they were added. The offset of
a string is where it begins, up to the 32 bits of the offset, and neither the bytes nor the offset of
a string ever change.

* `StringPool.Lists`: the strings of a pool, in their order; `StringPool.Lists.intern` adds one;
* `StringPool.Extends`: all offsets are kept.
-/

namespace Typelib

/-- Only what was not there before is added to a list without repetitions. -/
theorem eraseDups_concat {α : Type} [BEq α] [LawfulBEq α] (seen : List α) (a : α) :
    (seen ++ [a]).eraseDups =
      if a ∈ seen.eraseDups then seen.eraseDups else seen.eraseDups ++ [a] := by
  rw [List.eraseDups_append]
  split
  next hmem =>
    rw [List.mem_eraseDups] at hmem
    have hold : [a].removeAll seen = [] := by simpa [List.removeAll] using hmem
    rw [hold, List.eraseDups_nil, List.append_nil]
  next hmem =>
    rw [List.mem_eraseDups] at hmem
    have hnew : [a].removeAll seen = [a] := by simpa [List.removeAll] using hmem
    rw [hnew]
    rfl

namespace StringPool

/-- Where a string begins among strings that stand one after another. This number has no bound, and
an offset may hold only its last 32 bits. -/
def position : List String → String → Nat
  | [], _ => 0
  | t :: ts, s => if t = s then 0 else (nulTerminated t).length + position ts s

/-- The strings of a pool, in the order in which they were added. -/
structure Lists (p : StringPool) (strings : List String) : Prop where
  nodup : strings.Nodup
  bytes : p.bytes.toList = strings.flatMap nulTerminated
  get? : ∀ s offset, p.get? s = some offset ↔ s ∈ strings ∧ offset = .ofNat (position strings s)

/-- The pool consists of strings, and their offsets are where they begin. -/
def Sound (p : StringPool) : Prop := ∃ strings, p.Lists strings

/-- All strings keep their offsets. -/
def Extends (p p' : StringPool) : Prop :=
  ∀ s offset, p.get? s = some offset → p'.get? s = some offset

variable {p p' p'' : StringPool}

theorem Extends.refl (p : StringPool) : p.Extends p := fun _ _ h => h

theorem Extends.trans (h : p.Extends p') (h' : p'.Extends p'') : p.Extends p'' :=
  fun s offset hs => h' s offset (h s offset hs)

theorem lists_empty : ({} : StringPool).Lists [] :=
  ⟨.nil, rfl, fun s offset => by simp [get?]⟩

theorem sound_empty : ({} : StringPool).Sound := ⟨[], lists_empty⟩

theorem size_le_of_validate (h : p.validate = .ok ()) : p.bytes.size ≤ maxWord32 := by
  by_cases hle : p.bytes.size ≤ maxWord32
  · exact hle
  · rw [validate, if_neg hle] at h
    cases h

theorem intern_of_get? {s : String} {offset : UInt32} (h : p.get? s = some offset) :
    p.intern s = (offset, p) := by
  simp only [get?] at h
  simp only [intern, h]

theorem intern_of_get?_eq_none {s : String} (h : p.get? s = none) :
    p.intern s = (.ofNat p.bytes.size,
      ⟨p.offsets.insert s (.ofNat p.bytes.size), p.bytes ++ nulTerminated s⟩) := by
  simp only [get?] at h
  simp only [intern, h]

theorem get?_intern (p : StringPool) (s : String) :
    (p.intern s).2.get? s = some (p.intern s).1 := by
  cases h : p.get? s with
  | some offset => rw [intern_of_get? h]; exact h
  | none => rw [intern_of_get?_eq_none h]; simp [get?]

theorem extends_intern (p : StringPool) (s : String) : p.Extends (p.intern s).2 := by
  intro t offset ht
  cases h : p.get? s with
  | some _ => rw [intern_of_get? h]; exact ht
  | none =>
    have hne : s ≠ t := by
      rintro rfl
      rw [h] at ht
      cases ht
    rw [intern_of_get?_eq_none h]
    simp only [get?, Std.TreeMap.getElem?_insert, Std.compare_eq_iff_eq, hne, ↓reduceIte]
    exact ht

theorem position_append {strings : List String} {s : String} (hs : s ∈ strings)
    (more : List String) : position (strings ++ more) s = position strings s := by
  induction strings with
  | nil => cases hs
  | cons t ts ih =>
    simp only [List.cons_append, position]
    split
    · rfl
    next hne =>
      rw [ih ((List.mem_cons.1 hs).resolve_left fun he => hne he.symm)]

/-- A string that is added begins where the others end. -/
theorem position_concat {strings : List String} {s : String} (hs : s ∉ strings) :
    position (strings ++ [s]) s = (strings.flatMap nulTerminated).length := by
  induction strings with
  | nil => simp [position]
  | cons t ts ih =>
    rw [List.mem_cons, not_or] at hs
    simp only [List.cons_append, position, if_neg (Ne.symm hs.1), ih hs.2, List.flatMap_cons,
      List.length_append]

/-- The strings before one that is there, itself, and those behind it. -/
theorem exists_split {strings : List String} {s : String} (hs : s ∈ strings) :
    ∃ before after, strings.flatMap nulTerminated = before ++ (nulTerminated s ++ after) ∧
      before.length = position strings s := by
  induction strings with
  | nil => cases hs
  | cons t ts ih =>
    simp only [position, List.flatMap_cons]
    split
    next he => exact ⟨[], ts.flatMap nulTerminated, by simp [he], rfl⟩
    next hne =>
      obtain ⟨before, after, hsplit, hlength⟩ :=
        ih ((List.mem_cons.1 hs).resolve_left fun he => hne he.symm)
      exact ⟨nulTerminated t ++ before, after, by simp [hsplit], by simp [hlength]⟩

theorem Lists.get?_eq_none {strings : List String} (hp : p.Lists strings) {s : String} :
    p.get? s = none ↔ s ∉ strings := by
  rw [Option.eq_none_iff_forall_ne_some]
  constructor
  · exact fun h hs => h _ ((hp.get? s _).2 ⟨hs, rfl⟩)
  · exact fun h offset hget => h ((hp.get? s offset).1 hget).1

/-- A string is added unless it is there. -/
theorem Lists.intern {strings : List String} (hp : p.Lists strings) (s : String) :
    (p.intern s).2.Lists (if s ∈ strings then strings else strings ++ [s]) := by
  split
  next hs =>
    rw [intern_of_get? ((hp.get? s _).2 ⟨hs, rfl⟩)]
    exact hp
  next hs =>
    rw [intern_of_get?_eq_none (hp.get?_eq_none.2 hs)]
    have hsize : p.bytes.size = (strings.flatMap nulTerminated).length := by
      rw [← Array.length_toList, hp.bytes]
    refine ⟨List.nodup_append.2 ⟨hp.nodup, List.pairwise_singleton _ s, ?_⟩, by simp [hp.bytes],
      fun t offset => ?_⟩
    · rintro a ha b hb rfl
      exact hs (List.mem_singleton.1 hb ▸ ha)
    · simp only [StringPool.get?, Std.TreeMap.getElem?_insert, Std.compare_eq_iff_eq,
        List.mem_append, List.mem_singleton]
      by_cases he : s = t
      · subst he
        simp only [↓reduceIte, Option.some.injEq, or_true, true_and, position_concat hs, hsize]
        exact eq_comm
      · rw [if_neg he]
        have hget := hp.get? t offset
        simp only [StringPool.get?] at hget
        rw [hget, or_iff_left (Ne.symm he)]
        exact and_congr_right fun ht => by rw [position_append ht]

theorem Sound.intern (hp : p.Sound) (s : String) : (p.intern s).2.Sound :=
  have ⟨_, h⟩ := hp
  ⟨_, h.intern s⟩

theorem Lists.position_le {strings : List String} (hp : p.Lists strings) {s : String}
    (hs : s ∈ strings) : position strings s + (nulTerminated s).length ≤ p.bytes.size := by
  obtain ⟨before, after, hsplit, hlength⟩ := exists_split hs
  have hsize := congrArg List.length (hp.bytes.trans hsplit)
  simp only [Array.length_toList, List.length_append] at hsize
  omega

/-- In a pool that was not refused an offset is where the string begins. -/
theorem Lists.toNat_offset {strings : List String} (hp : p.Lists strings)
    (hv : p.bytes.size ≤ maxWord32) {s : String} {offset : UInt32} (h : p.get? s = some offset) :
    s ∈ strings ∧ offset.toNat = position strings s := by
  obtain ⟨hs, rfl⟩ := (hp.get? s offset).1 h
  have hle := hp.position_le hs
  have hmax : maxWord32 = 4294967295 := rfl
  have hsize : UInt32.size = 4294967296 := rfl
  exact ⟨hs, UInt32.toNat_ofNat_of_lt' (by omega)⟩

theorem Sound.toNat_offset (hp : p.Sound) (hv : p.bytes.size ≤ maxWord32) {s : String}
    {offset : UInt32} (h : p.get? s = some offset) :
    ∃ before after, p.bytes.toList = before ++ nulTerminated s ++ after ∧
      before.length = offset.toNat := by
  obtain ⟨strings, hlists⟩ := hp
  obtain ⟨hs, hoffset⟩ := hlists.toNat_offset hv h
  obtain ⟨before, after, hsplit, hlength⟩ := exists_split hs
  exact ⟨before, after, by rw [hlists.bytes, hsplit, List.append_assoc], hlength.trans hoffset.symm⟩

theorem position_inj {strings : List String} {s s' : String} (hs : s ∈ strings) (hs' : s' ∈ strings)
    (he : position strings s = position strings s') : s = s' := by
  induction strings with
  | nil => cases hs
  | cons t ts ih =>
    have hpos : 0 < (nulTerminated t).length := by simp [nulTerminated]
    simp only [position] at he
    split at he <;> split at he
    next ht ht' => exact ht.symm.trans ht'
    next => omega
    next => omega
    next ht ht' =>
      exact ih ((List.mem_cons.1 hs).resolve_left fun h => ht h.symm)
        ((List.mem_cons.1 hs').resolve_left fun h => ht' h.symm) (by omega)

/-- In a pool that was not refused each string has an offset of its own. -/
theorem Sound.get?_inj (hp : p.Sound) (hv : p.bytes.size ≤ maxWord32) {s s' : String}
    {offset : UInt32} (h : p.get? s = some offset) (h' : p.get? s' = some offset) : s = s' := by
  obtain ⟨strings, hlists⟩ := hp
  obtain ⟨hs, ho⟩ := hlists.toNat_offset hv h
  obtain ⟨hs', ho'⟩ := hlists.toNat_offset hv h'
  exact position_inj hs hs' (ho.symm.trans ho')

/-! ### Strings that may be absent -/

theorem extends_internOpt (p : StringPool) (s : Option String) : p.Extends (p.internOpt s).2 := by
  cases s with
  | none => exact .refl p
  | some s => exact extends_intern p s

theorem Sound.internOpt (hp : p.Sound) (s : Option String) : (p.internOpt s).2.Sound := by
  cases s with
  | none => exact hp
  | some s => exact hp.intern s

theorem get?_internOpt (p : StringPool) (s : String) :
    (p.internOpt (some s)).1 = (p.internOpt (some s)).2.get? s := (get?_intern p s).symm

end StringPool

end Typelib
