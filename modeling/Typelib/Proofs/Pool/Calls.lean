import Typelib.Proofs.Guard.Follows
import Typelib.Proofs.Image.Assembled

/-!
# Calls on a string pool

A pool is built by calls that ask for the offset of a string, or of one that may be absent. Whatever
the calls are, the bytes of the pool are those of the strings in the order of first use, and each call
returns the offset that its string has at the end.

* `StringPool.run`: the calls, one after another, and what they return;
* `StringPool.Lists.run`: the strings of the pool that they leave;
* `StringPool.run_spec`: all that a sequence of calls does.
-/

namespace Typelib

namespace StringPool

/-- A call on a pool. -/
inductive Call
  | intern (s : String)
  | internOpt (s : Option String)
  deriving DecidableEq, Repr

namespace Call

/-- The string that a call asks for. -/
def string? : Call → Option String
  | intern s => some s
  | internOpt s => s

/-- The offset that a call returns, and the pool that it leaves. -/
def run (p : StringPool) : Call → Option UInt32 × StringPool
  | intern s =>
    let (offset, p) := p.intern s
    (some offset, p)
  | internOpt s => p.internOpt s

end Call

/-- The strings that calls ask for, in their order. -/
def strings (calls : List Call) : List String := calls.filterMap Call.string?

/-- What calls return, one after another, and the pool that they leave. -/
def run (p : StringPool) : List Call → List (Option UInt32) × StringPool
  | [] => ([], p)
  | call :: calls =>
    let (offset, p) := call.run p
    let (offsets, p) := p.run calls
    (offset :: offsets, p)

variable {p : StringPool} {seen : List String} {calls : List Call}

/-! ### One call -/

theorem Call.run_eq (p : StringPool) (call : Call) : call.run p = p.internOpt call.string? := by
  cases call <;> rfl

/-- A call adds its string to those that were asked for before. -/
theorem Lists.call (hp : p.Lists seen.eraseDups) (call : Call) :
    (call.run p).2.Lists (seen ++ strings [call]).eraseDups := by
  rw [Call.run_eq, strings, List.filterMap_cons]
  cases call.string? with
  | none =>
    rw [List.filterMap_nil, List.append_nil]
    exact hp
  | some s =>
    rw [List.filterMap_nil, eraseDups_concat]
    exact hp.intern s

/-- A call returns the offset that its string has from then on. -/
theorem Call.fst_run (p : StringPool) (call : Call) :
    (call.run p).1 = call.string?.bind (call.run p).2.get? := by
  rw [run_eq]
  cases call.string? with
  | none => rfl
  | some s => exact get?_internOpt p s

theorem Call.exists_get?_run (p : StringPool) {call : Call} {s : String}
    (h : call.string? = some s) : ∃ offset, (call.run p).2.get? s = some offset := by
  rw [run_eq, h]
  exact ⟨_, get?_intern p s⟩

/-! ### Many calls -/

theorem extends_run (p : StringPool) (calls : List Call) : p.Extends (p.run calls).2 := by
  induction calls generalizing p with
  | nil => exact .refl p
  | cons call calls ih =>
    have hcall : p.Extends (call.run p).2 := by
      rw [Call.run_eq]
      exact extends_internOpt p call.string?
    exact hcall.trans (ih _)

theorem Lists.run (hp : p.Lists seen.eraseDups) (calls : List Call) :
    (p.run calls).2.Lists (seen ++ strings calls).eraseDups := by
  induction calls generalizing p seen with
  | nil =>
    rw [strings, List.filterMap_nil, List.append_nil]
    exact hp
  | cons call calls ih =>
    have hstrings : seen ++ strings (call :: calls) = seen ++ strings [call] ++ strings calls := by
      rw [List.append_assoc, ← List.singleton_append, strings, List.filterMap_append]
      rfl
    rw [hstrings]
    exact ih (hp.call call)

/-- Each call returns the offset that its string has at the end. -/
theorem fst_run (p : StringPool) (calls : List Call) :
    (p.run calls).1 = calls.map fun call => call.string?.bind (p.run calls).2.get? := by
  induction calls generalizing p with
  | nil => rfl
  | cons call calls ih =>
    have hhead : (call.run p).1 = call.string?.bind ((call.run p).2.run calls).2.get? := by
      rw [Call.fst_run]
      cases hs : call.string? with
      | none => rfl
      | some s =>
        obtain ⟨offset, ho⟩ := call.exists_get?_run p hs
        exact ho.trans (extends_run _ calls s offset ho).symm
    exact congrArg₂ List.cons hhead (ih _)

/-- The pool that calls leave lists the strings in the order of first use. -/
theorem lists_run (calls : List Call) :
    (({} : StringPool).run calls).2.Lists (strings calls).eraseDups := by
  have hempty : ({} : StringPool).Lists ([] : List String).eraseDups := lists_empty
  exact hempty.run calls

theorem isSome_get?_run (calls : List Call) (s : String) :
    ((({} : StringPool).run calls).2.get? s).isSome = true ↔ s ∈ strings calls := by
  rw [Option.isSome_iff_exists, ← List.mem_eraseDups]
  constructor
  · rintro ⟨offset, ho⟩
    exact (((lists_run calls).get? s offset).1 ho).1
  · exact fun hs => ⟨_, ((lists_run calls).get? s _).2 ⟨hs, rfl⟩⟩

/-- In a pool that was not refused a string stands at its offset. -/
theorem Sound.extract (hp : p.Sound) (hv : p.bytes.size ≤ maxWord32) {s : String} {offset : UInt32}
    (h : p.get? s = some offset) :
    p.bytes.extract offset.toNat (offset.toNat + (nulTerminated s).length) =
      (nulTerminated s).toArray := by
  obtain ⟨before, after, hb, hlength⟩ := hp.toNat_offset hv h
  apply Array.toList_inj.1
  rw [Array.toList_extract, hb, ← hlength, List.append_assoc, List.extract_eq_take_drop,
    List.drop_left, Nat.add_sub_cancel_left, List.take_left]

/-- **What calls do to a new pool.** The strings stand in it in the order of first use, each once and
with a zero byte; a call returns the offset that its string has at the end. If the pool is not refused,
no two strings have one offset, each string stands at its offset, and it is read, up to its first NUL,
at the offset that it gets in any file with this pool. -/
theorem run_spec {offsets : List (Option UInt32)} (h : ({} : StringPool).run calls = (offsets, p)) :
    p.bytes.toList = (strings calls).eraseDups.flatMap nulTerminated ∧
    offsets = calls.map (fun call => call.string?.bind p.get?) ∧
    (∀ s, (p.get? s).isSome = true ↔ s ∈ strings calls) ∧
    (p.validate = .ok () → ∀ s offset, p.get? s = some offset →
      (∀ s', p.get? s' = some offset → s' = s) ∧
      p.bytes.extract offset.toNat (offset.toNat + (nulTerminated s).length) =
        (nulTerminated s).toArray ∧
      ∀ (d : Draft) (bytes : Bytes) (img : Image), d.symbols.pool = p → d.assemble = .ok bytes →
        Image.load bytes = .ok img →
        img.string (d.placement.string offset) = .ok (Text.cut s)) := by
  obtain rfl : (({} : StringPool).run calls).1 = offsets := congrArg Prod.fst h
  obtain rfl : (({} : StringPool).run calls).2 = p := congrArg Prod.snd h
  have hsound : (({} : StringPool).run calls).2.Sound := ⟨_, lists_run calls⟩
  refine ⟨(lists_run calls).bytes, fst_run _ calls, isSome_get?_run calls, ?_⟩
  intro hvalid s offset ho
  have hv := size_le_of_validate hvalid
  refine ⟨fun s' ho' => hsound.get?_inj hv ho' ho, hsound.extract hv ho, ?_⟩
  intro d bytes img hpool hassemble hload
  rw [← hpool] at ho hsound
  have hoffset : d.stringOffset s = d.placement.string offset := by
    rw [Draft.stringOffset, ho]
    rfl
  rw [← hoffset]
  exact (Draft.string_assemble hsound hassemble (Image.accepted_of_load hload).1
    (Option.isSome_of_eq_some ho)).2

end StringPool

namespace Sample

/-- A string is asked for twice, another one holds a NUL, and one is absent. -/
def calls : List StringPool.Call :=
  [.intern "Demo", .internOpt (some "a\x00b"), .internOpt none, .intern "Demo"]

/-- A draft whose strings are asked for in this way. -/
def pooled : Draft := ((Build.internOpt (some "a\x00b")).run (.new "Demo" none {})).2

end Sample

/-- The file of the draft is read. -/
theorem StringPool.run_spec_sample : ∃ bytes img,
    Sample.pooled.assemble = .ok bytes ∧ Image.load bytes = .ok img ∧
      img.string (Sample.pooled.placement.string 5) = .ok (Text.cut "a\x00b") := by
  have hrun : ({} : StringPool).run Sample.calls =
      ([some 0, some 5, none, some 0], Sample.pooled.symbols.pool) := by rfl
  have hget : Sample.pooled.symbols.pool.get? "a\x00b" = some 5 := by rfl
  have hvalid : Sample.pooled.symbols.pool.validate = .ok () := by rfl
  have hok : (Sample.pooled.assemble.toOption.bind fun bytes =>
      (Image.load bytes).toOption).isSome = true := by
    decide +kernel
  cases hbytes : Sample.pooled.assemble with
  | error e =>
    rw [hbytes] at hok
    cases hok
  | ok bytes =>
    rw [hbytes] at hok
    change (Image.load bytes).toOption.isSome = true at hok
    cases hload : Image.load bytes with
    | error e =>
      rw [hload] at hok
      cases hok
    | ok img =>
      obtain ⟨-, -, hstring⟩ := (run_spec hrun).2.2.2 hvalid _ _ hget
      exact ⟨bytes, img, rfl, hload, hstring _ _ _ rfl hbytes hload⟩

end Typelib
