import Mathlib.Tactic.SplitIfs
import Typelib.Build.StringPool

/-!
# Texts in front of their first NUL

A file ends each string with a zero byte, so all that it can hold of a text is the part in front of
its first NUL. `Text.cut` is that part; `Text.nulTerminated_eq` says that the first zero byte comes
right after it.
-/

namespace Typelib.Text

/-- The part of a text in front of its first NUL. -/
def cut (s : String) : String := String.ofList (s.toList.takeWhile (· != '\x00'))

theorem toBytes_eq (s : String) : toBytes s = s.toList.flatMap String.utf8EncodeChar := by
  rw [toBytes, String.toUTF8, ← String.utf8Encode_toList, List.utf8Encode, List.data_toByteArray]

theorem toBytes_ofList (cs : List Char) :
    toBytes (String.ofList cs) = cs.flatMap String.utf8EncodeChar := by
  rw [toBytes_eq, String.toList_ofList]

theorem ofBytes?_toBytes (s : String) : ofBytes? (toBytes s).toArray = some s := by
  have h : (⟨(toBytes s).toArray⟩ : ByteArray) = s.toByteArray := rfl
  rw [ofBytes?, h, String.fromUTF8?, dif_pos s.isValidUTF8]
  rfl

theorem utf8EncodeChar_nul : String.utf8EncodeChar '\x00' = [0] := by decide

theorem ne_zero_of_mem_utf8EncodeChar {c : Char} (hc : c ≠ '\x00') {b : UInt8}
    (h : b ∈ String.utf8EncodeChar c) : b ≠ 0 := by
  have hv : c.val.toNat ≠ 0 := fun h0 => hc (Char.ext (UInt32.toNat_inj.1 h0))
  have ofNat_ne : ∀ n, 0 < n % 256 → b = .ofNat n → b ≠ 0 := by
    rintro n hn rfl h0
    have := congrArg UInt8.toNat h0
    rw [UInt8.toNat_ofNat'] at this
    simp at this
    omega
  simp only [String.utf8EncodeChar] at h
  split_ifs at h <;> simp only [List.mem_cons, List.not_mem_nil, or_false] at h
  · exact ofNat_ne _ (by omega) h
  · rcases h with h | h <;> exact ofNat_ne _ (by omega) h
  · rcases h with h | h | h <;> exact ofNat_ne _ (by omega) h
  · rcases h with h | h | h | h <;> exact ofNat_ne _ (by omega) h

theorem flatMap_utf8EncodeChar_eq (cs : List Char) :
    ∃ rest, cs.flatMap String.utf8EncodeChar ++ [0] =
      (cs.takeWhile (· != '\x00')).flatMap String.utf8EncodeChar ++ 0 :: rest := by
  induction cs with
  | nil => exact ⟨[], rfl⟩
  | cons c cs ih =>
    by_cases hc : c = '\x00'
    · exact ⟨cs.flatMap String.utf8EncodeChar ++ [0], by simp [hc, utf8EncodeChar_nul]⟩
    · obtain ⟨rest, hrest⟩ := ih
      refine ⟨rest, ?_⟩
      rw [List.takeWhile_cons_of_pos (by simpa using hc), List.flatMap_cons, List.flatMap_cons,
        List.append_assoc, hrest, List.append_assoc]

/-- The first zero byte of a stored text comes right after what is held of it. -/
theorem nulTerminated_eq (s : String) :
    ∃ rest, nulTerminated s = toBytes (cut s) ++ 0 :: rest ∧ ∀ b ∈ toBytes (cut s), b ≠ 0 := by
  obtain ⟨rest, hrest⟩ := flatMap_utf8EncodeChar_eq s.toList
  rw [nulTerminated, toBytes_eq, cut, toBytes_ofList]
  refine ⟨rest, hrest, fun b hb => ?_⟩
  obtain ⟨c, hc, hbc⟩ := List.mem_flatMap.1 hb
  have hne : (c != '\x00') = true :=
    List.all_eq_true.1 (List.all_takeWhile (p := (· != '\x00')) (l := s.toList)) c hc
  exact ne_zero_of_mem_utf8EncodeChar (by simpa using hne) hbc

/-- A text without a NUL is held whole. -/
theorem cut_eq_self {s : String} (h : '\x00' ∉ s.toList) : cut s = s := by
  have hall : ∀ c ∈ s.toList, (c != '\x00') = true := by
    intro c hc
    rw [bne_iff_ne]
    rintro rfl
    exact h hc
  have hwhole : (s.toList ++ []).takeWhile (· != '\x00') =
      s.toList ++ [].takeWhile (· != '\x00') := List.takeWhile_append_of_pos hall
  rw [List.append_nil, List.takeWhile_nil, List.append_nil] at hwhole
  rw [cut, hwhole, String.ofList_toList]

end Typelib.Text
