import Mathlib.Data.List.Nodup
import Mathlib.Data.List.Perm.Subperm
import Typelib.Build.Section
import Typelib.Build.SymbolTable

/-!
# Identities of bodies

Identities are words that are handed out one after another. The number of those that were handed out
has no bound, so they begin again when there are no more words. Until then all of them differ.

* `BodyId.range'`: identities that are handed out one after another;
* `Section.bodyCount_eq_iff`: bodies are counted by their identities;
* `SymbolTable.toNat_nextId`: the next identity tells how many were handed out before it.
-/

namespace Typelib

namespace BodyId

/-- The `n` identities that are handed out after `start` others. -/
def range' (start n : Nat) : List BodyId := (List.range' start n).map .ofNat

@[simp] theorem range'_zero (start : Nat) : range' start 0 = [] := rfl

theorem range'_succ (start n : Nat) :
    range' start (n + 1) = .ofNat start :: range' (start + 1) n := by
  rw [range', List.range'_succ, List.map_cons, range']

theorem range'_append {a b c : Nat} (hab : a ≤ b) (hbc : b ≤ c) :
    range' a (b - a) ++ range' b (c - b) = range' a (c - a) := by
  obtain ⟨m, rfl⟩ := Nat.exists_eq_add_of_le hab
  obtain ⟨n, rfl⟩ := Nat.exists_eq_add_of_le hbc
  rw [Nat.add_sub_cancel_left, Nat.add_sub_cancel_left, Nat.add_assoc, Nat.add_sub_cancel_left,
    range', range', range', ← List.map_append, List.range'_append_1]

variable {start n : Nat}

theorem mem_range' (h : start + n ≤ UInt32.size) {id : BodyId} :
    id ∈ range' start n ↔ start ≤ id.toNat ∧ id.toNat < start + n := by
  rw [range', List.mem_map]
  constructor
  · rintro ⟨k, hk, rfl⟩
    have hk := List.mem_range'_1.1 hk
    have hnat : (UInt32.ofNat k).toNat = k := UInt32.toNat_ofNat_of_lt (by omega)
    rwa [hnat]
  · intro hid
    exact ⟨id.toNat, List.mem_range'_1.2 hid, UInt32.ofNat_toNat⟩

/-- As long as there are words left, no identity is handed out twice. -/
theorem nodup_range' (h : start + n ≤ UInt32.size) : (range' start n).Nodup := by
  refine List.Nodup.map_on (fun a ha b hb hsame => ?_) List.nodup_range'
  have ha := List.mem_range'_1.1 ha
  have hb := List.mem_range'_1.1 hb
  have hnat : (UInt32.ofNat a).toNat = a := UInt32.toNat_ofNat_of_lt (by omega)
  have hnat' : (UInt32.ofNat b).toNat = b := UInt32.toNat_ofNat_of_lt (by omega)
  rw [← hnat, hsame, hnat']

theorem count_range' (h : start + n ≤ UInt32.size) (id : BodyId) :
    (range' start n).count id = if start ≤ id.toNat ∧ id.toNat < start + n then 1 else 0 := by
  split
  next hid => exact List.count_eq_one_of_mem (nodup_range' h) ((mem_range' h).2 hid)
  next hid => exact List.count_eq_zero.2 fun hmem => hid ((mem_range' h).1 hmem)

end BodyId

namespace Section

variable {s : Section} {n : Nat}

theorem mem_starts {id : BodyId} : id ∈ s.starts.keys ↔ ∃ start, s.startOf? id = some start := by
  rw [Std.TreeMap.mem_keys, Std.TreeMap.mem_iff_isSome_getElem?, Option.isSome_iff_exists, startOf?]

/-- Bodies with identities less than a number are as many as the number if and only if all of these
identities have bodies, as long as words can count them. -/
theorem bodyCount_eq_iff (hn : n ≤ UInt32.size)
    (h : ∀ id start, s.startOf? id = some start → id.toNat < n) :
    s.bodyCount = n ↔ ∀ id : BodyId, id.toNat < n → ∃ start, s.startOf? id = some start := by
  have hrange (id : BodyId) : id ∈ BodyId.range' 0 n ↔ id.toNat < n := by
    rw [BodyId.mem_range' (by omega), Nat.zero_add]
    exact and_iff_right (Nat.zero_le _)
  have hnodup : (BodyId.range' 0 n).Nodup := BodyId.nodup_range' (by omega)
  have hlength : (BodyId.range' 0 n).length = n := by
    rw [BodyId.range', List.length_map, List.length_range']
  have hcount : s.starts.keys.length = s.bodyCount := Std.TreeMap.length_keys
  constructor
  · intro hc id hid
    have hsub : s.starts.keys ⊆ BodyId.range' 0 n := by
      intro key hkey
      obtain ⟨start, hs⟩ := mem_starts.1 hkey
      exact (hrange key).2 (h key start hs)
    -- there are as many starts as identities, so no identity is left out
    have hperm := (List.subperm_of_subset Std.TreeMap.nodup_keys hsub).perm_of_length_le (by omega)
    exact mem_starts.1 (hperm.mem_iff.2 ((hrange id).2 hid))
  · intro hall
    have hperm : s.starts.keys.Perm (BodyId.range' 0 n) := by
      rw [List.perm_ext_iff_of_nodup Std.TreeMap.nodup_keys hnodup]
      intro id
      rw [mem_starts, hrange]
      exact ⟨fun ⟨start, hs⟩ => h id start hs, hall id⟩
    rw [← hcount, hperm.length_eq, hlength]

end Section

namespace SymbolTable

theorem toNat_nextId_le (t : SymbolTable) : t.nextId.toNat ≤ t.handedOut := by
  rw [nextId, UInt32.toNat_ofNat']
  exact Nat.mod_le _ _

/-- While there are fresh identities, the next one tells how many were handed out. -/
theorem toNat_nextId {t : SymbolTable} (h : t.handedOut < UInt32.size) :
    t.nextId.toNat = t.handedOut :=
  UInt32.toNat_ofNat_of_lt h

/-- The next identity is none of those that were handed out, and the last one after that. -/
theorem nextId_new {t : SymbolTable} (h : t.handedOut < UInt32.size) :
    t.handedOut ≤ t.nextId.toNat ∧ t.nextId.toNat < t.handedOut + 1 := by
  rw [toNat_nextId h]
  exact ⟨Nat.le_refl _, Nat.lt_succ_self _⟩

end SymbolTable

end Typelib
