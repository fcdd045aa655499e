import Typelib.Proofs.Build.Identity
import Typelib.Proofs.Sharing.Moves

/-!
# Shared bodies are written once

In every run that does not use up the identities, the bodies of types are kept apart from all
others, each belongs to one shape, and each waits on the queue until it is begun, once.

* `Draft.Shared`: these facts about a draft;
* `Draft.Shared.move`: every move keeps them.
-/

namespace Typelib

namespace Draft

/-- How often a body waits on the queue of types. -/
def waiting (d : Draft) (id : BodyId) : Nat := (d.queues.types.toList.map Prod.snd).count id

/-- The number of times that a body was begun, which is 0 or 1. -/
def begun (d : Draft) (id : BodyId) : Nat := (d.body.startOf? id).isSome.toNat

/-- The body is that of some shape. -/
def Shares (d : Draft) (id : BodyId) : Prop := ∃ text : String, d.types[text]? = some id

/-- The body was promised to something else than a type. -/
inductive Elsewhere (d : Draft) (id : BodyId) : Prop
  | entry {name : String} {symbol : Symbol} : d.symbols.lookup name = some symbol →
      symbol.id = id → Elsewhere d id
  | signature {item : Signature × BodyId} : item ∈ d.queues.signatures.toList → item.2 = id →
      Elsewhere d id
  | constant {item : ConstantDecl × BodyId} : item ∈ d.queues.constants.toList → item.2 = id →
      Elsewhere d id

/-- Bodies of types belong to one shape each, and are queued and begun once. -/
structure Shared (d : Draft) : Prop where
  symbols : d.symbols.Sound
  shares_lt : ∀ id, d.Shares id → id.toNat < d.symbols.handedOut
  begun_lt : ∀ id, d.begun id ≠ 0 → id.toNat < d.symbols.handedOut
  elsewhere_lt : ∀ id, d.Elsewhere id → id.toNat < d.symbols.handedOut
  injective : ∀ (text text' : String) (id : BodyId), d.types[text]? = some id →
    d.types[text']? = some id → text = text'
  once : ∀ id, d.Shares id → d.waiting id + d.begun id = 1
  queued : ∀ item ∈ d.queues.types.toList, d.Shares item.2
  apart : ∀ id, d.Elsewhere id → ¬ d.Shares id

variable {d d' : Draft}

theorem Elsewhere.mono {id : BodyId} (h : d.Elsewhere id)
    (hl : ∀ name symbol, d.symbols.lookup name = some symbol →
      d'.symbols.lookup name = some symbol)
    (hs : ∀ item ∈ d.queues.signatures.toList, item ∈ d'.queues.signatures.toList)
    (hc : ∀ item ∈ d.queues.constants.toList, item ∈ d'.queues.constants.toList) :
    d'.Elsewhere id := by
  cases h with
  | entry h he => exact .entry (hl _ _ h) he
  | signature h he => exact .signature (hs _ h) he
  | constant h he => exact .constant (hc _ h) he

theorem Elsewhere.of_eq {id : BodyId} (h : d.Elsewhere id)
    (hl : d'.symbols.locals = d.symbols.locals) (hs : d'.queues.signatures = d.queues.signatures)
    (hc : d'.queues.constants = d.queues.constants) : d'.Elsewhere id := by
  refine h.mono (fun name symbol hn => ?_) (fun _ hm => hs ▸ hm) fun _ hm => hc ▸ hm
  rwa [SymbolTable.lookup, hl]

/-- Neither the bodies of types nor their queue change, and what is promised is new. -/
theorem Shared.frame (h : d.Shared) (hs : d'.symbols.Sound) (ht : d'.types = d.types)
    (hq : d'.queues.types = d.queues.types) (hb : d'.body.starts = d.body.starts)
    (ha : d.symbols.handedOut ≤ d'.symbols.handedOut)
    (he : ∀ id, d'.Elsewhere id →
      d.Elsewhere id ∨ d.symbols.handedOut ≤ id.toNat ∧ id.toNat < d'.symbols.handedOut) :
    d'.Shared := by
  have shares : ∀ id, d'.Shares id ↔ d.Shares id := by simp only [Shares, ht, implies_true]
  have begun : ∀ id, d'.begun id = d.begun id := by
    intro id
    simp only [Draft.begun, Section.startOf?, hb]
  have waiting : ∀ id, d'.waiting id = d.waiting id := by
    intro id
    simp only [Draft.waiting, hq]
  constructor
  · exact hs
  · exact fun id hid => Nat.lt_of_lt_of_le (h.shares_lt id ((shares id).1 hid)) ha
  · exact fun id hid => Nat.lt_of_lt_of_le (h.begun_lt id (begun id ▸ hid)) ha
  · intro id hid
    obtain hid | ⟨-, hlt⟩ := he id hid
    · exact Nat.lt_of_lt_of_le (h.elsewhere_lt id hid) ha
    · exact hlt
  · rw [ht]
    exact h.injective
  · intro id hid
    rw [waiting, begun]
    exact h.once id ((shares id).1 hid)
  · intro item hitem
    rw [hq] at hitem
    exact (shares _).2 (h.queued item hitem)
  · intro id hid hshares
    have hshares := (shares id).1 hshares
    obtain hid | ⟨hle, -⟩ := he id hid
    · exact h.apart id hid hshares
    · exact absurd hle (Nat.not_le_of_lt (h.shares_lt id hshares))

theorem begun_begin (d : Draft) (id id' : BodyId) :
    (d.begin id).begun id' = if id = id' then 1 else d.begun id' := by
  simp only [begun, begin, Section.startOf?_start]
  split <;> rfl

/-- A body is begun that is not one of a type. -/
theorem Shared.begin (h : d.Shared) {id : BodyId} (hid : id.toNat < d.symbols.handedOut)
    (hn : ¬ d.Shares id) : (d.begin id).Shared where
  symbols := h.symbols
  shares_lt := h.shares_lt
  begun_lt id' hid' := by
    rw [begun_begin] at hid'
    by_cases he : id = id'
    · exact he ▸ hid
    · rw [if_neg he] at hid'
      exact h.begun_lt id' hid'
  elsewhere_lt id' hid' :=
    h.elsewhere_lt id' (hid'.of_eq rfl rfl rfl)
  injective := h.injective
  once id' hid' := by
    have hne : id ≠ id' := by
      rintro rfl
      exact hn hid'
    rw [begun_begin, if_neg hne]
    exact h.once id' hid'
  queued := h.queued
  apart id' hid' := h.apart id' (hid'.of_eq rfl rfl rfl)

/-- The next type is taken from the queue, and its body is begun. -/
theorem Shared.beginType (h : d.Shared) {type : Ty} {id : BodyId} {queues : Queues}
    (hp : d.queues.popType? = some ((type, id), queues)) :
    ({ d with queues }.begin id).Shared := by
  obtain ⟨hlist, hsig, hconst⟩ := Queues.popType?_eq_some hp
  have hshares : d.Shares id := h.queued (type, id) (by simp [hlist])
  have elsewhere : ∀ id', ({ d with queues }.begin id).Elsewhere id' → d.Elsewhere id' := by
    intro id' hid'
    exact hid'.of_eq rfl hsig.symm hconst.symm
  have waiting : ∀ id', d.waiting id' =
      ({ d with queues }.begin id).waiting id' + if id = id' then 1 else 0 := by
    intro id'
    simp only [Draft.waiting, hlist, List.map_cons, List.count_cons, beq_iff_eq]
    rfl
  constructor
  · exact h.symbols
  · exact h.shares_lt
  · intro id' hid'
    rw [begun_begin] at hid'
    by_cases he : id = id'
    · exact he ▸ h.shares_lt id hshares
    · rw [if_neg he] at hid'
      exact h.begun_lt id' hid'
  · exact fun id' hid' => h.elsewhere_lt id' (elsewhere id' hid')
  · exact h.injective
  · intro id' hid'
    have honce := h.once id' hid'
    rw [waiting] at honce
    rw [begun_begin]
    by_cases he : id = id'
    · subst he
      simp only [↓reduceIte] at honce ⊢
      omega
    · rw [if_neg he, Nat.add_zero] at honce
      rw [if_neg he]
      exact honce
  · exact fun item hitem => h.queued item (hlist ▸ List.mem_cons_of_mem _ hitem)
  · exact fun id' hid' => h.apart id' (elsewhere id' hid')

theorem getElem?_types_promiseType (type : Ty) {text : String} (hnone : d.types[text]? = none)
    (text' : String) (id : BodyId) :
    (d.promiseType type text).types[text']? = some id ↔
      text = text' ∧ d.symbols.nextId = id ∨ d.types[text']? = some id := by
  simp only [promiseType, Std.TreeMap.getElem?_insert, Std.compare_eq_iff_eq]
  by_cases he : text = text'
  · subst he
    simp [hnone]
  · simp [he]

theorem shares_promiseType (type : Ty) {text : String} (hnone : d.types[text]? = none)
    (id : BodyId) :
    (d.promiseType type text).Shares id ↔ d.symbols.nextId = id ∨ d.Shares id := by
  simp only [Shares, getElem?_types_promiseType type hnone]
  constructor
  · rintro ⟨text', ⟨-, hid⟩ | hid⟩
    · exact .inl hid
    · exact .inr ⟨text', hid⟩
  · rintro (hid | ⟨text', hid⟩)
    · exact ⟨text, .inl ⟨rfl, hid⟩⟩
    · exact ⟨text', .inr hid⟩

theorem waiting_promiseType (d : Draft) (type : Ty) (text : String) (id : BodyId) :
    (d.promiseType type text).waiting id =
      d.waiting id + if d.symbols.nextId = id then 1 else 0 := by
  have hlist : (d.promiseType type text).queues.types.toList =
      d.queues.types.toList ++ [(type, d.symbols.nextId)] := Fifo.toList_push _ _
  simp only [waiting, hlist, List.map_append, List.count_append, List.map_cons, List.map_nil,
    List.count_singleton, beq_iff_eq]

/-! While identities are left, the next one is new: no type has it, and nothing with it was queued or
begun. -/

theorem Shared.not_shares_nextId (h : d.Shared) (hfew : d.symbols.handedOut < UInt32.size) :
    ¬ d.Shares d.symbols.nextId :=
  fun hid => Nat.not_lt_of_le (SymbolTable.nextId_new hfew).1 (h.shares_lt _ hid)

theorem Shared.waiting_nextId (h : d.Shared) (hfew : d.symbols.handedOut < UInt32.size) :
    d.waiting d.symbols.nextId = 0 := by
  rw [waiting, List.count_eq_zero, List.mem_map]
  rintro ⟨item, hitem, he⟩
  exact h.not_shares_nextId hfew (he ▸ h.queued item hitem)

theorem Shared.begun_nextId (h : d.Shared) (hfew : d.symbols.handedOut < UInt32.size) :
    d.begun d.symbols.nextId = 0 := by
  by_contra hne
  exact Nat.not_lt_of_le (SymbolTable.nextId_new hfew).1 (h.begun_lt _ hne)

/-- A type is the first of its shape. -/
theorem Shared.promiseType (h : d.Shared) (hfew : d.symbols.handedOut < UInt32.size) (type : Ty)
    {text : String} (hnone : d.types[text]? = none) : (d.promiseType type text).Shared := by
  have types := getElem?_types_promiseType type hnone
  have shares := shares_promiseType type hnone
  have hfresh := h.not_shares_nextId hfew
  have hnew := SymbolTable.nextId_new hfew
  have elsewhere : ∀ id, (d.promiseType type text).Elsewhere id → d.Elsewhere id :=
    fun id hid => hid.of_eq rfl rfl rfl
  constructor
  · exact h.symbols.allocate
  · intro id hid
    obtain rfl | hid := (shares id).1 hid
    · exact hnew.2
    · exact Nat.lt_succ_of_lt (h.shares_lt id hid)
  · exact fun id hid => Nat.lt_succ_of_lt (h.begun_lt id hid)
  · exact fun id hid => Nat.lt_succ_of_lt (h.elsewhere_lt id (elsewhere id hid))
  · -- the text was not known, and its identity was nobody's
    intro text₁ text₂ id h₁ h₂
    rcases (types text₁ id).1 h₁ with ⟨rfl, he⟩ | h₁ <;>
      rcases (types text₂ id).1 h₂ with ⟨rfl, he'⟩ | h₂
    · rfl
    · exact absurd ⟨text₂, he ▸ h₂⟩ hfresh
    · exact absurd ⟨text₁, he' ▸ h₁⟩ hfresh
    · exact h.injective text₁ text₂ id h₁ h₂
  · intro id hid
    rw [waiting_promiseType, show (d.promiseType type text).begun id = d.begun id from rfl]
    obtain rfl | hid := (shares id).1 hid
    · rw [h.waiting_nextId hfew, h.begun_nextId hfew, if_pos rfl]
    · have hne : d.symbols.nextId ≠ id := by
        rintro rfl
        exact hfresh hid
      rw [if_neg hne]
      exact h.once id hid
  · intro item hitem
    obtain hitem | rfl := Fifo.mem_push hitem
    · exact (shares _).2 (.inr (h.queued item hitem))
    · exact (shares _).2 (.inl rfl)
  · intro id hid hshares
    have hid := elsewhere id hid
    obtain rfl | hshares := (shares id).1 hshares
    · exact Nat.not_lt_of_le hnew.1 (h.elsewhere_lt _ hid)
    · exact h.apart id hid hshares

/-- The body of a signature is promised. -/
theorem Shared.promiseSignature (h : d.Shared) (hfew : d.symbols.handedOut < UInt32.size)
    (s : Signature) : (d.promiseSignature s).Shared := by
  refine h.frame h.symbols.allocate rfl rfl rfl (Nat.le_succ _) fun id hid => ?_
  cases hid with
  | entry hl he => exact .inl (.entry hl he)
  | signature hm he =>
    obtain hm | rfl := Fifo.mem_push hm
    · exact .inl (.signature hm he)
    · subst he
      exact .inr (SymbolTable.nextId_new hfew)
  | constant hm he => exact .inl (.constant hm he)

/-- The body of a constant is promised. -/
theorem Shared.promiseConstant (h : d.Shared) (hfew : d.symbols.handedOut < UInt32.size)
    (c : ConstantDecl) : (d.promiseConstant c).Shared := by
  refine h.frame h.symbols.allocate rfl rfl rfl (Nat.le_succ _) fun id hid => ?_
  cases hid with
  | entry hl he => exact .inl (.entry hl he)
  | signature hm he => exact .inl (.signature hm he)
  | constant hm he =>
    obtain hm | rfl := Fifo.mem_push hm
    · exact .inl (.constant hm he)
    · subst he
      exact .inr (SymbolTable.nextId_new hfew)

/-- A signature is taken from its queue. -/
theorem Shared.popSignature (h : d.Shared) {item : Signature × BodyId} {queues : Queues}
    (hp : d.queues.popSignature? = some (item, queues)) : { d with queues }.Shared := by
  obtain ⟨hlist, htypes, hconst⟩ := Queues.popSignature?_eq_some hp
  refine h.frame h.symbols rfl htypes rfl (Nat.le_refl _) fun id hid => .inl ?_
  refine hid.mono (fun _ _ hl => hl) (fun _ hm => ?_) fun _ hm => hconst ▸ hm
  exact hlist ▸ List.mem_cons_of_mem _ hm

/-- A constant is taken from its queue. -/
theorem Shared.popConstant (h : d.Shared) {item : ConstantDecl × BodyId} {queues : Queues}
    (hp : d.queues.popConstant? = some (item, queues)) : { d with queues }.Shared := by
  obtain ⟨hlist, htypes, hsig⟩ := Queues.popConstant?_eq_some hp
  refine h.frame h.symbols rfl htypes rfl (Nat.le_refl _) fun id hid => .inl ?_
  refine hid.mono (fun _ _ hl => hl) (fun _ hm => hsig ▸ hm) fun _ hm => ?_
  exact hlist ▸ List.mem_cons_of_mem _ hm

/-- A local entry is registered, and gets the next identity. -/
theorem Shared.register (h : d.Shared) (hfew : d.symbols.handedOut < UInt32.size) (name : String)
    (kind : EntryKind) : Shared { d with symbols := (d.symbols.register name kind).2 } := by
  have hs := h.symbols.register name kind
  obtain ⟨e, he⟩ | ⟨-, -, ⟨ref, -, he⟩ | ⟨-, he⟩⟩ := SymbolTable.register_eq d.symbols name kind <;>
    rw [he] at hs ⊢
  · exact h
  · refine h.frame hs rfl rfl rfl (Nat.le_succ _) fun id hid => ?_
    cases hid with
    | @entry n symbol hl he =>
      simp only [SymbolTable.lookup, Std.TreeMap.getElem?_insert, Std.compare_eq_iff_eq] at hl
      split at hl
      · cases hl
        subst he
        exact .inr (SymbolTable.nextId_new hfew)
      · exact .inl (.entry hl he)
    | signature hm he => exact .inl (.signature hm he)
    | constant hm he => exact .inl (.constant hm he)
  · exact h.frame hs rfl rfl rfl (Nat.le_succ _) fun id hid =>
      .inl (hid.of_eq rfl rfl rfl)

/-- Every move keeps the bodies of types apart and counted, while identities are left. -/
theorem Shared.move {reg : Bool} {es : List Event} (h : d.Shared)
    (hfew : d.symbols.handedOut < UInt32.size) (hm : Move reg d es d') : d'.Shared := by
  have hs := hm.sound h.symbols
  cases hm with
  | names hn =>
    refine h.frame hs hn.types (by rw [hn.queues]) (by rw [hn.body]) hn.symbols.handedOut
      fun id hid => .inl ?_
    exact hid.of_eq hn.symbols.locals.symm (by rw [hn.queues]) (by rw [hn.queues])
  | register name kind _ => exact h.register hfew name kind
  | allocate =>
    exact h.frame hs rfl rfl rfl (Nat.le_succ _) fun id hid =>
      .inl (hid.of_eq rfl rfl rfl)
  | share => exact h
  | type _ hnone => exact h.promiseType hfew _ hnone
  | signature s => exact h.promiseSignature hfew s
  | constant c => exact h.promiseConstant hfew c
  | write hb =>
    exact h.frame hs rfl rfl hb (Nat.le_refl _) fun id hid =>
      .inl (hid.of_eq rfl rfl rfl)
  | beginEntry hl => exact h.begin (h.elsewhere_lt _ (.entry hl rfl)) (h.apart _ (.entry hl rfl))
  | beginType hp => exact h.beginType hp
  | @beginSignature signature id queues hp =>
    have hid : d.Elsewhere id :=
      .signature (by rw [(Queues.popSignature?_eq_some hp).1]; exact List.mem_cons_self) rfl
    exact (h.popSignature hp).begin (h.elsewhere_lt id hid) (h.apart id hid)
  | @beginConstant constant id queues hp =>
    have hid : d.Elsewhere id :=
      .constant (by rw [(Queues.popConstant?_eq_some hp).1]; exact List.mem_cons_self) rfl
    exact (h.popConstant hp).begin (h.elsewhere_lt id hid) (h.apart id hid)
  | refuseSignature hp => exact h.popSignature hp
  | refuseConstant hp => exact h.popConstant hp

theorem Shared.moves {reg : Bool} {es : List Event} (h : d.Shared) (hm : Moves reg d es d')
    (hfew : d'.symbols.handedOut < UInt32.size) : d'.Shared := by
  induction hm with
  | nil => exact h
  | cons hmove hrest ih =>
    have hle := Nat.le_trans hmove.handedOut hrest.handedOut
    exact ih (h.move (Nat.lt_of_le_of_lt hle hfew) hmove) hfew

end Draft

end Typelib
