import Typelib.Proofs.Body.Count
import Typelib.Proofs.Sharing.Invariant

/-!
# Identities that are lost

An identity is used up when it is handed out, whatever becomes of it. Its body is then begun, or
waits, or is that of an entry whose turn may still come. No move of a draft accounts for more
identities than it hands out. So once there are more identities than that, some body is never begun,
and the draft can not be put together any more. When all identities were handed out, the count of them
begins again, and no identity is told from a lost one.

* `Draft.accounted`: the identities that are accounted for;
* `Draft.Move.accounted_le`: what a move does to their number;
* `Draft.Lost`: an identity is lost, for good.
-/

namespace Typelib

/-! ### Counting -/

theorem List.countP_lt_of_mem {α : Type} {p q : α → Bool} {l : List α} {a : α}
    (h : ∀ x ∈ l, p x = true → q x = true) (ha : a ∈ l) (hp : p a = false) (hq : q a = true) :
    l.countP p < l.countP q := by
  induction l with
  | nil => cases ha
  | cons x l ih =>
    rw [List.forall_mem_cons] at h
    have hle : l.countP p ≤ l.countP q := List.countP_mono_left h.2
    rw [List.countP_cons, List.countP_cons]
    rcases List.mem_cons.1 ha with rfl | ha
    · simp only [hp, hq, Bool.false_eq_true, ↓reduceIte]
      omega
    · have hlt := ih h.2 ha
      have hhead : (if p x = true then 1 else 0) ≤ if q x = true then 1 else 0 := by
        by_cases hx : p x = true
        · rw [if_pos hx, if_pos (h.1 hx)]
        · rw [if_neg hx]
          exact Nat.zero_le _
      exact Nat.add_lt_add_of_lt_of_le hlt hhead

namespace Draft

/-- The name is that of an entry whose body was not begun. -/
def isDue (d : Draft) (name : String) : Bool :=
  (d.symbols.lookup name).all fun s => (d.body.startOf? s.id).isNone

/-- The number of entries whose bodies were not begun. -/
def entriesDue (d : Draft) : Nat := d.symbols.localNames.toList.countP d.isDue

/-- The number of identities that are accounted for: their bodies were begun, or wait, or are those
of entries. -/
def accounted (d : Draft) : Nat := d.body.bodyCount + d.queues.waiting + d.entriesDue

variable {reg : Bool} {d d' : Draft} {es : List Event} {work : Work} {id : BodyId} {queues : Queues}

/-- Only what is begun changes which entries are due. -/
theorem entriesDue_congr (hl : d'.symbols.localNames = d.symbols.localNames)
    (hs : d'.symbols.locals = d.symbols.locals) (hb : d'.body.starts = d.body.starts) :
    d'.entriesDue = d.entriesDue := by
  have hdue : d'.isDue = d.isDue := by
    funext name
    simp only [isDue, SymbolTable.lookup, hs, Section.startOf?, hb]
  rw [entriesDue, entriesDue, hl, hdue]

theorem isDue_begin {id : BodyId} {name : String} (h : (d.begin id).isDue name = true) :
    d.isDue name = true := by
  simp only [isDue, begin, Section.startOf?_start] at h ⊢
  cases hs : d.symbols.lookup name with
  | none => rfl
  | some s =>
    rw [hs, Option.all_some] at h
    split at h
    · cases h
    · exact h

theorem entriesDue_begin_le (d : Draft) (id : BodyId) : (d.begin id).entriesDue ≤ d.entriesDue :=
  List.countP_mono_left fun _ _ => isDue_begin

/-- The body of an entry is begun for the first time. -/
theorem entriesDue_begin_lt (hs : d.symbols.Sound) {name : String} {s : Symbol}
    (hl : d.symbols.lookup name = some s) (hnone : d.body.startOf? s.id = none) :
    (d.begin s.id).entriesDue < d.entriesDue := by
  refine List.countP_lt_of_mem (fun _ _ => isDue_begin) (hs.mem_localNames.2 ⟨s, hl⟩) ?_ ?_
  · simp [isDue, hl, begin, Section.startOf?_start]
  · simp [isDue, hl, hnone]

/-- One body that is begun accounts for at most one identity more. -/
theorem accounted_begin_le (d : Draft) (id : BodyId) :
    (d.begin id).accounted ≤ d.accounted + 1 := by
  have hcount : (d.begin id).body.bodyCount = _ := d.body.bodyCount_start id
  have hdue := d.entriesDue_begin_le id
  have hqueues : (d.begin id).queues = d.queues := rfl
  rw [accounted, accounted, hqueues]
  split at hcount <;> omega

/-- The body of an entry was accounted for before it is begun. -/
theorem accounted_begin_entry (hs : d.symbols.Sound) {name : String} {s : Symbol}
    (hl : d.symbols.lookup name = some s) : (d.begin s.id).accounted ≤ d.accounted := by
  have hcount : (d.begin s.id).body.bodyCount = _ := d.body.bodyCount_start s.id
  have hqueues : (d.begin s.id).queues = d.queues := rfl
  rw [accounted, accounted, hqueues]
  cases hnone : d.body.startOf? s.id with
  | none =>
    have hdue := entriesDue_begin_lt hs hl hnone
    rw [hnone] at hcount
    simp only [Option.isNone_none, ↓reduceIte] at hcount
    omega
  | some start =>
    have hdue := d.entriesDue_begin_le s.id
    rw [hnone] at hcount
    simp only [Option.isNone_some, Bool.false_eq_true, ↓reduceIte] at hcount
    omega

/-- One more name is that of at most one more entry that is due. -/
theorem entriesDue_register_le {t : SymbolTable} {name : String} {s : Symbol}
    (hnone : d.symbols.locals[name]? = none) (hs : t.locals = d.symbols.locals.insert name s)
    (hl : t.localNames = d.symbols.localNames.push name) :
    ({ d with symbols := t } : Draft).entriesDue ≤ d.entriesDue + 1 := by
  simp only [entriesDue, hl, Array.toList_push, List.countP_append]
  refine Nat.add_le_add (List.countP_mono_left fun n _ hn => ?_) List.countP_le_length
  simp only [isDue, SymbolTable.lookup, hs, Std.TreeMap.getElem?_insert,
    Std.compare_eq_iff_eq] at hn ⊢
  split at hn
  next hsame =>
    rw [← hsame, hnone]
    rfl
  next => exact hn

/-- A registered entry has an identity of its own. -/
theorem accounted_register_le (d : Draft) (name : String) (kind : EntryKind) :
    ({ d with symbols := (d.symbols.register name kind).2 } : Draft).accounted +
        d.symbols.handedOut ≤
      d.accounted + (d.symbols.register name kind).2.handedOut := by
  obtain ⟨e, he⟩ | ⟨hnone, -, ⟨ref, -, he⟩ | ⟨-, he⟩⟩ :=
    SymbolTable.register_eq d.symbols name kind
  · rw [congrArg Prod.snd he]
  · have hdue := entriesDue_register_le (t := (d.symbols.register name kind).2) hnone
      (by rw [he]) (by rw [he])
    have hcount : (d.symbols.register name kind).2.handedOut = d.symbols.handedOut + 1 := by
      rw [he]
      rfl
    simp only [accounted] at hdue ⊢
    omega
  · rw [congrArg Prod.snd he]
    change d.accounted + _ ≤ _ + (d.symbols.handedOut + 1)
    omega

/-- The identity of a body that is promised is accounted for, since the body waits. -/
theorem accounted_promise (hs : d'.symbols = d.symbols.allocate.2) (hb : d'.body = d.body)
    (hw : d'.queues.waiting = d.queues.waiting + 1) :
    d'.accounted + d.symbols.handedOut ≤ d.accounted + d'.symbols.handedOut := by
  have hdue : d'.entriesDue = d.entriesDue :=
    entriesDue_congr (by rw [hs]; rfl) (by rw [hs]; rfl) (by rw [hb])
  have hcount : d'.symbols.handedOut = d.symbols.handedOut + 1 := by
    rw [hs]
    rfl
  rw [accounted, accounted, hdue, hb, hw, hcount]
  omega

/-- A body that is taken from its queue is not accounted for. -/
theorem accounted_pops (h : Build.Pops d.queues work id queues) :
    ({ d with queues } : Draft).accounted + 1 = d.accounted := by
  have hw := h.waiting
  change d.body.bodyCount + queues.waiting + d.entriesDue + 1 = _
  rw [accounted, hw]
  omega

/-- When it is begun it is accounted for again. -/
theorem accounted_begin_popped (h : Build.Pops d.queues work id queues) :
    ({ d with queues }.begin id).accounted ≤ d.accounted :=
  accounted_pops h ▸ accounted_begin_le { d with queues } id

/-- A move accounts for no more identities than it hands out. -/
theorem Move.accounted_le (h : Move reg d es d') (hs : d.symbols.Sound) :
    d'.accounted + d.symbols.handedOut ≤ d.accounted + d'.symbols.handedOut := by
  cases h with
  | names h =>
    have hdue := entriesDue_congr h.symbols.localNames h.symbols.locals (by rw [h.body])
    rw [accounted, accounted, hdue, h.queues, h.body, h.handedOut]
  | register name kind => exact d.accounted_register_le name kind
  | allocate => exact Nat.add_le_add_left (Nat.le_succ _) _
  | share => exact Nat.le_refl _
  | type => exact accounted_promise rfl rfl (d.queues.waiting_pushType _ _)
  | signature => exact accounted_promise rfl rfl (d.queues.waiting_pushSignature _ _)
  | constant => exact accounted_promise rfl rfl (d.queues.waiting_pushConstant _ _)
  | @write body hb =>
    have hdue : ({ d with body } : Draft).entriesDue = d.entriesDue := entriesDue_congr rfl rfl hb
    have hcount : body.bodyCount = d.body.bodyCount := by rw [Section.bodyCount, hb]; rfl
    simp only [accounted, hdue, hcount, Nat.le_refl]
  | beginEntry hl => exact Nat.add_le_add_right (accounted_begin_entry hs hl) _
  | beginType hp =>
    exact Nat.add_le_add_right (accounted_begin_popped (.type hp)) _
  | beginSignature hp =>
    exact Nat.add_le_add_right (accounted_begin_popped (.signature hp)) _
  | beginConstant hp =>
    exact Nat.add_le_add_right (accounted_begin_popped (.constant hp)) _
  | refuseSignature hp =>
    exact Nat.add_le_add_right (Nat.le.intro (accounted_pops (.signature hp))) _
  | refuseConstant hp =>
    exact Nat.add_le_add_right (Nat.le.intro (accounted_pops (.constant hp))) _

theorem Moves.accounted_le (h : Moves reg d es d') (hs : d.symbols.Sound) :
    d'.accounted + d.symbols.handedOut ≤ d.accounted + d'.symbols.handedOut := by
  induction h with
  | nil => exact Nat.le_refl _
  | cons hm _ ih =>
    have hfirst := hm.accounted_le hs
    have hrest := ih (hm.sound hs)
    omega

/-! ### Lost identities -/

/-- More identities were handed out than are accounted for, or than there are. -/
def Lost (d : Draft) : Prop :=
  UInt32.size ≤ d.symbols.handedOut ∨ d.accounted < d.symbols.handedOut

/-- What is lost stays lost. -/
theorem Lost.moves (h : d.Lost) (hm : Moves reg d es d') (hs : d.symbols.Sound) : d'.Lost := by
  have hle := hm.accounted_le hs
  have hmore := hm.handedOut
  unfold Lost at h ⊢
  omega

end Draft

end Typelib
