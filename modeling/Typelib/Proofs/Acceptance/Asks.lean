import Typelib.Proofs.Acceptance.Cells
import Typelib.Proofs.Acceptance.Names
import Typelib.Proofs.Body.Next

/-!
# What cells ask for

Writing cells resolves the names in them and promises the bodies in them. What is promised gets the
next identities, one each, and waits to be written. A cell is refused because it says so, or because
of one of its names.

* `Draft.Asks`: what a step that writes to a body leaves;
* `Build.asks_cells`, `Build.fails_cells`: how cells are written, and why they are refused.
-/

namespace Typelib

/-! ### What a step asks for -/

namespace Draft

/-- No reference leads to a body that was not promised. -/
structure Sealed (d : Draft) : Prop where
  types : ∀ (text : String) (id : BodyId), d.types[text]? = some id →
    id.toNat < d.symbols.handedOut
  relocs : ∀ reloc ∈ d.body.relocs.toList, ∀ id, reloc.target = .body id →
    id.toNat < d.symbols.handedOut

/-- A step that writes to a body keeps to the names of a description. What it promises waits, with
the next identities in order, and is among certain works. -/
structure Asks (doc : Document) (options : Options) (works : List Work) (d d' : Draft) :
    Prop where
  governs : (doc.scope options).Governs d'
  toExtends : d.Extends d'
  starts : d'.body.starts = d.body.starts
  isSealed : d.Sealed → d'.Sealed
  items : ∃ news : List (Work × BodyId), d'.queues.items.Perm (d.queues.items ++ news) ∧
    news.map Prod.snd =
      BodyId.range' d.symbols.handedOut (d'.symbols.handedOut - d.symbols.handedOut) ∧
    (news.map Prod.fst).Sublist works

variable {doc : Document} {options : Options} {works works' : List Work} {d d' d'' : Draft}

theorem Asks.trans (h : Asks doc options works d d') (h' : Asks doc options works' d' d'') :
    Asks doc options (works ++ works') d d'' where
  governs := h'.governs
  toExtends := h.toExtends.trans h'.toExtends
  starts := h'.starts.trans h.starts
  isSealed hd := h'.isSealed (h.isSealed hd)
  items := by
    obtain ⟨news, hperm, hids, hsub⟩ := h.items
    obtain ⟨news', hperm', hids', hsub'⟩ := h'.items
    have hle := h.toExtends.symbols.handedOut
    have hle' := h'.toExtends.symbols.handedOut
    refine ⟨news ++ news', ?_, ?_, ?_⟩
    · rw [← List.append_assoc]
      exact hperm'.trans (hperm.append_right _)
    · rw [List.map_append, hids, hids', BodyId.range'_append hle hle']
    · rw [List.map_append]
      exact hsub.append hsub'

/-- Names are resolved, and nothing is promised. -/
theorem Asks.names (hn : d.Names d') (hg : (doc.scope options).Governs d') :
    Asks doc options [] d d' where
  governs := hg
  toExtends := hn.toExtends
  starts := by rw [hn.body]
  isSealed hd := by
    refine ⟨fun text id ht => ?_, fun reloc hr id hid => ?_⟩
    · rw [hn.types] at ht
      exact hn.handedOut ▸ hd.types text id ht
    · rw [hn.body] at hr
      exact hn.handedOut ▸ hd.relocs reloc hr id hid
  items := ⟨[], by simp [hn.queues], by simp [hn.handedOut, BodyId.range'], List.Sublist.refl _⟩

/-- A body is promised, and then it waits. -/
theorem Asks.promise {work : Work} (hx : d.Extends d') (hg : (doc.scope options).Governs d')
    (hb : d'.body = d.body) (ha : d'.symbols.handedOut = d.symbols.handedOut + 1)
    (ht : ∀ (text : String) (id : BodyId), d'.types[text]? = some id →
      d.types[text]? = some id ∨ id = d.symbols.nextId)
    (hi : d'.queues.items.Perm (d.queues.items ++ [(work, d.symbols.nextId)])) :
    Asks doc options [work] d d' where
  governs := hg
  toExtends := hx
  starts := by rw [hb]
  isSealed hd := by
    refine ⟨fun text id h => ?_, fun reloc hr id hid => ?_⟩
    · obtain hold | rfl := ht text id h
      · exact ha ▸ Nat.lt_succ_of_lt (hd.types text id hold)
      · exact ha ▸ Nat.lt_succ_of_le d.symbols.toNat_nextId_le
    · rw [hb] at hr
      exact ha ▸ Nat.lt_succ_of_lt (hd.relocs reloc hr id hid)
  items := ⟨_, hi, by simp [ha, BodyId.range', SymbolTable.nextId], List.Sublist.refl _⟩

/-- Bytes and references are written, and nothing else changes. -/
theorem Asks.write (h : Asks doc options works d d') {body : Section}
    (hs : body.starts = d'.body.starts)
    (hr : d'.Sealed → ∀ reloc ∈ body.relocs.toList, reloc ∈ d'.body.relocs.toList ∨
      ∀ id, reloc.target = .body id → id.toNat < d'.symbols.handedOut) :
    Asks doc options works d { d' with body } where
  governs := ⟨h.governs.symbols, h.governs.options, h.governs.namespaceName, h.governs.locals,
    h.governs.externals⟩
  toExtends := h.toExtends.trans (.write _ _)
  starts := hs.trans h.starts
  isSealed hd := by
    have hd' := h.isSealed hd
    refine ⟨hd'.types, fun reloc hmem id hid => ?_⟩
    obtain hold | hnew := hr hd' reloc hmem
    · exact hd'.relocs reloc hold id hid
    · exact hnew id hid
  items := h.items

/-- Bytes are written. -/
theorem Asks.append (h : Asks doc options works d d') (bs : List UInt8) :
    Asks doc options works d { d' with body := d'.body.append bs } :=
  h.write rfl fun _ _ => .inl

/-- A reference is written. -/
theorem Asks.reference (h : Asks doc options works d d') {target : Target}
    (ht : ∀ id, target = .body id → id.toNat < d'.symbols.handedOut) :
    Asks doc options works d { d' with body := d'.body.reference target } := by
  refine h.write rfl fun _ reloc hmem => ?_
  simp only [Section.reference, Array.toList_push, List.mem_append, List.mem_singleton] at hmem
  obtain hold | rfl := hmem
  · exact .inl hold
  · exact .inr ht

end Draft

namespace Build

variable {doc : Document} {options : Options} {works : List Work} {d d' : Draft} {e : BuildError}

theorem Resolves.governs {α : Type} {x : Build α} {a : α} (hx : Resolves doc options x)
    (hd : (doc.scope options).Governs d) (h : x.Yields d a d') :
    (doc.scope options).Governs d' := h.after ▸ (hx d hd).1

/-- What does nothing but resolve names asks for nothing. -/
theorem Resolves.asks {α : Type} {x : Build α} {a : α} (hx : Resolves doc options x)
    (hn : Within Draft.Names x) (hd : (doc.scope options).Governs d) (h : x.Yields d a d') :
    d.Asks doc options [] d' := .names (hn.yields h) (hx.governs hd h)

/-! ### Types -/

theorem fails_typeBody {type : Ty} (h : (typeBody type).Fails d e) : (shape type).Fails d e := by
  unfold typeBody at h
  rw [fails_bind] at h
  obtain h | ⟨s, d₁, -, h⟩ := h
  · exact h
  · rw [fails_bind] at h
    obtain h | ⟨d₂, _, -, h⟩ := h
    · exact absurd h not_fails_get
    · -- whether the shape is known or new, nothing more can fail
      split at h
      · exact absurd h not_fails_pure
      · simp [fails_bind] at h

theorem fails_typeUse {type : Ty} (hn : ∀ name ∈ type.names, name ∈ (doc.scope options).names)
    (hd : (doc.scope options).Governs d) (h : (typeUse type).Fails d e) :
    doc.Violates options e := by
  by_cases hc : type.tag.isComplex
  · rw [typeUse_of_complex hc, fails_map] at h
    exact (resolves_shape hn d hd).2 e (fails_typeBody h)
  · cases type with
    | scalar kind p => exact absurd h not_fails_pure
    | interface name p =>
      obtain h | ⟨_, _, -, h⟩ := fails_bind.1 h
      · exact (resolves_resolve (hn name (by simp [Ty.names])) d hd).2 e h
      · exact absurd h not_fails_pure
    | array | list | slist | hash | error => exact absurd rfl hc

/-- A type asks for its own body at most, and whatever body it uses was promised. -/
theorem asks_typeUse {type : Ty} {use : TypeUse}
    (hn : ∀ name ∈ type.names, name ∈ (doc.scope options).names)
    (hd : (doc.scope options).Governs d) (h : (typeUse type).Yields d use d') :
    d.Asks doc options (Cell.type type).works d' ∧
      (d'.Sealed → ∀ id, use.body? = some id → id.toNat < d'.symbols.handedOut) := by
  by_cases hc : type.tag.isComplex
  · rw [typeUse_of_complex hc] at h
    obtain ⟨id, hbody, rfl⟩ := yields_map.1 h
    have hworks : (Cell.type type).works = [.type type] := by simp [Cell.works, hc]
    obtain ⟨d₁, hd₁, ⟨_, he⟩ | ⟨s, hshape, hrun⟩⟩ := typeBody_outcome type d
    · rw [Yields, he] at hbody
      cases hbody
    have hgov := (resolves_shape hn).governs hd hshape
    have hnames : d.Asks doc options [] d₁ := .names hd₁ hgov
    rw [hworks]
    obtain ⟨id', hid, hy⟩ | ⟨hnone, hy⟩ := hrun <;> rw [Yields, hy] at hbody <;> cases hbody
    · refine ⟨?_, fun hsealed id' he => ?_⟩
      · obtain ⟨news, hperm, hids, hsub⟩ := hnames.items
        exact { hnames with items := ⟨news, hperm, hids, hsub.trans (List.nil_sublist _)⟩ }
      · cases he
        exact hsealed.types _ _ hid
    · have hx := d₁.extends_promiseType type hnone
      refine ⟨hnames.trans (.promise hx ?_ rfl rfl (fun text' id' ht => ?_)
        (Queues.items_pushType _ _ _)), fun _ id' he => ?_⟩
      · exact hgov.mono hx hgov.symbols.allocate hgov.externals
      · simp only [Draft.promiseType, Std.TreeMap.getElem?_insert, Std.compare_eq_iff_eq] at ht
        split at ht
        · cases ht
          exact .inr rfl
        · exact .inl ht
      · cases he
        exact Nat.lt_succ_of_le d₁.symbols.toNat_nextId_le
  · rw [Bool.not_eq_true] at hc
    have hworks : (Cell.type type).works = [] := by simp [Cell.works, hc]
    rw [hworks]
    obtain ⟨hwithin, hnone⟩ := typeUse_of_not_complex hc
    refine ⟨.names (hwithin.yields h) ?_, fun _ id he => ?_⟩
    · cases type with
      | scalar kind p =>
        obtain ⟨-, rfl⟩ := yields_pure.1 h
        exact hd
      | interface name p =>
        have hr : Resolves doc options (resolve name) :=
          resolves_resolve (hn name (by simp [Ty.names]))
        exact (hr.bind fun _ => .pure _).governs hd h
      | array | list | slist | hash | error => cases hc
    · rw [hnone h] at he
      cases he

/-! ### Error types -/

theorem length_sorted_le {refs : List DirRef} (h : ∀ r ∈ refs, r ≠ .none) :
    (DirRef.sorted refs).length ≤ maxCount := by
  have hnodup : ((DirRef.sorted refs).map fun r => r.raw.toNat).Nodup := by
    rw [List.Nodup, List.pairwise_map]
    exact (DirRef.pairwise_sorted refs).imp fun hlt => Nat.ne_of_lt hlt
  have hsub : ((DirRef.sorted refs).map fun r => r.raw.toNat) ⊆ List.range' 1 maxCount := by
    intro n hmem
    obtain ⟨r, hr, rfl⟩ := List.mem_map.1 hmem
    have hne : r.raw.toNat ≠ 0 := by
      intro h0
      refine h r (DirRef.mem_sorted.1 hr) ?_
      obtain ⟨raw⟩ := r
      exact congrArg DirRef.mk (UInt16.toNat_inj.1 h0)
    have hlt := r.raw.toNat_lt
    rw [List.mem_range'_1, maxCount]
    omega
  have hle := (List.subperm_of_subset hnodup hsub).length_le
  rwa [List.length_map, List.length_range'] at hle

/-- The slots of an error type can always be counted, since each is there once. -/
theorem length_domains_le {names : List String} {refs : List DirRef} (hs : d.symbols.Sound)
    (h : (domains names).Yields d refs d') : refs.length ≤ maxCount := by
  obtain ⟨rfl, hsettled⟩ := yields_domains hs h
  refine length_sorted_le fun r hr => ?_
  obtain ⟨name, hname, rfl⟩ := List.mem_map.1 hr
  exact (hsettled name hname).ne_none

/-! ### Cells -/

theorem fails_cell {c : Cell} (hn : ∀ name ∈ c.names, name ∈ (doc.scope options).names)
    (hd : (doc.scope options).Governs d) (h : (cell c).Fails d e) :
    c = .reject e ∨ doc.Violates options e := by
  -- what is written after the names are resolved is never refused
  have put : ∀ {α : Type} {x : Build α} {f : α → Section → Section},
      (x >>= fun a => onBody (f a)).Fails d e → x.Fails d e := by
    intro α x f h
    obtain h | ⟨_, _, -, h⟩ := fails_bind.1 h
    · exact h
    · exact absurd h not_fails_onBody
  cases c with
  | byte | word16 | word32 | typeRef | raw | align => exact absurd h not_fails_onBody
  | name s => exact absurd (put h) not_fails_intern
  | optName s => exact absurd (put h) not_fails_internOpt
  | slot name =>
    exact .inr ((resolves_resolve (hn name (List.mem_singleton_self _)) d hd).2 e (put h))
  | type t => exact .inr (fails_typeUse hn hd (put h))
  | signature s | value c => simp [cell, fails_bind] at h
  | errorType flags names =>
    obtain h | ⟨refs, d₁, hrefs, h⟩ := fails_bind.1 h
    · exact .inr ((resolves_domains hn d hd).2 e h)
    · rw [if_neg (Nat.not_lt.2 (length_domains_le hd.symbols hrefs))] at h
      simp [fails_bind] at h
  | reject e' => exact .inl (congrArg Cell.reject (fails_throw.1 h))

theorem asks_cell {c : Cell} (hn : ∀ name ∈ c.names, name ∈ (doc.scope options).names)
    (hd : (doc.scope options).Governs d) (h : (cell c).Yields d () d') :
    d.Asks doc options c.works d' := by
  have plain : ∀ {f : Section → Section}, (∀ s, ∃ bs, f s = s.append bs) →
      (onBody f).Yields d () d' → d.Asks doc options [] d' := by
    intro f hf h
    obtain rfl := yields_onBody.1 h
    obtain ⟨bs, hbs⟩ := hf d.body
    rw [hbs]
    exact Draft.Asks.append (.names (.refl d) hd) bs
  cases c with
  | byte | word16 | word32 | typeRef | raw | align => exact plain (fun _ => ⟨_, rfl⟩) h
  | name s =>
    obtain ⟨offset, d₁, hs, hput⟩ := yields_bind.1 h
    obtain rfl := yields_onBody.1 hput
    exact ((resolves_intern s).asks (within_intern s) hd hs).reference (by simp)
  | optName s =>
    obtain ⟨offset, d₁, hs, hput⟩ := yields_bind.1 h
    obtain rfl := yields_onBody.1 hput
    have hasks := (resolves_internOpt s).asks (within_internOpt s) hd hs
    cases offset with
    | none => exact hasks.append _
    | some offset => exact hasks.reference (by simp)
  | slot name =>
    obtain ⟨ref, d₁, hs, hput⟩ := yields_bind.1 h
    obtain rfl := yields_onBody.1 hput
    have hr : Resolves doc options (resolve name) :=
      resolves_resolve (hn name (List.mem_singleton_self _))
    exact (hr.asks (within_resolve name) hd hs).append _
  | type t =>
    obtain ⟨use, d₁, huse, hput⟩ := yields_bind.1 h
    obtain rfl := yields_onBody.1 hput
    obtain ⟨hasks, hbody⟩ := asks_typeUse hn hd huse
    cases hb : use.body? with
    | none =>
      exact hasks.append _
    | some id =>
      refine hasks.write rfl fun hsealed reloc hmem => ?_
      simp only [Section.typeRef, Array.toList_push, List.mem_append, List.mem_singleton] at hmem
      obtain hold | rfl := hmem
      · exact .inl hold
      · refine .inr fun id' he => ?_
        cases he
        exact hbody hsealed id hb
  | signature s =>
    obtain rfl : { d.promiseSignature s with
        body := d.body.reference (.body d.symbols.nextId) } = d' := h.after
    have hx := d.extends_promiseSignature s
    have hasks : d.Asks doc options [.signature s] (d.promiseSignature s) :=
      .promise hx (hd.mono hx hd.symbols.allocate hd.externals) rfl rfl (fun _ _ => .inl)
        (Queues.items_pushSignature _ _ _)
    refine hasks.reference fun id he => ?_
    cases he
    exact Nat.lt_succ_of_le d.symbols.toNat_nextId_le
  | value c =>
    obtain rfl : { d.promiseConstant c with
        body := d.body.reference (.body d.symbols.nextId) } = d' := h.after
    have hx := d.extends_promiseConstant c
    have hasks : d.Asks doc options [.constant c] (d.promiseConstant c) :=
      .promise hx (hd.mono hx hd.symbols.allocate hd.externals) rfl rfl (fun _ _ => .inl)
        (Queues.items_pushConstant _ _ _)
    refine hasks.reference fun id he => ?_
    cases he
    exact Nat.lt_succ_of_le d.symbols.toNat_nextId_le
  | errorType flags names =>
    obtain ⟨refs, d₁, hrefs, hput⟩ := yields_bind.1 h
    have hasks := (resolves_domains hn).asks (within_domains names) hd hrefs
    split at hput
    · exact absurd hput not_yields_throw
    · obtain ⟨_, d₂, happend, halign⟩ := yields_bind.1 hput
      obtain rfl := yields_onBody.1 happend
      obtain rfl := yields_onBody.1 halign
      exact (hasks.append _).append _
  | reject e => exact absurd h not_yields_throw

/-- Cells ask for what is in them. -/
theorem asks_cells {cs : List Cell} : ∀ {d : Draft}, (doc.scope options).Governs d →
    (∀ c ∈ cs, ∀ name ∈ c.names, name ∈ (doc.scope options).names) →
    (cells cs).Yields d () d' → d.Asks doc options (cs.flatMap Cell.works) d' := by
  induction cs with
  | nil =>
    intro d hd _ h
    obtain ⟨-, rfl⟩ := yields_pure.1 h
    exact .names (.refl d) hd
  | cons c cs ih =>
    intro d hd hn h
    rw [List.forall_mem_cons] at hn
    obtain ⟨_, d₁, hc, hcs⟩ := yields_bind.1 h
    have hasks := asks_cell hn.1 hd hc
    rw [List.flatMap_cons]
    exact hasks.trans (ih hasks.governs hn.2 hcs)

/-- Cells are refused because one of them says so, or because of a name. -/
theorem fails_cells {cs : List Cell} : ∀ {d : Draft}, (doc.scope options).Governs d →
    (∀ c ∈ cs, ∀ name ∈ c.names, name ∈ (doc.scope options).names) →
    (cells cs).Fails d e → .reject e ∈ cs ∨ doc.Violates options e := by
  induction cs with
  | nil => exact fun _ _ h => absurd h not_fails_pure
  | cons c cs ih =>
    intro d hd hn h
    rw [List.forall_mem_cons] at hn
    obtain h | ⟨_, d₁, hc, hcs⟩ := fails_bind.1 h
    · obtain rfl | hv := fails_cell hn.1 hd h
      · exact .inl List.mem_cons_self
      · exact .inr hv
    · obtain hmem | hv := ih (asks_cell hn.1 hd hc).governs hn.2 hcs
      · exact .inl (List.mem_cons_of_mem _ hmem)
      · exact .inr hv

end Build

end Typelib
