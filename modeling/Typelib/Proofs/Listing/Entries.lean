import Typelib.Proofs.Listing.Members

/-!
# Entries as text

The members of an entry are shown group by group, in the order of the description.

* `Scope.covers_node`: all names of a node are referred to;
* `Legend.entry`: a local entry is shown as the node that it is made from.
-/

namespace Typelib

/-- Where all names of a node are known, those of its links and of its types are. -/
theorem Scope.covers_node {s : Scope} {node : Node} (h : ∀ name ∈ node.names, name ∈ s.names) :
    (∀ name ∈ node.links, name ∈ s.names) ∧ (∀ t ∈ node.memberTypes, s.Covers t) ∧
      (∀ c ∈ node.constants, s.Covers c.type) ∧
      ∀ signature ∈ node.signatures, ∀ t ∈ signature.types, s.Covers t := by
  have types : ∀ t ∈ node.types, s.Covers t := fun t ht name hn =>
    h name (List.mem_append_right _ (List.mem_flatMap.2 ⟨t, ht, hn⟩))
  simp only [Node.types, List.mem_append, List.mem_map, List.mem_flatMap] at types
  refine ⟨fun name hn => h name (List.mem_append_left _ hn), fun t ht => types t (.inl (.inl ht)),
    fun c hc => types c.type (.inl (.inr ⟨c, hc, rfl⟩)),
    fun signature hs t ht => types t (.inr ⟨signature, hs, ht⟩)⟩

theorem map_eq_ok {ε α β : Type} {x : Except ε α} {f : α → β} {b : β} (h : x.map f = .ok b) :
    ∃ a, x = .ok a ∧ f a = b := by
  cases x with
  | ok a => exact ⟨a, rfl, Except.ok.inj h⟩
  | error e => cases h

theorem groups_eq_ok {xs : List (Except ReadError (List String))} {ls : List (List String)}
    (h : List.Forall₂ (fun x l => x = .ok l) xs ls) : Dump.groups xs = .ok ls.flatten := by
  have hall : xs.mapM id = .ok ls := mapM_eq_ok h
  rw [Dump.groups, read_bind hall]
  rfl

namespace Legend

open Listing

variable {s : Scope} {r : Reading} {d : Dump}

section Groups

variable (h : Legend s r d)
include h

theorem fields {rows : List FieldRow} {fs : List FieldDecl} (hr : List.Forall₂ r.ReadsField rows fs)
    (hc : ∀ t ∈ fs.map FieldDecl.type, s.Covers t) :
    rows.mapM d.field = .ok (fs.map s.fieldLine) :=
  mapM_rows hr fun _ _ hf hrow => h.field hrow (hc _ (List.mem_map_of_mem hf))

theorem properties {rows : List PropertyRow} {ps : List PropertyDecl}
    (hr : List.Forall₂ r.ReadsProperty rows ps)
    (hc : ∀ t ∈ ps.map PropertyDecl.type, s.Covers t) :
    rows.mapM d.property = .ok (ps.map s.propertyLine) :=
  mapM_rows hr fun _ _ hp hrow => h.property hrow (hc _ (List.mem_map_of_mem hp))

theorem constants {rows : List ConstantRow} {cs : List ConstantDecl}
    (hr : List.Forall₂ r.ReadsConstant rows cs) (hc : ∀ c ∈ cs, s.Covers c.type) :
    rows.mapM d.constant = .ok (cs.map s.constantLine) :=
  mapM_rows hr fun _ c hmem hrow => h.constant hrow (hc c hmem)

theorem values {rows : List ValueRow} {vs : List ValueDecl}
    (hr : List.Forall₂ r.ReadsValue rows vs) : rows.mapM d.value = .ok (vs.map valueLine) :=
  mapM_rows hr fun _ _ _ hrow => h.value hrow

theorem methods {owner : Owner} {rows : List FunctionRow} {fs : List FunctionDecl}
    (hr : List.Forall₂ (r.ReadsFunction owner) rows fs)
    (hc : ∀ sig ∈ fs.map FunctionDecl.signature, ∀ t ∈ sig.types, s.Covers t) :
    rows.mapM d.method = .ok (fs.map s.methodLine) :=
  mapM_rows hr fun _ _ hf hrow => h.method hrow (hc _ (List.mem_map_of_mem hf))

theorem signals {owner : Owner} {rows : List SignalRow} {ds : List SignalDecl}
    (hr : List.Forall₂ (r.ReadsSignal owner) rows ds)
    (hc : ∀ sig ∈ ds.map SignalDecl.signature, ∀ t ∈ sig.types, s.Covers t) :
    rows.mapM d.signal = .ok (ds.map s.signalLine) :=
  mapM_rows hr fun _ _ hd hrow => h.signal hrow (hc _ (List.mem_map_of_mem hd))

theorem vfuncs {owner : Owner} {rows : List VFuncRow} {vs : List VFuncDecl}
    (hr : List.Forall₂ (r.ReadsVFunc owner) rows vs)
    (hc : ∀ sig ∈ vs.map VFuncDecl.signature, ∀ t ∈ sig.types, s.Covers t) :
    rows.mapM d.vfunc = .ok (vs.map s.vfuncLine) :=
  mapM_rows hr fun _ _ hv hrow => h.vfunc hrow (hc _ (List.mem_map_of_mem hv))

theorem discriminator {view : UnionView} {u : UnionDecl} (hr : r.ReadsUnion view u)
    (hc : ∀ disc, u.discriminator = some disc → s.Covers disc.type) :
    (if view.row.head.flags.toNat.testBit RegisteredHead.discriminatedBit then do
        let type ← d.type view.row.discriminatorType
        return ["  discriminator " ++ type ++ " @ " ++ toString view.row.discriminatorOffset.toInt]
      else .ok [] : Except ReadError (List String)) =
      .ok (u.discriminator.toList.map s.discriminatorLine) := by
  have hflag : view.row.head.flags.toNat.testBit RegisteredHead.discriminatedBit =
      u.discriminator.isSome := hr.head.flags RegisteredHead.discriminatedBit
  have hdisc := hr.discriminator
  rw [hflag]
  cases hu : u.discriminator with
  | none => rfl
  | some disc =>
    rw [hu] at hdisc
    rw [if_pos Option.isSome_some, read_bind (h.type hdisc.2 (hc disc hu)), hdisc.1]
    rfl

/-- The slot of an object without a parent is empty, and shown by no line. -/
theorem parent {ref : DirRef} {name : Option String} (hr : r.ReadsParent ref name)
    (hn : ∀ n ∈ name.toList, n ∈ s.names) :
    d.slots "parent" (if ref.isNone then [] else [ref]) = s.linkLines "parent" name.toList := by
  cases name with
  | none =>
    rw [show ref = .none from hr]
    rfl
  | some name =>
    have hmem := hn name (List.mem_singleton_self _)
    have hslot := h.slot name hmem
    rw [← hr.1] at hslot
    obtain ⟨i, hi, -⟩ := Option.bind_eq_some_iff.1 hslot
    have hsome : ref.isNone = false := by
      cases hnone : ref.isNone with
      | false => rfl
      | true => simp [DirRef.index?, hnone] at hi
    rw [hsome]
    exact h.links "parent" (.cons hr .nil) hn

end Groups

/-! ### Entries -/

section Entries

variable (h : Legend s r d) {offset : UInt32}
include h

theorem union {v : UnionView} {u : UnionDecl} (hv : d.img.unionView offset = .ok v)
    (hr : r.ReadsUnion v u) (hn : ∀ name ∈ (Node.union u).names, name ∈ s.names) :
    d.entry .union offset = .ok (s.nodeLines (.union u)) := by
  obtain ⟨-, htypes, hconstants, hsignatures⟩ := Scope.covers_node hn
  simp only [Node.memberTypes, List.forall_mem_append] at htypes
  have hdisc := h.discriminator hr fun disc hdisc => htypes.1 _ (by simp [hdisc])
  rw [Dump.entry, read_bind hv, groups_eq_ok (.cons (h.gtype hr.head)
    (.cons (h.fields hr.fields htypes.2) (.cons (h.methods hr.methods hsignatures)
      (.cons hdisc (.cons (h.constants hr.discriminators hconstants) .nil)))))]
  simp [Scope.nodeLines]

theorem object {v : ObjectView} {o : ObjectDecl} (hv : d.img.objectView offset = .ok v)
    (hr : r.ReadsObject v o) (hn : ∀ name ∈ (Node.object o).names, name ∈ s.names) :
    d.entry .object offset = .ok (s.nodeLines (.object o)) := by
  obtain ⟨hlinks, htypes, hconstants, hsignatures⟩ := Scope.covers_node hn
  simp only [Node.links, Node.memberTypes, Node.signatures, List.forall_mem_append]
    at hlinks htypes hsignatures
  rw [Dump.entry, read_bind hv]
  simp only [h.parent hr.parent hlinks.1, h.links "implements" hr.interfaces hlinks.2]
  rw [groups_eq_ok (.cons (h.gtype hr.head) (.cons rfl (.cons rfl
    (.cons (h.fields hr.fields htypes.1) (.cons (h.properties hr.properties htypes.2)
      (.cons (h.methods hr.methods hsignatures.1.1)
        (.cons (h.signals hr.signals hsignatures.1.2)
          (.cons (h.vfuncs hr.vfuncs hsignatures.2)
            (.cons (h.constants hr.constants hconstants) .nil)))))))))]
  simp [Scope.nodeLines]

theorem interface {v : InterfaceView} {i : InterfaceDecl} (hv : d.img.interfaceView offset = .ok v)
    (hr : r.ReadsInterface v i) (hn : ∀ name ∈ (Node.interface i).names, name ∈ s.names) :
    d.entry .interface offset = .ok (s.nodeLines (.interface i)) := by
  obtain ⟨hlinks, htypes, hconstants, hsignatures⟩ := Scope.covers_node hn
  simp only [Node.signatures, List.forall_mem_append] at hsignatures
  rw [Dump.entry, read_bind hv]
  simp only [h.links "requires" hr.prerequisites hlinks]
  rw [groups_eq_ok (.cons (h.gtype hr.head) (.cons rfl
    (.cons (h.properties hr.properties htypes) (.cons (h.methods hr.methods hsignatures.1.1)
      (.cons (h.signals hr.signals hsignatures.1.2)
        (.cons (h.vfuncs hr.vfuncs hsignatures.2)
          (.cons (h.constants hr.constants hconstants) .nil)))))))]
  simp [Scope.nodeLines]

/-- A local entry is shown as the node that it is made from. -/
theorem entry {kind : EntryKind} {view : EntryView} {node : Node}
    (hkind : node.entryKind? = some kind) (hview : d.img.view offset kind = .ok view)
    (hr : r.ReadsEntry view node) (hn : ∀ name ∈ node.names, name ∈ s.names) :
    d.entry kind offset = .ok (s.nodeLines node) := by
  obtain ⟨hlinks, htypes, hconstants, hsignatures⟩ := Scope.covers_node hn
  cases node with
  | function f =>
    cases hkind
    obtain ⟨row, hrow, rfl⟩ := map_eq_ok hview
    have hf := h.function "fn" hr (hsignatures f.signature (List.mem_singleton_self _))
    rw [Dump.entry, read_bind hrow, read_bind (h.string hr.symbol), read_bind hf]
    rfl
  | callback c =>
    cases hkind
    obtain ⟨row, hrow, rfl⟩ := map_eq_ok hview
    have hcall := h.callable hr.name hr.signature
      (hsignatures c.signature (List.mem_singleton_self _))
    rw [Dump.entry, read_bind hrow, read_bind hcall]
    rfl
  | enum e | flags e =>
    cases hkind
    obtain ⟨v, hv, rfl⟩ := map_eq_ok hview
    rw [Dump.entry, read_bind hv,
      groups_eq_ok (.cons (h.gtype hr.head) (.cons (h.values hr.values) .nil))]
    simp [Scope.nodeLines]
  | struct e | boxed e =>
    cases hkind
    obtain ⟨v, hv, rfl⟩ := map_eq_ok hview
    rw [Dump.entry, read_bind hv, groups_eq_ok (.cons (h.gtype hr.head)
      (.cons (h.fields hr.fields htypes) (.cons (h.methods hr.methods hsignatures) .nil)))]
    simp [Scope.nodeLines]
  | union u =>
    cases hkind
    obtain ⟨v, hv, rfl⟩ := map_eq_ok hview
    exact h.union hv hr hn
  | object o =>
    cases hkind
    obtain ⟨v, hv, rfl⟩ := map_eq_ok hview
    exact h.object hv hr hn
  | interface i =>
    cases hkind
    obtain ⟨v, hv, rfl⟩ := map_eq_ok hview
    exact h.interface hv hr hn
  | constant c =>
    cases hkind
    obtain ⟨row, hrow, rfl⟩ := map_eq_ok hview
    have hc := h.constant hr (hconstants c (List.mem_singleton_self _))
    rw [Dump.entry, read_bind hrow, read_bind hc]
    rfl
  | errorDomain e =>
    cases hkind
    obtain ⟨row, hrow, rfl⟩ := map_eq_ok hview
    rw [Dump.entry, read_bind hrow, read_bind (h.string hr.getQuark),
      h.nameOf_readsSlot hr.codes (hlinks e.codes (List.mem_singleton_self _))]
    rfl
  | _ => cases hkind

end Entries

end Legend

end Typelib
