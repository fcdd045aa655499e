import Mathlib.Data.List.FinRange
import Typelib.Proofs.Listing.Document
import Typelib.Proofs.Symbols.Drafts

/-!
# Names in the file of any draft

However the slots of a draft came about, each slot of another namespace was asked for by some name.
So the directory lists what these names mention, in this order, and what holds of a directory that
lists names holds of every draft.

* `Draft.exists_lists`: names that a directory lists;
* `Legend.exists_dump`: a file can be shown if its nodes are read back.
-/

namespace Typelib

/-! ### Names that are listed -/

/-- Nothing is dropped where nothing occurs twice. -/
theorem eraseDups_of_nodup {α : Type} [BEq α] [LawfulBEq α] {as : List α} (h : as.Nodup) :
    as.eraseDups = as := by
  induction as with
  | nil => rfl
  | cons a as ih =>
    obtain ⟨hnew, h⟩ := List.nodup_cons.1 h
    have hkeep : (as.filter fun b => !b == a) = as := by
      rw [List.filter_eq_self]
      intro b hb
      have hne : b ≠ a := fun he => hnew (he ▸ hb)
      simpa using hne
    rw [List.eraseDups_cons, hkeep, ih h]

namespace SymbolTable.Meant

variable {t : SymbolTable}

/-- Each slot behind those of the local entries was asked for by a name. -/
theorem exists_name (hm : t.Meant) (hs : t.Sound) {i : Nat} (hle : t.localNames.size ≤ i)
    (hlt : i < t.slots.size) :
    ∃ (name : String) (p : String × String) (ref : DirRef), t.meaning name = .external p.1 p.2 ∧
      DirRef.ofIndex? i = some ref ∧ t.externals[Scope.qualified p]? = some ref := by
  obtain ⟨ns, symbol, -, ref, -, -, -, -, href, hk⟩ :=
    hs.foreignSlot i t.slots[i] hle (Array.getElem?_eq_getElem hlt)
  obtain ⟨name, ns', symbol', hmeaning, hkey⟩ := hm _ ref hk
  refine ⟨name, (ns', symbol'), ref, hmeaning, href, ?_⟩
  rw [Scope.qualified, ← hkey]
  exact hk

/-- Some names mention the entries of all slots behind those of the local entries, in their order.
-/
theorem exists_mentions (hm : t.Meant) (hs : t.Sound) {s : Scope}
    (hns : t.namespaceName = s.namespaceName) (hlocals : t.localNames.toList = s.locals) :
    ∃ names : List String, (∀ name ∈ names, t.slotOf name ≠ .none) ∧
      t.slots.size = s.locals.length + (s.mentions names).length ∧
      ∀ (j : Nat) (p : String × String), (s.mentions names)[j]? = some p →
        ∃ ref, DirRef.ofIndex? (s.locals.length + j) = some ref ∧
          t.externals[Scope.qualified p]? = some ref := by
  have hlength : t.localNames.size = s.locals.length := by rw [← hlocals, Array.length_toList]
  obtain ⟨count, hcount⟩ := Nat.exists_eq_add_of_le hs.count
  have found (j : Fin count) := hm.exists_name hs (i := t.localNames.size + j)
    (Nat.le_add_right _ _) (by omega)
  choose name pair ref hmeaning href hkey using found
  have hforeign (j : Fin count) : s.foreign? (name j) = some (pair j) :=
    (Scope.meaning_eq_external hs hns hlocals).1 (hmeaning j)
  -- the slots are different, and so are the entries
  have hinjective : Function.Injective pair := by
    intro j j' he
    have hr := hkey j
    rw [he, hkey j'] at hr
    have hj := href j
    rw [← Option.some.inj hr] at hj
    have hsame := DirRef.ofIndex?_inj hj (href j')
    exact Fin.ext (by omega)
  have hpairs : (List.ofFn name).filterMap s.foreign? = List.ofFn pair := by
    rw [List.ofFn_eq_map, List.filterMap_map, List.ofFn_eq_map, ← List.filterMap_eq_map]
    exact congrArg (List.filterMap · _) (funext hforeign)
  have hmentions : s.mentions (List.ofFn name) = List.ofFn pair := by
    rw [Scope.mentions, hpairs, eraseDups_of_nodup (List.nodup_ofFn.2 hinjective)]
  refine ⟨List.ofFn name, List.forall_mem_ofFn_iff.2 fun j => ?_, ?_, fun j p hj => ?_⟩
  · have hk := hkey j
    rw [Scope.qualified] at hk
    simp only [slotOf, hmeaning j, hk, Option.getD_some]
    exact DirRef.ne_none_of_ofIndex? (href j)
  · rw [hmentions, List.length_ofFn, ← hlength, hcount]
  · rw [hmentions, List.getElem?_ofFn] at hj
    split at hj
    next hlt =>
      cases hj
      exact ⟨ref ⟨j, hlt⟩, hlength ▸ href ⟨j, hlt⟩, hkey ⟨j, hlt⟩⟩
    next => cases hj

end SymbolTable.Meant

namespace Draft

variable {d : Draft}

/-- The directory of a draft lists what some names mention, among them any names that have slots. -/
theorem exists_lists (hs : d.symbols.Sound) (hm : d.symbols.Meant) (hq : d.queues.isEmpty = true)
    {names : List String} (hnames : ∀ name ∈ names, d.symbols.slotOf name ≠ .none) :
    ∃ s : Scope, s.locals = d.symbols.localNames.toList ∧ s.Lists s.names [] d ∧
      (∀ name ∈ names, name ∈ s.names) ∧ ∀ name ∈ s.names, d.symbols.slotOf name ≠ .none := by
  let s₀ : Scope := ⟨d.symbols.namespaceName, d.symbols.localNames.toList, d.options, []⟩
  obtain ⟨firsts, hfirsts, hsize, hslot⟩ := hm.exists_mentions hs (s := s₀) rfl rfl
  -- every key is that of an entry that is mentioned
  have known {key : String} {r : DirRef} (hk : d.symbols.externals[key]? = some r) :
      ∃ p ∈ s₀.mentions firsts, Scope.qualified p = key := by
    obtain ⟨i, hle, hlt, hi⟩ := hs.known _ r hk
    have hlength : s₀.locals.length = d.symbols.localNames.size := Array.length_toList
    obtain ⟨j, rfl⟩ := Nat.exists_eq_add_of_le (hlength ▸ hle)
    have hj : j < (s₀.mentions firsts).length := by omega
    obtain ⟨ref, href, hk'⟩ := hslot j _ (List.getElem?_eq_getElem hj)
    rw [hi] at href
    cases href
    exact ⟨_, List.getElem_mem hj, hs.injective _ _ _ hk' hk⟩
  have hmentions : s₀.mentions (firsts ++ names) = s₀.mentions firsts := by
    refine Scope.mentions_append_of_subset fun name hn p hp => ?_
    have hne := hnames name hn
    rw [SymbolTable.slotOf, (Scope.meaning_eq_external hs rfl rfl).2 hp] at hne
    cases hk : d.symbols.externals[p.1 ++ "." ++ p.2]? with
    | none => simp [hk] at hne
    | some r =>
      obtain ⟨q, hq, he⟩ := known hk
      obtain ⟨n, -, hforeign⟩ := Scope.mem_mentions.1 hq
      have hparts := SymbolTable.qualified_inj (Scope.foreign?_dotless hforeign)
        (Scope.foreign?_dotless hp) he
      exact (Prod.ext hparts.1 hparts.2 : q = p) ▸ hq
  obtain ⟨htypes, hsignatures⟩ : d.queues.types.toList = [] ∧ d.queues.signatures.toList = [] := by
    simp only [Queues.isEmpty, Queues.waiting, beq_iff_eq] at hq
    constructor <;> rw [← List.length_eq_zero_iff, Fifo.length_toList] <;> omega
  let s : Scope := { s₀ with names := firsts ++ names }
  have hlists : s.Lists firsts [] d := by
    refine ⟨⟨hs, rfl, rfl, rfl, fun key r hk => ?_⟩, hsize, hslot, ?_, ?_⟩
    · obtain ⟨p, hp, rfl⟩ := known hk
      exact List.mem_map_of_mem (Scope.mem_foreigns.2 (Scope.mem_mentions.1 hp))
    · simp [htypes]
    · simp [hsignatures]
  refine ⟨s, rfl, hlists.congr hmentions (by simp [htypes]), fun name hn => ?_, fun name hn => ?_⟩
  · exact List.mem_append_right _ hn
  · exact (List.mem_append.1 hn).elim (hfirsts name) (hnames name)

end Draft

/-! ### Files that can be shown -/

/-- Each of some things is read. -/
theorem exists_mapM_eq_ok {ε α β : Type} {f : α → Except ε β} {as : List α}
    (h : ∀ a ∈ as, ∃ b, f a = .ok b) : ∃ bs, as.mapM f = .ok bs := by
  induction as with
  | nil => exact ⟨[], rfl⟩
  | cons a as ih =>
    rw [List.forall_mem_cons] at h
    obtain ⟨b, hb⟩ := h.1
    obtain ⟨bs, hbs⟩ := ih h.2
    refine ⟨b :: bs, ?_⟩
    rw [List.mapM_cons, read_bind hb, read_bind hbs]
    rfl

namespace Image

variable {img : Image}

/-- A file can be shown, in any colours, if its names and its entries can be. -/
theorem exists_dump {palette : Palette} {names : List String} {ns : String}
    {library : Option String}
    (hnames : (img.entries.mapM fun (r, _) => img.entryName r) = .ok names)
    (hns : img.namespaceName = .ok ns) (hlibrary : img.sharedLibrary = .ok library)
    (hentries : ∀ x ∈ img.entries,
      ∃ lines, Dump.localEntry ⟨img, names.toArray, palette⟩ x.1 x.2 = .ok lines) :
    ∃ text, img.dump palette = .ok text := by
  obtain ⟨lines, hlines⟩ := exists_mapM_eq_ok hentries
  obtain ⟨header, hheader⟩ :
      ∃ header, Dump.headerLines ⟨img, names.toArray, palette⟩ = .ok header := by
    rw [Dump.headerLines, read_bind hns, read_bind hlibrary]
    exact ⟨_, rfl⟩
  obtain ⟨entries, hlocal⟩ :
      ∃ entries, Dump.entryLines ⟨img, names.toArray, palette⟩ = .ok entries := by
    rw [Dump.entryLines, read_bind hlines]
    exact ⟨_, rfl⟩
  exact ⟨_, (read_bind hnames).trans ((read_bind hheader).trans (read_bind hlocal))⟩

end Image

/-- A file that lists nodes and entries of other namespaces can be shown, if the nodes are read back
and their names are among those that are listed. -/
theorem Legend.exists_dump {s : Scope} {r : Reading} {palette : Palette} {nodes : List Node}
    {ns : String} {library : Option String}
    (h : Legend s r ⟨r.img, (s.directory.map Entity.text).toArray, palette⟩)
    (hcat : r.img.Catalogues nodes (s.mentions s.names)) (hlocals : s.locals = nodes.map Node.name)
    (hns : r.img.namespaceName = .ok ns) (hlibrary : r.img.sharedLibrary = .ok library)
    (hnames : ∀ node ∈ nodes, ∀ name ∈ node.names, name ∈ s.names)
    (hread : ∀ (i : Nat) (node : Node), nodes[i]? = some node → ∃ view, r.ReadsNode i node view) :
    ∃ text, r.img.dump palette = .ok text := by
  have htexts := hcat.mapM_entryName
  rw [← Scope.directory_text hlocals] at htexts
  refine Image.exists_dump htexts hns hlibrary ?_
  have hshown : List.Forall₂ (fun (x : DirRef × DirEntry) (_ : Unit) => (∃ lines,
      Dump.localEntry ⟨r.img, (s.directory.map Entity.text).toArray, palette⟩ x.1 x.2 = .ok lines) ∧
        True) r.img.entries _ :=
    hcat.forall₂ (A := fun _ _ => ()) (B := fun _ _ => ()) (fun i node ref e hi href he => by
      obtain ⟨kind, hlocal, hkind, -⟩ := hcat.node_entry hi href he
      obtain ⟨view, hview⟩ := hread i node hi
      have hlines := h.node_lines hview href he hkind (hnames node (List.mem_of_getElem? hi))
      simp only [Dump.localEntry, hlocal, hkind, and_true]
      rw [read_bind hlines]
      exact ⟨_, rfl⟩) fun j p ref e hj href he => by
      obtain ⟨hforeign, -⟩ := hcat.external_entry hj href he
      simp only [Dump.localEntry, hforeign, and_true]
      exact ⟨_, rfl⟩
  exact ((List.forall₂_and_left _ _).1 hshown).1

end Typelib
