import Mathlib.Data.List.Induction
import Typelib.Proofs.Acceptance.Asks

/-!
# The order of the directory

The slots of the local entries come first. Behind them each entry of another namespace gets its slot
when a name stands for it for the first time. So the order of the slots is that in which names are
resolved, and types that wait to be written add nothing to it, since their names were resolved when
they were put to wait.

* `Scope.mentions`: the entries that are not local, in the order in which names first stand for them;
* `Scope.Lists`: the directory of a draft lists the local entries and then these;
* `Build.Adds`: what a step adds to the names that were resolved and to the signatures that wait;
* `Build.adds_cells`: the cells of a body.
-/

namespace Typelib

/-! ### Entries that are mentioned -/

namespace Scope

variable (s : Scope)

/-- The entries that are not local, each once, in the order in which names first stand for them. -/
def mentions (names : List String) : List (String × String) :=
  (names.filterMap s.foreign?).eraseDups

variable {s}

theorem mem_mentions {names : List String} {p : String × String} :
    p ∈ s.mentions names ↔ ∃ name ∈ names, s.foreign? name = some p := by
  simp [mentions]

/-- A name that stands for a local entry mentions nothing. -/
theorem mentions_concat_none (seen : List String) {name : String} (h : s.foreign? name = none) :
    s.mentions (seen ++ [name]) = s.mentions seen := by
  simp [mentions, h]

/-- Only an entry that was not mentioned before is mentioned by one more name. -/
theorem mentions_concat_some (seen : List String) {name : String} {p : String × String}
    (h : s.foreign? name = some p) :
    s.mentions (seen ++ [name]) =
      if p ∈ s.mentions seen then s.mentions seen else s.mentions seen ++ [p] := by
  have hlast : [name].filterMap s.foreign? = [p] := by simp [h]
  rw [mentions, List.filterMap_append, hlast, eraseDups_concat, mentions]

/-- Names for entries that were mentioned before mention nothing new. -/
theorem mentions_append_of_subset {seen more : List String}
    (h : ∀ name ∈ more, ∀ p, s.foreign? name = some p → p ∈ s.mentions seen) :
    s.mentions (seen ++ more) = s.mentions seen := by
  have hold : (more.filterMap s.foreign?).removeAll (seen.filterMap s.foreign?) = [] := by
    simp only [List.removeAll, List.filter_eq_nil_iff, List.mem_filterMap]
    rintro p ⟨name, hname, hp⟩
    simpa using mem_mentions.1 (h name hname p hp)
  unfold mentions
  rw [List.filterMap_append, List.eraseDups_append, hold, List.eraseDups_nil, List.append_nil]

theorem nodup_mentions (names : List String) : (s.mentions names).Nodup := by
  induction names using List.reverseRecOn with
  | nil => exact .nil
  | append_singleton names name ih =>
    cases h : s.foreign? name with
    | none => rwa [mentions_concat_none names h]
    | some p =>
      rw [mentions_concat_some names h]
      split
      next => exact ih
      next hmem =>
        refine List.nodup_append.2 ⟨ih, List.pairwise_singleton _ p, ?_⟩
        rintro a ha b hb rfl
        exact hmem (List.mem_singleton.1 hb ▸ ha)

/-! ### Directories in order -/

/-- The directory of a draft lists the local entries, and then those that the names seen so far stand
for. The names of types that wait were seen, and so many signatures wait. -/
structure Lists (s : Scope) (seen : List String) (waiting : List Signature) (d : Draft) : Prop where
  governs : ({ s with names := seen } : Scope).Governs d
  size : d.symbols.slots.size = s.locals.length + (s.mentions seen).length
  slot : ∀ (j : Nat) (p : String × String), (s.mentions seen)[j]? = some p →
    ∃ ref, DirRef.ofIndex? (s.locals.length + j) = some ref ∧
      d.symbols.externals[qualified p]? = some ref
  types : ∀ item ∈ d.queues.types.toList, ∀ name ∈ item.1.names, name ∈ seen
  signatures : d.queues.signatures.toList.map Prod.fst = waiting

namespace Lists

variable {seen seen' more : List String} {waiting waiting' : List Signature} {d d' : Draft}

/-- Strings, identities and bodies do not touch the directory. -/
theorem keep (h : s.Lists seen waiting d) (hx : d.Extends d') (hs : d'.symbols.Sound)
    (hslots : d'.symbols.slots = d.symbols.slots)
    (hexternals : d'.symbols.externals = d.symbols.externals)
    (htypes : ∀ item ∈ d'.queues.types.toList, ∀ name ∈ item.1.names, name ∈ seen)
    (hsignatures : d'.queues.signatures.toList.map Prod.fst = waiting') :
    s.Lists seen waiting' d' where
  governs := h.governs.mono hx hs (hexternals ▸ h.governs.externals)
  size := by rw [hslots, h.size]
  slot j p hp := by
    rw [hexternals]
    exact h.slot j p hp
  types := htypes
  signatures := hsignatures

/-- Of the names that were seen only what they mention matters. -/
theorem congr (h : s.Lists seen waiting d) (hsame : s.mentions seen' = s.mentions seen)
    (htypes : ∀ item ∈ d.queues.types.toList, ∀ name ∈ item.1.names, name ∈ seen') :
    s.Lists seen' waiting d := by
  refine ⟨⟨h.governs.symbols, h.governs.options, h.governs.namespaceName, h.governs.locals,
    fun key ref hk => ?_⟩, hsame ▸ h.size, hsame ▸ h.slot, htypes, h.signatures⟩
  obtain ⟨p, hp, rfl⟩ := List.mem_map.1 (h.governs.externals key ref hk)
  have hmentioned : p ∈ s.mentions seen := mem_mentions.2 (mem_foreigns.1 hp)
  exact List.mem_map_of_mem (mem_foreigns.2 (mem_mentions.1 (hsame ▸ hmentioned)))

/-- Names may be seen once more. -/
theorem absorb (h : s.Lists (seen ++ more) waiting d) (hmore : ∀ name ∈ more, name ∈ seen) :
    s.Lists seen waiting d :=
  have hmentioned : ∀ name ∈ more, ∀ p, s.foreign? name = some p → p ∈ s.mentions seen :=
    fun name hn _ hp => mem_mentions.2 ⟨name, hmore name hn, hp⟩
  h.congr (mentions_append_of_subset hmentioned).symm fun item hi name hn =>
    (List.mem_append.1 (h.types item hi name hn)).elim id (hmore name)

/-- An entry was mentioned if and only if it has a slot. -/
theorem mem_mentions_iff (h : s.Lists seen waiting d) {p : String × String}
    (hdot : '.' ∉ p.2.toList) :
    p ∈ s.mentions seen ↔ ∃ ref, d.symbols.externals[qualified p]? = some ref := by
  constructor
  · intro hp
    obtain ⟨j, hj⟩ := List.getElem?_of_mem hp
    obtain ⟨ref, -, hk⟩ := h.slot j p hj
    exact ⟨ref, hk⟩
  · rintro ⟨ref, hk⟩
    obtain ⟨q, hq, he⟩ := List.mem_map.1 (h.governs.externals _ _ hk)
    obtain ⟨name, hname, hforeign⟩ := mem_foreigns.1 hq
    have hparts := SymbolTable.qualified_inj (foreign?_dotless hforeign) hdot he
    obtain rfl : q = p := Prod.ext hparts.1 hparts.2
    exact mem_mentions.2 ⟨name, hname, hforeign⟩

/-- An entry that was not mentioned before gets the next slot. -/
theorem push (h : s.Lists seen waiting d) {name : String} {p : String × String} {ref : DirRef}
    (hforeign : s.foreign? name = some p) (hnone : d.symbols.externals[qualified p]? = none)
    (hr : DirRef.ofIndex? d.symbols.slots.size = some ref) (hx : d.Extends d')
    (hs : d'.symbols.Sound) (hsize : d'.symbols.slots.size = d.symbols.slots.size + 1)
    (hexternals : d'.symbols.externals = d.symbols.externals.insert (qualified p) ref)
    (hqueues : d'.queues = d.queues) : s.Lists (seen ++ [name]) waiting d' := by
  have hnew : p ∉ s.mentions seen := by
    intro hmem
    obtain ⟨r, hk⟩ := (h.mem_mentions_iff (foreign?_dotless hforeign)).1 hmem
    rw [hnone] at hk
    cases hk
  have hconcat : s.mentions (seen ++ [name]) = s.mentions seen ++ [p] := by
    rw [mentions_concat_some seen hforeign, if_neg hnew]
  have hkey (key : String) : d'.symbols.externals[key]? =
      if qualified p = key then some ref else d.symbols.externals[key]? := by
    rw [hexternals, Std.TreeMap.getElem?_insert]
    simp only [Std.compare_eq_iff_eq]
  refine ⟨⟨hs, hx.options.trans h.governs.options,
    hx.symbols.namespaceName.trans h.governs.namespaceName,
    hx.symbols.localNames ▸ h.governs.locals, fun key r hk => ?_⟩, ?_, fun j q hj => ?_, ?_, ?_⟩
  · rw [hkey] at hk
    split at hk
    next heq =>
      rw [← heq]
      exact List.mem_map_of_mem (mem_foreigns.2 ⟨name, List.mem_concat_self, hforeign⟩)
    next =>
      obtain ⟨q, hq, rfl⟩ := List.mem_map.1 (h.governs.externals key r hk)
      obtain ⟨n, hn, hf⟩ := mem_foreigns.1 hq
      exact List.mem_map_of_mem (mem_foreigns.2 ⟨n, List.mem_append_left _ hn, hf⟩)
  · rw [hsize, hconcat, List.length_append, List.length_singleton, ← Nat.add_assoc, ← h.size]
  · -- the slots from before stay as they are, and the new one is the last
    rw [hconcat, List.getElem?_append] at hj
    rw [hkey]
    split at hj
    next hlt =>
      obtain ⟨r, hr', hk⟩ := h.slot j q hj
      refine ⟨r, hr', ?_⟩
      rw [if_neg, hk]
      intro heq
      rw [← heq, hnone] at hk
      cases hk
    next hge =>
      obtain ⟨hlast, hq⟩ := List.getElem?_eq_some_iff.1 hj
      rw [List.length_singleton] at hlast
      obtain rfl : j = (s.mentions seen).length := by omega
      simp only [Nat.sub_self, List.getElem_singleton] at hq
      subst hq
      exact ⟨ref, by rw [← h.size]; exact hr, if_pos rfl⟩
  · rw [hqueues]
    exact fun item hi n hn => List.mem_append_left _ (h.types item hi n hn)
  · rw [hqueues]
    exact h.signatures

/-- One more name is resolved. -/
theorem resolve (h : s.Lists seen waiting d) {name : String} {ref : DirRef}
    (hy : (Build.resolve name).Yields d ref d') : s.Lists (seen ++ [name]) waiting d' := by
  have hnames := (Build.within_resolve name).yields hy
  have hsound := hnames.sound h.governs.symbols
  obtain ⟨t, ht, rfl⟩ := Build.yields_resolve.1 hy
  -- nothing is added for a name that mentions nothing new
  have known (hsame : s.mentions (seen ++ [name]) = s.mentions seen) (heq : t = d.symbols) :
      s.Lists (seen ++ [name]) waiting { d with symbols := t } := by
    subst heq
    exact h.congr hsame fun item hi n hn => List.mem_append_left _ (h.types item hi n hn)
  obtain ⟨symbol, hm, he⟩ | ⟨ns, symbol, hm, he | he⟩ :=
    SymbolTable.resolve_eq d.symbols d.options name
  · have hforeign : s.foreign? name = none := by
      by_contra hne
      obtain ⟨⟨ns, sym⟩, hp⟩ := Option.ne_none_iff_exists'.1 hne
      rw [h.governs.meaning_eq_external.2 hp] at hm
      cases hm
    rw [he] at ht
    cases ht
    exact known (mentions_concat_none seen hforeign) rfl
  · have hforeign : s.foreign? name = some (ns, symbol) := h.governs.meaning_eq_external.1 hm
    obtain ⟨r, hk, hx⟩ | ⟨hnone, ⟨r, hr, hx⟩ | ⟨-, hx⟩⟩ :=
        SymbolTable.external_eq d.symbols ns symbol <;>
      rw [he, hx] at ht <;> cases ht
    · have hmem : (ns, symbol) ∈ s.mentions seen :=
        (h.mem_mentions_iff (foreign?_dotless hforeign)).2 ⟨ref, hk⟩
      exact known ((mentions_concat_some seen hforeign).trans (if_pos hmem)) rfl
    · exact h.push hforeign hnone hr hnames.toExtends hsound (Array.size_push _) rfl rfl
  · rw [he] at ht
    cases ht

end Lists

end Scope

/-! ### Steps -/

/-- The signatures that a cell puts to wait. -/
def Cell.signatures : Cell → List Signature
  | signature s => [s]
  | _ => []

namespace Build

variable {α β : Type} {s : Scope} {names names' : List String} {added added' : List Signature}

/-- A step resolves these names, in this order, and puts these signatures to wait. -/
def Adds (s : Scope) (names : List String) (added : List Signature) (x : Build α) : Prop :=
  ∀ (seen : List String) (waiting : List Signature) (d : Draft) (a : α) (d' : Draft),
    s.Lists seen waiting d → x.Yields d a d' → s.Lists (seen ++ names) (waiting ++ added) d'

theorem Adds.pure (a : α) : Adds s [] [] (pure a) := by
  intro seen waiting d b d' h hy
  obtain ⟨-, rfl⟩ := yields_pure.1 hy
  rwa [List.append_nil, List.append_nil]

theorem Adds.bind {x : Build α} {f : α → Build β} (hx : Adds s names added x)
    (hf : ∀ a, Adds s names' added' (f a)) : Adds s (names ++ names') (added ++ added') (x >>= f) := by
  intro seen waiting d b d' h hy
  obtain ⟨a, d₁, ha, hb⟩ := yields_bind.1 hy
  rw [← List.append_assoc, ← List.append_assoc]
  exact hf a _ _ d₁ b d' (hx _ _ d a d₁ h ha) hb

/-- What follows touches neither names nor queues. -/
theorem Adds.bind_still {x : Build α} {f : α → Build β} (hx : Adds s names added x)
    (hf : ∀ a, Adds s [] [] (f a)) : Adds s names added (x >>= f) := by
  have hbind := hx.bind hf
  rwa [List.append_nil, List.append_nil] at hbind

theorem Adds.mapM {γ : Type} {names : γ → List String} {f : γ → Build α}
    (hf : ∀ c, Adds s (names c) [] (f c)) (cs : List γ) :
    Adds s (cs.flatMap names) [] (cs.mapM f) := by
  induction cs with
  | nil => exact .pure []
  | cons c cs ih =>
    rw [List.mapM_cons, List.flatMap_cons]
    exact (hf c).bind fun b => ih.bind_still fun _ => .pure _

/-- A step that adds neither slots nor bodies that wait adds nothing. -/
theorem adds_still {x : Build α} (h : ∀ d a d', x.Yields d a d' → d.Extends d' ∧
    (d.symbols.Sound → d'.symbols.Sound) ∧ d'.symbols.slots = d.symbols.slots ∧
      d'.symbols.externals = d.symbols.externals ∧ d'.queues = d.queues) : Adds s [] [] x := by
  intro seen waiting d a d' hl hy
  obtain ⟨hx, hs, hslots, hexternals, hqueues⟩ := h d a d' hy
  rw [List.append_nil, List.append_nil]
  exact hl.keep hx (hs hl.governs.symbols) hslots hexternals (hqueues ▸ hl.types)
    (hqueues ▸ hl.signatures)

theorem adds_onBody (f : Section → Section) : Adds s [] [] (onBody f) := by
  refine adds_still fun d a d' hy => ?_
  obtain rfl := yields_onBody.1 hy
  exact ⟨.write _ _, id, rfl, rfl, rfl⟩

theorem adds_start (id : BodyId) : Adds s [] [] (start id) := by
  refine adds_still fun d a d' hy => ?_
  obtain ⟨body, -, rfl⟩ := yields_start.1 hy
  exact ⟨.write _ _, fun hs => hs, rfl, rfl, rfl⟩

theorem adds_intern (name : String) : Adds s [] [] (intern name) := by
  refine adds_still fun d a d' hy => ?_
  have hnames := (within_intern name).yields hy
  obtain ⟨-, rfl⟩ := yields_intern.1 hy
  exact ⟨hnames.toExtends, hnames.sound, rfl, rfl, rfl⟩

theorem adds_internOpt (name : Option String) : Adds s [] [] (internOpt name) := by
  cases name with
  | none => exact .pure none
  | some name => exact (adds_intern name).bind_still fun _ => .pure _

theorem adds_resolve (name : String) : Adds s [name] [] (resolve name) := by
  intro seen waiting d ref d' h hy
  rw [List.append_nil]
  exact h.resolve hy

/-! ### Types -/

theorem adds_domains (names : List String) : Adds s names [] (domains names) := by
  have hmapM := Adds.mapM (s := s) adds_resolve names
  rw [List.flatMap_singleton' names] at hmapM
  exact hmapM.bind_still fun _ => .pure _

theorem adds_shape (type : Ty) : Adds s type.names [] (shape type) := by
  induction type with
  | scalar kind p => exact .pure _
  | interface name p => exact (adds_resolve name).bind_still fun _ => .pure _
  | array element z l p ih => exact ih.bind_still fun _ => .pure _
  | list element p ih => exact ih.bind_still fun _ => .pure _
  | slist element p ih => exact ih.bind_still fun _ => .pure _
  | hash key value p ihk ihv => exact ihk.bind fun k => ihv.bind_still fun _ => .pure _
  | error names p => exact (adds_domains names).bind_still fun _ => .pure _

/-- A type that is put to wait had its names resolved before. -/
theorem adds_typeBody (type : Ty) : Adds s type.names [] (typeBody type) := by
  intro seen waiting d id d' h hy
  obtain ⟨d₁, -, ⟨e, he⟩ | ⟨shape, hshape, ⟨id', -, he⟩ | ⟨hnone, he⟩⟩⟩ := typeBody_outcome type d
  · rw [Yields, he] at hy
    cases hy
  · have h₁ := adds_shape type _ _ d shape d₁ h hshape
    rw [Yields, he] at hy
    cases hy
    exact h₁
  · have h₁ := adds_shape type _ _ d shape d₁ h hshape
    rw [Yields, he] at hy
    cases hy
    refine h₁.keep (Draft.extends_promiseType d₁ type hnone) h₁.governs.symbols.allocate rfl rfl
      (fun item hi => ?_) h₁.signatures
    obtain hi | rfl := Fifo.mem_push hi
    · exact h₁.types item hi
    · exact fun name hn => List.mem_append_right _ hn

theorem adds_typeUse (type : Ty) : Adds s type.names [] (typeUse type) := by
  cases type with
  | scalar kind p => exact .pure _
  | interface name p => exact (adds_resolve name).bind_still fun _ => .pure _
  | array | list | slist | hash | error => exact (adds_typeBody _).bind_still fun _ => .pure _

/-! ### Cells -/

theorem adds_errorType (flags : UInt8) (names : List String) :
    Adds s names [] (errorType flags names) := by
  refine (adds_domains names).bind_still fun refs => ?_
  split
  · exact fun _ _ _ _ _ _ hy => absurd hy not_yields_throw
  · exact (adds_onBody _).bind_still fun _ => adds_onBody _

theorem adds_cell (c : Cell) : Adds s c.names c.signatures (cell c) := by
  cases c with
  | slot name => exact (adds_resolve name).bind_still fun _ => adds_onBody _
  | type t => exact (adds_typeUse t).bind_still fun _ => adds_onBody _
  | errorType flags names => exact adds_errorType flags names
  | name n => exact (adds_intern n).bind_still fun _ => adds_onBody _
  | optName n => exact (adds_internOpt n).bind_still fun _ => adds_onBody _
  | signature signature =>
    intro seen waiting d u d' h hy
    obtain rfl : { d.promiseSignature signature with
        body := d.body.bodyRef d.symbols.nextId } = d' := hy.after
    rw [show (Cell.signature signature).names = [] from rfl, List.append_nil]
    -- the signature is the last to wait
    have hlast : (d.promiseSignature signature).queues.signatures.toList.map Prod.fst =
        waiting ++ [signature] := by
      simp [Draft.promiseSignature, Queues.pushSignature, Fifo.toList_push, h.signatures]
    exact h.keep ((d.extends_promiseSignature signature).trans (.write _ _))
      h.governs.symbols.allocate rfl rfl h.types hlast
  | value c =>
    intro seen waiting d u d' h hy
    obtain rfl : { d.promiseConstant c with
        body := d.body.bodyRef d.symbols.nextId } = d' := hy.after
    rw [show (Cell.value c).names = [] from rfl, show (Cell.value c).signatures = [] from rfl,
      List.append_nil, List.append_nil]
    exact h.keep ((d.extends_promiseConstant c).trans (.write _ _))
      h.governs.symbols.allocate rfl rfl h.types h.signatures
  | reject e => exact fun _ _ _ _ _ _ hy => absurd hy not_yields_throw
  | byte | word16 | word32 | typeRef | raw | align =>
    rw [cell]
    exact adds_onBody _

theorem adds_cells (cs : List Cell) :
    Adds s (cs.flatMap Cell.names) (cs.flatMap Cell.signatures) (cells cs) := by
  induction cs with
  | nil => exact .pure ()
  | cons c cs ih => exact (adds_cell c).bind fun _ => ih

end Build

end Typelib
