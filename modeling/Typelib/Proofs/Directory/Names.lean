import Typelib.Proofs.Acceptance.Clean
import Typelib.Proofs.Directory.Order

/-!
# The names in a body

The cells of a body hold names and signatures in the order in which the description gives them: for
an entry first the links, then the types of its members and constants, and the signatures wait. All
names in the body of a type are names of the type.

* `Mentions`: the names and the signatures in cells, in order;
* `Node.mentions_cells`, `Signature.mentions_cells`: the bodies of entries and of signatures;
* `Ty.names_cells`: the bodies of types.
-/

namespace Typelib

/-- The cells hold these names and these signatures, in this order. -/
structure Mentions (cs : List Cell) (names : List String) (signatures : List Signature) :
    Prop where
  names : cs.flatMap Cell.names = names
  signatures : cs.flatMap Cell.signatures = signatures

namespace Mentions

variable {cs cs' : List Cell} {ns ns' : List String} {ss ss' : List Signature}

theorem congr (h : Mentions cs ns ss) (hn : ns = ns') (hs : ss = ss') : Mentions cs ns' ss' :=
  ⟨h.names.trans hn, h.signatures.trans hs⟩

theorem append (h : Mentions cs ns ss) (h' : Mentions cs' ns' ss') :
    Mentions (cs ++ cs') (ns ++ ns') (ss ++ ss') := by
  constructor <;> rw [List.flatMap_append]
  · rw [h.names, h'.names]
  · rw [h.signatures, h'.signatures]

theorem flatMap {α : Type} {as : List α} {f : α → List Cell} {ns : α → List String}
    {ss : α → List Signature} (h : ∀ a ∈ as, Mentions (f a) (ns a) (ss a)) :
    Mentions (as.flatMap f) (as.flatMap ns) (as.flatMap ss) := by
  constructor <;> rw [List.flatMap_assoc]
  · exact List.flatMap_congr fun a ha => (h a ha).names
  · exact List.flatMap_congr fun a ha => (h a ha).signatures

/-- Members that use types. -/
theorem uses {α : Type} {as : List α} {f : α → List Cell} {type : α → Ty}
    (h : ∀ a ∈ as, Mentions (f a) (type a).names []) :
    Mentions (as.flatMap f) ((as.map type).flatMap Ty.names) [] := by
  rw [List.flatMap_map, ← List.flatMap_eq_nil_iff.2 fun (a : α) (_ : a ∈ as) => rfl]
  exact flatMap h

/-- Members that have signatures. -/
theorem calls {α : Type} {as : List α} {f : α → List Cell} {signature : α → Signature}
    (h : ∀ a ∈ as, Mentions (f a) [] [signature a]) :
    Mentions (as.flatMap f) [] (as.map signature) := by
  rw [List.map_eq_flatMap, ← List.flatMap_eq_nil_iff.2 fun (a : α) (_ : a ∈ as) => rfl]
  exact flatMap h

end Mentions

/-! ### Members -/

section Members

variable {owner : Owner}

theorem ConstantDecl.mentions_cells {c : ConstantDecl} (h : Clean c.cells) :
    Mentions c.cells c.type.names [] := by
  obtain ⟨_, -, hcells⟩ := Clean.given h
  rw [ConstantDecl.cells, hcells]
  exact ⟨List.append_nil _, rfl⟩

theorem ValueDecl.mentions_cells {v : ValueDecl} {name : String} (h : Clean (v.cells name)) :
    Mentions (v.cells name) [] [] := by
  unfold ValueDecl.cells at h ⊢
  simp only at h ⊢
  split_ifs at h ⊢
  · exact ⟨rfl, rfl⟩
  · exact ⟨rfl, rfl⟩
  · exact absurd (List.mem_singleton_self _) (h _)

theorem FunctionDecl.mentions_cells {f : FunctionDecl} (h : Clean (f.cells owner)) :
    Mentions (f.cells owner) [] [f.signature] := by
  obtain ⟨_, -, hcells⟩ := Clean.given h
  rw [FunctionDecl.cells, hcells]
  exact ⟨rfl, rfl⟩

theorem SignalDecl.mentions_cells {s : SignalDecl} (h : Clean (s.cells owner)) :
    Mentions (s.cells owner) [] [s.signature] := by
  obtain ⟨_, -, hcells⟩ := Clean.given h
  rw [SignalDecl.cells, hcells]
  exact ⟨rfl, rfl⟩

theorem VFuncDecl.mentions_cells {v : VFuncDecl} (h : Clean (v.cells owner)) :
    Mentions (v.cells owner) [] [v.signature] := by
  obtain ⟨_, -, hcells⟩ := Clean.given h
  rw [VFuncDecl.cells, hcells]
  exact ⟨rfl, rfl⟩

theorem mentions_slotCells (names : List String) : Mentions (slotCells names) names [] := by
  refine ⟨?_, ?_⟩ <;> rw [slotCells, List.flatMap_append, List.flatMap_map]
  · simp [Cell.names]
  · simp [Cell.signatures]

theorem mentions_fields (fields : List FieldDecl) :
    Mentions (fields.flatMap FieldDecl.cells) ((fields.map FieldDecl.type).flatMap Ty.names) [] :=
  .uses fun _ _ => ⟨List.append_nil _, rfl⟩

theorem mentions_properties (properties : List PropertyDecl) :
    Mentions (properties.flatMap PropertyDecl.cells)
      ((properties.map PropertyDecl.type).flatMap Ty.names) [] :=
  .uses fun _ _ => ⟨List.append_nil _, rfl⟩

theorem mentions_constants {constants : List ConstantDecl}
    (h : Clean (constants.flatMap ConstantDecl.cells)) :
    Mentions (constants.flatMap ConstantDecl.cells)
      ((constants.map ConstantDecl.type).flatMap Ty.names) [] :=
  .uses fun c hc => c.mentions_cells (h.flatMap c hc)

theorem mentions_methods {methods : List FunctionDecl}
    (h : Clean (methods.flatMap (·.cells owner))) :
    Mentions (methods.flatMap (·.cells owner)) [] (methods.map FunctionDecl.signature) :=
  .calls fun f hf => f.mentions_cells (h.flatMap f hf)

theorem mentions_signals {signals : List SignalDecl}
    (h : Clean (signals.flatMap (·.cells owner))) :
    Mentions (signals.flatMap (·.cells owner)) [] (signals.map SignalDecl.signature) :=
  .calls fun s hs => s.mentions_cells (h.flatMap s hs)

theorem mentions_vfuncs {vfuncs : List VFuncDecl} (h : Clean (vfuncs.flatMap (·.cells owner))) :
    Mentions (vfuncs.flatMap (·.cells owner)) [] (vfuncs.map VFuncDecl.signature) :=
  .calls fun v hv => v.mentions_cells (h.flatMap v hv)

end Members

/-! ### Signatures and types -/

theorem Signature.mentions_cells (s : Signature) :
    Mentions s.cells (s.types.flatMap Ty.names) [] := by
  have params : Mentions (s.params.flatMap ParamDecl.cells)
      ((s.params.map ParamDecl.type).flatMap Ty.names) [] :=
    .uses fun _ _ => ⟨List.append_nil _, rfl⟩
  have result : Mentions (s.resultCells ++ [.count s.params, .word32 0])
      ((s.result.map ReturnDecl.type).getD (.scalar .void false)).names [] := by
    unfold resultCells
    cases s.result with
    | none => exact ⟨rfl, rfl⟩
    | some r => exact ⟨List.append_nil _, rfl⟩
  exact result.append params

theorem Ty.names_cells (t : Ty) : (∀ name ∈ t.cells.flatMap Cell.names, name ∈ t.names) ∧
    t.cells.flatMap Cell.signatures = [] := by
  cases t <;> simp [Ty.cells, paramTypeCells, Cell.names, Cell.signatures, Cell.flags8, Ty.names,
    Cell.count]

/-! ### Entries -/

theorem StructDecl.mentions_cells {kind : EntryKind} {s : StructDecl} (h : Clean (s.cells kind)) :
    Mentions (s.cells kind) ((s.fields.map FieldDecl.type).flatMap Ty.names)
      (s.methods.map FunctionDecl.signature) := by
  obtain ⟨-, hcells, hclean⟩ := h.counted
  rw [StructDecl.cells, hcells]
  have head : Mentions (headCells kind s.name s.deprecated s.gtypeName s.gtypeInit ++
      [.count s.fields, .count s.methods]) [] [] := ⟨rfl, rfl⟩
  exact ((head.append (mentions_fields s.fields)).append (mentions_methods hclean.append.2)).congr
    (List.append_nil _) rfl

theorem EnumDecl.mentions_cells {kind : EntryKind} {e : EnumDecl} (h : Clean (e.cells kind)) :
    Mentions (e.cells kind) [] [] := by
  obtain ⟨-, hcells, hclean⟩ := h.counted
  rw [EnumDecl.cells, hcells]
  have head : Mentions (headCells kind e.name e.deprecated e.gtypeName e.gtypeInit ++
      [.count e.values, .word16 0]) [] [] := ⟨rfl, rfl⟩
  have values := Mentions.flatMap fun v hv =>
    ValueDecl.mentions_cells (hclean.append.2.flatMap v hv)
  exact (head.append values).congr (by simp) (by simp)

theorem UnionDecl.mentions_cells {u : UnionDecl} (h : Clean u.cells) :
    Mentions u.cells ((Node.union u).memberTypes.flatMap Ty.names ++
      (u.discriminators.map ConstantDecl.type).flatMap Ty.names)
      (u.methods.map FunctionDecl.signature) := by
  obtain ⟨-, hcells, hclean⟩ := h.counted
  rw [UnionDecl.cells, hcells]
  obtain ⟨hfront, hconstants⟩ := hclean.append
  have head : Mentions (headCells .union u.name u.deprecated u.gtypeName u.gtypeInit
      u.discriminator.isSome ++
      [.count u.fields, .count u.methods, .count u.discriminators, .word16 0]) [] [] := ⟨rfl, rfl⟩
  have discriminator : Mentions u.discriminatorCells
      ((u.discriminator.map Discriminator.type).toList.flatMap Ty.names) [] := by
    unfold discriminatorCells
    cases u.discriminator with
    | none => exact ⟨rfl, rfl⟩
    | some d => exact ⟨by simp [Cell.names], rfl⟩
  have all := (((head.append discriminator).append (mentions_fields u.fields)).append
    (mentions_methods hfront.append.2)).append (mentions_constants hconstants)
  exact all.congr (by simp [Node.memberTypes]) (by simp)

theorem ObjectDecl.mentions_cells {o : ObjectDecl} (h : Clean o.cells) :
    Mentions o.cells ((Node.object o).links ++ (Node.object o).memberTypes.flatMap Ty.names ++
      (o.constants.map ConstantDecl.type).flatMap Ty.names) (Node.object o).signatures := by
  obtain ⟨-, hcells, hclean⟩ := h.counted
  rw [ObjectDecl.cells, hcells]
  obtain ⟨hclean, hconstants⟩ := hclean.append
  obtain ⟨hclean, hvfuncs⟩ := hclean.append
  obtain ⟨hclean, hsignals⟩ := hclean.append
  obtain ⟨-, hmethods⟩ := hclean.append
  -- the cell of the parent depends on whether there is one
  have head (parent : Cell) (h : Mentions [parent] o.parent.toList []) :
      Mentions (headCells .object o.name o.deprecated o.gtypeName o.gtypeInit ++
        [parent, .count o.interfaces, .count o.fields, .count o.properties, .count o.methods,
          .count o.signals, .count o.vfuncs, .count o.constants, .word32 0]) o.parent.toList [] :=
    ⟨h.names, h.signatures⟩
  have members (parent : Cell) (h : Mentions [parent] o.parent.toList []) :=
    (((head parent h).append (mentions_slotCells o.interfaces)).append
      (mentions_fields o.fields)).append (mentions_properties o.properties)
  refine (((((members _ ?_).append (mentions_methods hmethods)).append
    (mentions_signals hsignals)).append (mentions_vfuncs hvfuncs)).append
    (mentions_constants hconstants)).congr ?_ ?_
  · cases o.parent with
    | none => exact ⟨rfl, rfl⟩
    | some parent => exact ⟨rfl, rfl⟩
  · simp [Node.links, Node.memberTypes]
  · simp [Node.signatures]

theorem InterfaceDecl.mentions_cells {i : InterfaceDecl} (h : Clean i.cells) :
    Mentions i.cells (i.prerequisites ++ (i.properties.map PropertyDecl.type).flatMap Ty.names ++
      (i.constants.map ConstantDecl.type).flatMap Ty.names) (Node.interface i).signatures := by
  obtain ⟨-, hcells, hclean⟩ := h.counted
  rw [InterfaceDecl.cells, hcells]
  obtain ⟨hclean, hconstants⟩ := hclean.append
  obtain ⟨hclean, hvfuncs⟩ := hclean.append
  obtain ⟨hclean, hsignals⟩ := hclean.append
  obtain ⟨-, hmethods⟩ := hclean.append
  have head : Mentions (headCells .interface i.name i.deprecated i.gtypeName i.gtypeInit ++
      [.count i.prerequisites, .count i.properties, .count i.methods, .count i.signals,
        .count i.vfuncs, .count i.constants, .word32 0]) [] [] := ⟨rfl, rfl⟩
  have members := (head.append (mentions_slotCells i.prerequisites)).append
    (mentions_properties i.properties)
  have all := (((members.append (mentions_methods hmethods)).append
    (mentions_signals hsignals)).append (mentions_vfuncs hvfuncs)).append
    (mentions_constants hconstants)
  exact all.congr (by simp) (by simp [Node.signatures])

/-- The body of an entry holds the links of the node, then the types of its members and those of its
constants, and all signatures. -/
theorem Node.mentions_cells {node : Node} (h : Clean node.cells) :
    Mentions node.cells (node.links ++ node.memberTypes.flatMap Ty.names ++
      (node.constants.map ConstantDecl.type).flatMap Ty.names) node.signatures := by
  cases node with
  | function f => exact FunctionDecl.mentions_cells h
  | callback c => exact ⟨rfl, rfl⟩
  | struct s | boxed s => exact (StructDecl.mentions_cells h).congr (List.append_nil _).symm rfl
  | union u => exact UnionDecl.mentions_cells h
  | enum e | flags e => exact EnumDecl.mentions_cells h
  | object o => exact ObjectDecl.mentions_cells h
  | interface i => exact InterfaceDecl.mentions_cells h
  | errorDomain e => exact ⟨rfl, rfl⟩
  | constant c => exact (ConstantDecl.mentions_cells h).congr (List.append_nil _).symm rfl
  | _ => exact absurd (List.mem_singleton_self _) (h _)

end Typelib
