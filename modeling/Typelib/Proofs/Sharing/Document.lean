import Typelib.Proofs.Reading.Document
import Typelib.Proofs.Sharing.Exact

/-!
# Sharing in files

In the file of a description, two uses of complex types have one offset if and only if the types are
equivalent, however deep they are nested in others.

* `Reading.ReadsNodes.allTypes`: all references to types in a file;
* `Reading.offset_eq_iff`: when two of them have one offset;
* `sharing_exact`: sharing in runs and in files.
-/

namespace Typelib

namespace Reading

variable {r : Reading} {nodes : List Node} {views : List EntryView}

theorem ReadsNodes.forall₂ (h : r.ReadsNodes nodes views) :
    List.Forall₂ r.ReadsEntry views nodes := by
  rw [List.forall₂_iff_get]
  refine ⟨h.length, fun i hi hi' => ?_⟩
  exact (h.node i _ _ (List.getElem?_eq_getElem hi') (List.getElem?_eq_getElem hi)).reads

/-- All references to types in a file, in the order of the types that are described. -/
theorem ReadsNodes.allTypes {fuel : Nat} (h : r.ReadsNodes nodes views)
    (hf : ∀ node ∈ nodes, ∀ t ∈ node.types, t.depth < fuel) :
    ∃ refs, views.mapM (r.img.allTypeRefs? fuel) = some refs ∧
      List.Forall₂ r.ReadsRef refs.flatten (nodes.flatMap Node.allTypes) :=
  mapM_flatten h.forall₂ fun _ node hn hr => hr.allTypes (hf node hn)

/-- Complex types have one place if and only if they are equivalent, as long as each place belongs
to one shape. -/
theorem offset_eq_iff (hinj : ∀ s s' offset, r.place s = some offset →
      r.place s' = some offset → s = s') {ref ref' : TypeRef} {t t' : Ty} (h : r.ReadsRef ref t)
    (h' : r.ReadsRef ref' t') (hc : t.tag.isComplex = true) (hc' : t'.tag.isComplex = true) :
    ref.offset = ref'.offset ↔ t.Equivalent r.slot t' := by
  obtain ⟨-, hplace⟩ := h.offset hc
  obtain ⟨-, hplace'⟩ := h'.offset hc'
  rw [Ty.equivalent_iff]
  constructor
  · intro he
    rw [← he] at hplace'
    exact hinj _ _ _ hplace hplace'
  · intro he
    rw [he, hplace'] at hplace
    exact (Option.some.inj hplace).symm

end Reading

/-- **Sharing is exact.** In every run after the local entries got their slots, two uses of complex
types are given one body if and only if the types are equivalent. One body is queued for all uses of
equivalent types, and it is begun once when nothing waits any more. This holds of runs that do not
use up the identities, which are words. No compiled description does, so in the file of any
description two uses, also inside other types, have one offset if and only if the types are
equivalent. -/
theorem sharing_exact {ns : String} {sharedLibrary : Option String} {options : Options} :
    (∀ before rest : List Operation, (∀ op ∈ rest, op.registers = false) →
      let start := Draft.new ns sharedLibrary options
      let registered := Operation.after before start
      let final := Operation.after rest registered
      let events := Operation.log rest registered
      let noted := Operation.log before start ++ events
      final.symbols.handedOut < UInt32.size → ∀ t id fresh, .used t id fresh ∈ events →
        (∀ t' id' fresh', .used t' id' fresh' ∈ events →
          (id = id' ↔ t.Equivalent final.symbols.slotOf t')) ∧
        (∀ name ∈ t.names, final.symbols.Settled final.options name) ∧
        noted.countP (Event.queues id) = 1 ∧ noted.count (.begun id) ≤ 1 ∧
        (final.queues.types.toList = [] → noted.count (.begun id) = 1)) ∧
    ∀ (nodes : List Node) (a : Artifact), compile ns nodes sharedLibrary options = .ok a →
      ∃ (r : Reading) (views : List EntryView), Image.load a.bytes = .ok r.img ∧
        r.slot = (Draft.final ns nodes sharedLibrary options).symbols.slotOf ∧
        views.length = nodes.length ∧ (∀ i < nodes.length, r.img.entryView? i = views[i]?) ∧
        ∀ fuel, (∀ node ∈ nodes, ∀ t ∈ node.types, t.depth < fuel) →
          ∃ refs, views.mapM (r.img.allTypeRefs? fuel) = some refs ∧
            refs.flatten.length = (nodes.flatMap Node.allTypes).length ∧
            ∀ u ∈ refs.flatten.zip (nodes.flatMap Node.allTypes),
            ∀ v ∈ refs.flatten.zip (nodes.flatMap Node.allTypes),
              u.2.tag.isComplex = true → v.2.tag.isComplex = true →
              (u.1.offset = v.1.offset ↔ u.2.Equivalent r.slot v.2) := by
  constructor
  · intro before rest hrest start registered final events noted hfew t id fresh hused
    obtain ⟨hsettled, hiff, hqueued, honce⟩ := Operation.used_iff_equivalent hrest hfew hused
    have hbegun : final.waiting id + noted.count (.begun id) = 1 := honce
    refine ⟨hiff, hsettled, hqueued, by omega, fun hempty => ?_⟩
    have hwaiting : final.waiting id = 0 := by
      rw [Draft.waiting, hempty]
      rfl
    omega
  · intro nodes a h
    obtain ⟨r, views, hload, hslot, -, hviews, hinj⟩ := compile_reading h
    refine ⟨r, views, hload, hslot, hviews.length, fun i hi => ?_, fun fuel hf => ?_⟩
    · obtain ⟨view, hv, hnode⟩ := hviews.exists_view (List.getElem?_eq_getElem hi)
      rw [hv, hnode.entryView?]
    · obtain ⟨refs, hrefs, hall⟩ := hviews.allTypes hf
      refine ⟨refs, hrefs, hall.length_eq, fun u hu v hv hcu hcv => ?_⟩
      exact Reading.offset_eq_iff hinj (List.forall₂_zip hall hu) (List.forall₂_zip hall hv) hcu hcv

/-! ### A small run -/

namespace Sample

/-- Lists of one structure, whose name is qualified in one of them. -/
def points (qualified : Bool) : Ty :=
  .list (.interface (if qualified then "Sample.Point" else "Point") true) true

def uses : List Operation :=
  [.typeUse (points false), .intern "between", .typeUse (points true), .drain]

end Sample

/-- Both lists share a body, which is begun once; and so do types in a file. -/
theorem sharing_exact_sample :
    (let registered := Operation.after [.register Sample.nodes]
        (.new "Sample" (some "libsample.so") {})
      let final := Operation.after Sample.uses registered
      let events := Operation.log Sample.uses registered
      .used (Sample.points false) 3 true ∈ events ∧ .used (Sample.points true) 3 false ∈ events ∧
        (Sample.points false).Equivalent final.symbols.slotOf (Sample.points true) ∧
        (Operation.log [.register Sample.nodes] (.new "Sample" (some "libsample.so") {}) ++
          events).count (.begun 3) = 1) ∧
    ∃ a, compile "Sample" Sample.nodes (some "libsample.so") {} = .ok a ∧
      ∃ (r : Reading) (views : List EntryView) (refs : List (List TypeRef)),
        Image.load a.bytes = .ok r.img ∧ views.length = 3 ∧
        views.mapM (r.img.allTypeRefs? 2) = some refs ∧ refs.flatten.length = 8 := by
  obtain ⟨a, ha⟩ := Sample.exists_compile
  obtain ⟨hrun, hfile⟩ := @sharing_exact "Sample" (some "libsample.so") {}
  have hfirst : Event.used (Sample.points false) 3 true ∈ Operation.log Sample.uses
      (Operation.after [.register Sample.nodes] (.new "Sample" (some "libsample.so") {})) := by
    decide +kernel
  have hsecond : Event.used (Sample.points true) 3 false ∈ Operation.log Sample.uses
      (Operation.after [.register Sample.nodes] (.new "Sample" (some "libsample.so") {})) := by
    decide +kernel
  have hempty : (Operation.after Sample.uses (Operation.after [.register Sample.nodes]
      (.new "Sample" (some "libsample.so") {}))).queues.types.toList = [] := by
    decide +kernel
  have hfew : (Operation.after Sample.uses (Operation.after [.register Sample.nodes]
      (.new "Sample" (some "libsample.so") {}))).symbols.handedOut < UInt32.size := by
    decide +kernel
  obtain ⟨hiff, -, -, -, hbegun⟩ :=
    hrun [.register Sample.nodes] Sample.uses (by decide) hfew _ _ _ hfirst
  obtain ⟨r, views, hload, -, hlength, -, hall⟩ := hfile _ a ha
  obtain ⟨refs, hrefs, hflat, -⟩ := hall 2 (by decide)
  exact ⟨⟨hfirst, hsecond, (hiff _ _ _ hsecond).1 rfl, hbegun hempty⟩, a, ha, r, views, refs, hload,
    hlength, hrefs, hflat⟩

end Typelib
