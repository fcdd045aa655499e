import Typelib.Proofs.Drain.Rounds
import Typelib.Proofs.Reading.Document

/-!
# Nothing waits for ever

Writing what waits comes to an end, and what it yields is the number of bodies that it wrote: one
for each identity that waited before and for each that was handed out on the way. Unless there are
more identities than words, it fails on signatures only.

* `drain_finishes`: these facts, for every draft that its own steps filled.
-/

namespace Typelib

theorem Queues.isEmpty_of_items {q : Queues} (h : q.items = []) : q.isEmpty = true := by
  rw [isEmpty, ← q.length_items, h]
  rfl

/-- The names of a type are resolved before it is queued. -/
theorem Build.knows_typeBody {d d' : Draft} {t : Ty} {id : BodyId} (hs : d.symbols.Sound)
    (h : (typeBody t).Yields d id d') : d'.Knows t := by
  obtain ⟨d₁, -, ⟨e, he⟩ | ⟨s, hshape, hrun⟩⟩ := typeBody_outcome t d
  · rw [Yields, he] at h
    cases h
  · obtain ⟨-, hknows⟩ := yields_shape hs hshape
    obtain ⟨_, -, hy⟩ | ⟨hnone, hy⟩ := hrun <;> rw [Yields, hy] at h <;> cases h
    · exact hknows
    · exact (d₁.extends_promiseType t hnone).knows hknows

namespace Draft.Clears

variable {d d' : Draft} {written : List (Work × BodyId)}

/-- All that waited before and all that was promised on the way was written, each body once. -/
theorem written_of_empty (h : d.Clears written d') (hnil : d'.queues.items = []) :
    ∃ news : List (Work × BodyId), written.Perm (d.queues.items ++ news) ∧
      news.map Prod.snd =
        BodyId.range' d.symbols.handedOut (d'.symbols.handedOut - d.symbols.handedOut) ∧
      (written.map Prod.snd).Nodup ∧
      ∀ id ∈ written.map Prod.snd, d.body.startOf? id = none ∧
        ∃ pos, d'.body.startOf? id = some pos := by
  obtain ⟨news, hperm, hids⟩ := h.items
  rw [hnil, List.append_nil] at hperm
  -- a body is begun at most once, and these were begun on the way
  have hle (id : BodyId) : d.begun id + (written.map Prod.snd).count id ≤ 1 := by
    rw [← h.begun]
    exact Bool.toNat_le _
  refine ⟨news, hperm.symm, hids, List.nodup_iff_count_le_one.2 fun id => ?_, fun id hmem => ?_⟩
  · exact Nat.le_trans (Nat.le_add_left _ _) (hle id)
  · have hcount := List.count_pos_iff.2 hmem
    have hbegun := h.begun id
    have hone := hle id
    have hafter : d'.begun id ≠ 0 := by omega
    rw [ne_eq, begun_eq_zero, ← ne_eq, Option.ne_none_iff_exists'] at hafter
    exact ⟨begun_eq_zero.1 (by omega), hafter⟩

end Draft.Clears

/-- **Writing what waits comes to an end and leaves nothing.** This holds of every draft that was
filled by its own steps, whether these succeeded or not.

There are at most as many rounds as what waits weighs, so the loop ends by itself. What is yielded is
the number of bodies written: nothing waits any more, and each identity that waited before, or was
handed out on the way, has its one body. The names of a type have slots when it is queued and ever
after, and the constants that wait have values. So neither is refused while fewer than `2 ^ 32`
identities were handed out, and an error is then that of a signature. After that an identity comes
again, and the body that has it may have been begun. -/
theorem drain_finishes {ops : List Operation} (hops : ∀ op ∈ ops, op.isLoose = false) (ns : String)
    (sharedLibrary : Option String) (options : Options) :
    let d := Operation.after ops (.new ns sharedLibrary options)
    (∀ fuel, d.queues.weight ≤ fuel →
      (Build.drainLoop fuel 0).outcome d = Build.drain.outcome d) ∧
    (∀ d₀ t id d₁, d₀.symbols.Sound → (Build.typeBody t).Yields d₀ id d₁ → d₁.Knows t) ∧
    (∀ written d₁, Build.Rounds d written d₁ → written.length ≤ d.queues.weight ∧
      (∀ t id, (.type t, id) ∈ d₁.queues.items → d₁.Knows t) ∧
      (∀ c id, (.constant c, id) ∈ d₁.queues.items → ∃ bytes, c.encode = .ok bytes) ∧
      (d₁.symbols.handedOut < UInt32.size → ∀ work id queues,
        Build.Pops d₁.queues work id queues → (∀ s, work ≠ .signature s) →
          ∃ d₂, (work.write id).Yields { d₁ with queues } () d₂)) ∧
    (∀ n d', Build.drain.Yields d n d' → d'.queues.isEmpty = true ∧
      ∃ written news, Build.Rounds d written d' ∧ written.length = n ∧
        d'.body.bodyCount = d.body.bodyCount + n ∧ written.Perm (d.queues.items ++ news) ∧
        news.map Prod.snd =
          BodyId.range' d.symbols.handedOut (d'.symbols.handedOut - d.symbols.handedOut) ∧
        (written.map Prod.snd).Nodup ∧
        ∀ id ∈ written.map Prod.snd, d.body.startOf? id = none ∧
          ∃ pos, d'.body.startOf? id = some pos) ∧
    ∀ e, Build.drain.Fails d e → ∃ written d₁ work id queues, Build.Rounds d written d₁ ∧
      Build.Pops d₁.queues work id queues ∧ (work.write id).Fails { d₁ with queues } e ∧
      (d₁.symbols.handedOut < UInt32.size → ∃ s, work = .signature s) := by
  intro d
  have hd : d.Ready := Operation.ready_after hops ns sharedLibrary options
  refine ⟨fun fuel hle => ?_, fun _ _ _ _ => Build.knows_typeBody, fun written d₁ hrounds => ?_,
    fun n d' hy => ?_, fun e => Build.refused_of_drain hd⟩
  · exact Build.drainLoop_of_weight_le _ 0 fuel hd (Nat.le_refl _) hle
  · have hd₁ := hrounds.ready hd
    have hweight := (hrounds.clears hd).weight
    exact ⟨by omega, hd₁.knows, fun c id hmem => hd₁.checked _ hmem,
      fun hfew work id queues hp hw => Build.exists_write hd₁ hfew hp hw⟩
  · obtain ⟨written, hrounds, rfl, hnil⟩ := Build.rounds_of_drain hd hy
    have hclears := hrounds.clears hd
    obtain ⟨news, hbodies⟩ := hclears.written_of_empty hnil
    exact ⟨Queues.isEmpty_of_items hnil, written, news, hrounds, rfl, hclears.bodyCount, hbodies⟩

/-! ### A small run -/

namespace Sample

/-- A function and a constant are written, and what they call for waits. -/
def waits : List Operation :=
  [.register nodes, .entry (.function find), .entry (.constant limit)]

end Sample

/-- A signature, two types and a constant are written. -/
theorem drain_finishes_sample :
    (∀ op ∈ Sample.waits, op.isLoose = false) ∧
    let d := Operation.after Sample.waits (.new "Sample" (some "libsample.so") {})
    ∃ d' written, Build.drain.Yields d 4 d' ∧ d'.queues.isEmpty = true ∧
      Build.Rounds d written d' ∧ written.length = 4 ∧ d'.body.bodyCount = d.body.bodyCount + 4 ∧
      (written.map Prod.snd).Nodup := by
  have hops : ∀ op ∈ Sample.waits, op.isLoose = false := by decide
  obtain ⟨-, -, -, hyields, -⟩ := drain_finishes hops "Sample" (some "libsample.so") {}
  have hdrain : (Build.drain.outcome
      (Operation.after Sample.waits (.new "Sample" (some "libsample.so") {}))).1.toOption =
        some 4 := by
    decide +kernel
  refine ⟨hops, ?_⟩
  intro d
  obtain ⟨n, hn⟩ | ⟨e, he⟩ := Build.yields_or_fails Build.drain d
  · rw [show Build.drain.outcome d = (.ok n, _) from hn] at hdrain
    obtain rfl : n = 4 := Option.some.inj hdrain
    obtain ⟨hempty, written, news, hrounds, hlength, hcount, -, -, hnodup, -⟩ := hyields 4 _ hn
    exact ⟨_, written, hn, hempty, hrounds, hlength, hcount, hnodup⟩
  · rw [show (Build.drain.outcome d).1 = .error e from he] at hdrain
    cases hdrain

end Typelib
