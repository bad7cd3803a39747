import Pipeline.Proofs.Caps
import Pipeline.Proofs.Composition

/-! Runs that were cancelled before they start. A sequence that has a step keeps one behind every
stage but `limit(0)`, and whichever loop asks for the first step sees the token there, ahead of
every failure of its own. -/

set_option autoImplicit false

namespace Pipeline

variable {cap : Nat}

namespace Sequence

variable {sequence : Sequence}

theorem consume_cancelled {σ : Type} {accept : σ → Value → Except RunError σ} (state : σ)
    (more : sequence ≠ .done) : sequence.consume accept .cancelled state = .error .cancelled :=
  drain_cancelled rfl more

theorem materialize_cancelled (more : sequence ≠ .done) :
    sequence.materialize cap .cancelled = .error .cancelled := by
  rw [materialize, drain_cancelled rfl more]
  rfl

theorem collect_cancelled (aggregator : Aggregator) (more : sequence ≠ .done) :
    sequence.collect cap .cancelled aggregator = .error .cancelled := by
  cases aggregator with
  | toList | toSet | joining separator =>
      rw [collect, materialize_cancelled more]
      rfl
  | counting =>
      rw [collect, count, consume_cancelled _ more]
      rfl
  | summing selector => exact consume_cancelled _ more

end Sequence

/-- A stage that takes elements in fails, and every other one passes on a sequence that still has
a step. -/
theorem Stage.onSequence_cancelled {stage : Stage} (unlimited : stage ≠ .limit 0)
    {elements : Sequence} (more : elements ≠ .done) :
    stage.onSequence cap .cancelled elements = .error .cancelled ∨
      ∃ passed, stage.onSequence cap .cancelled elements = .ok (.sequence passed) ∧
        passed ≠ .done := by
  have items : elements.materialize cap .cancelled = .error .cancelled :=
    Sequence.materialize_cancelled more
  cases stage with
  | filter selector => exact .inr ⟨_, rfl, Sequence.filter_ne_done more⟩
  | map selector => exact .inr ⟨_, rfl, Sequence.map_ne_done more⟩
  | flatMap lambda => exact .inr ⟨_, rfl, Sequence.flatMap_ne_done more⟩
  | skip count => exact .inr ⟨_, rfl, Sequence.drop_ne_done more⟩
  | limit count =>
      cases count with
      | zero => exact absurd rfl unlimited
      | succ count => exact .inr ⟨_, rfl, Sequence.take_succ_ne_done more⟩
  | sorted comparator | distinct | max comparator | min comparator =>
      left
      rw [onSequence, items]
      rfl
  | sum selector =>
      left
      rw [onSequence, Sequence.sum, Sequence.consume_cancelled _ more]
      rfl
  | groupBy selector =>
      left
      rw [onSequence, Sequence.group, Sequence.consume_cancelled _ more]
      rfl
  | collect aggregator =>
      left
      rw [onSequence, Sequence.collect_cancelled aggregator more]
      rfl

namespace Chain

theorem outcome_cancelled {chain : Chain} (unlimited : Stage.limit 0 ∉ chain)
    {elements : Sequence} (more : elements ≠ .done) :
    chain.outcome cap .cancelled (.sequence elements) = .error .cancelled := by
  induction chain generalizing elements with
  | nil =>
      have finished : Flow.finish cap .cancelled (.sequence elements) = .error .cancelled := by
        rw [Flow.finish, Sequence.materialize_cancelled more]
        rfl
      exact finished
  | cons stage rest ih =>
      have first : stage ≠ .limit 0 := fun same => unlimited (same ▸ List.mem_cons_self)
      have others : Stage.limit 0 ∉ rest := fun later => unlimited (List.mem_cons_of_mem _ later)
      rw [outcome_cons, Flow.apply]
      rcases Stage.onSequence_cancelled first more with failed | ⟨passed, applied, still⟩
      · rw [failed]
        rfl
      · rw [applied]
        exact ih others still

/-- A cancelled token stops a chain without `limit(0)` on every input that is not empty, and
nothing that the chain would have failed with is told in its place. -/
theorem run_cancelled (cap : Nat) {chain : Chain} (unlimited : Stage.limit 0 ∉ chain)
    {input : List Value} (nonempty : input ≠ []) :
    chain.run cap .cancelled input = .error .cancelled := by
  refine outcome_cancelled unlimited ?_
  cases input with
  | nil => exact absurd rfl nonempty
  | cons value rest => simp [Sequence.ofList]

/-- Nothing passes the filter, no text is expanded to a list, there is nothing to take the
largest of, and the cap has no room. The run is stopped all the same. -/
theorem run_cancelled_filtered :
    let nothing : Selector := .lambda ⟨"x", .literal (.boolean false)⟩
    let chain : Chain := [.filter nothing, .flatMap ⟨"x", .reference "x"⟩, .skip 3, .limit 1,
      .max .natural, .groupBy .identity]
    let input : List Value := [.text "a", .integer 2]
    chain.run 0 .never input = .error (.emptyInput .max) ∧
      (Stage.limit 0 ∉ chain ∧ input ≠ []) ∧ chain.run 0 .cancelled input = .error .cancelled := by
  intro nothing chain input
  have unlimited : Stage.limit 0 ∉ chain := by simp [chain]
  have nonempty : input ≠ [] := by simp [input]
  exact ⟨by rfl, ⟨unlimited, nonempty⟩, run_cancelled 0 unlimited nonempty⟩

end Chain

end Pipeline
