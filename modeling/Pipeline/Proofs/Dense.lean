import Pipeline.Proofs.Except
import Pipeline.Run.Flow

/-! Steps of a lazy sequence that put out nothing leave no trace, as long as nobody asks to
stop: every stage and every loop sees the same of a sequence as of its dense form. -/

set_option autoImplicit false

namespace Pipeline

namespace Sequence

/-- The sequence without the steps that put out nothing. -/
def dense : Sequence → Sequence
  | done => done
  | fail error => fail error
  | skip rest => (rest ()).dense
  | yield value rest => yield value fun _ => (rest ()).dense

variable {cap : Nat}

@[simp]
theorem dense_ofList (values : List Value) : (ofList values).dense = ofList values := by
  induction values with
  | nil => rfl
  | cons value rest ih => simp [ofList, dense, ih]

@[simp]
theorem dense_dense (sequence : Sequence) : sequence.dense.dense = sequence.dense := by
  induction sequence with
  | done | fail error => rfl
  | skip rest ih => exact ih ()
  | yield value rest ih => simp [dense, ih]

/-! ## Combinators -/

@[simp]
theorem take_zero (sequence : Sequence) : sequence.take 0 = done := by
  cases sequence <;> rfl

theorem dense_filter (test : Value → Except RunError Bool) (sequence : Sequence) :
    (sequence.dense.filter test).dense = (sequence.filter test).dense := by
  induction sequence with
  | done | fail error => rfl
  | skip rest ih => exact ih ()
  | yield value rest ih =>
      simp only [dense, filter]
      cases test value with
      | error error => rfl
      | ok passed => cases passed <;> simp [dense, ih]

theorem dense_map (image : Value → Except RunError Value) (sequence : Sequence) :
    (sequence.dense.map image).dense = (sequence.map image).dense := by
  induction sequence with
  | done | fail error => rfl
  | skip rest ih => exact ih ()
  | yield value rest ih =>
      simp only [dense, map]
      cases image value <;> simp [dense, ih]

/-- What follows a sequence counts for its dense form, too. -/
theorem dense_append {second other : Unit → Sequence} (same : (second ()).dense = (other ()).dense)
    (sequence : Sequence) : (sequence.append second).dense = (sequence.append other).dense := by
  induction sequence with
  | done => exact same
  | fail error => rfl
  | skip rest ih => exact ih ()
  | yield value rest ih => simp [dense, append, ih]

theorem dense_flatMap (expand : Value → Except RunError Sequence) (sequence : Sequence) :
    (sequence.dense.flatMap expand).dense = (sequence.flatMap expand).dense := by
  induction sequence with
  | done | fail error => rfl
  | skip rest ih => exact ih ()
  | yield value rest ih =>
      simp only [dense, flatMap]
      cases expand value with
      | error error => rfl
      | ok expanded => exact dense_append (ih ()) expanded

theorem dense_take (count : Nat) (sequence : Sequence) :
    (sequence.dense.take count).dense = (sequence.take count).dense := by
  induction sequence generalizing count with
  | done | fail error => rfl
  | skip rest ih =>
      cases count with
      | zero => simp
      | succ count => exact ih () (count + 1)
  | yield value rest ih =>
      cases count with
      | zero => simp
      | succ count => simp [dense, take, ih]

theorem dense_drop (count : Nat) (sequence : Sequence) :
    (sequence.dense.drop count).dense = (sequence.drop count).dense := by
  induction sequence generalizing count with
  | done | fail error => rfl
  | skip rest ih => exact ih () count
  | yield value rest ih =>
      cases count with
      | zero => simp [dense, drop]
      | succ count => exact ih () count

/-! ## Loops -/

theorem drain_dense {σ : Type} (room : σ → Option RunError)
    (accept : σ → Value → Except RunError σ) (state : σ) (sequence : Sequence) :
    sequence.dense.drain room accept .never state = sequence.drain room accept .never state := by
  induction sequence generalizing state with
  | done | fail error => rfl
  | skip rest ih => exact ih () state
  | yield value rest ih =>
      simp only [dense, drain]
      cases room state with
      | some refusal => rfl
      | none =>
          cases accept state value with
          | error error => rfl
          | ok next => exact ih () next

theorem consume_dense {σ : Type} (accept : σ → Value → Except RunError σ) (state : σ)
    (sequence : Sequence) :
    sequence.dense.consume accept .never state = sequence.consume accept .never state :=
  drain_dense _ accept state sequence

theorem materialize_dense (sequence : Sequence) :
    sequence.dense.materialize cap .never = sequence.materialize cap .never := by
  rw [materialize, drain_dense, materialize]

theorem sum_dense (selector : Selector) (sequence : Sequence) :
    sequence.dense.sum cap .never selector = sequence.sum cap .never selector :=
  consume_dense _ _ sequence

theorem count_dense (sequence : Sequence) :
    sequence.dense.count .never = sequence.count .never := by
  rw [count, consume_dense, count]

theorem group_dense (selector : Selector) (sequence : Sequence) :
    sequence.dense.group cap .never selector = sequence.group cap .never selector := by
  rw [group, consume_dense, group]

theorem collect_dense (aggregator : Aggregator) (sequence : Sequence) :
    sequence.dense.collect cap .never aggregator = sequence.collect cap .never aggregator := by
  cases aggregator with
  | toList | toSet | joining separator => simp only [collect, materialize_dense]
  | counting => exact count_dense sequence
  | summing selector => exact sum_dense selector sequence

/-- A sequence that is taken in as a list is that list. -/
theorem dense_of_materialize {sequence : Sequence} {items : List Value}
    (taken : sequence.materialize cap .never = .ok items) : sequence.dense = ofList items := by
  obtain ⟨⟨reversed, size⟩, drained, rfl⟩ := map_eq_ok.1 taken
  have within : ∀ (sequence : Sequence) (before : List Value) (count : Nat),
      sequence.drain (fun state : List Value × Nat => capRoom cap state.2)
        (fun state value => .ok (value :: state.1, state.2 + 1)) .never (before, count) =
          .ok (reversed, size) →
      ∃ items, reversed = items.reverse ++ before ∧ sequence.dense = ofList items := by
    intro sequence
    induction sequence with
    | done =>
        intro before count drained
        cases drained
        exact ⟨[], rfl, rfl⟩
    | fail error =>
        intro before count drained
        simp [drain, CancelToken.never, CancelToken.step?] at drained
    | skip rest ih => exact ih ()
    | yield value rest ih =>
        intro before count drained
        cases room : capRoom cap count with
        | some refusal =>
            simp [drain, CancelToken.never, CancelToken.step?, room] at drained
        | none =>
            simp only [drain, CancelToken.never, CancelToken.step?, room] at drained
            obtain ⟨items, rfl, same⟩ := ih () (value :: before) (count + 1) drained
            exact ⟨value :: items, by simp, by simp [dense, ofList, same]⟩
  obtain ⟨items, rfl, same⟩ := within sequence [] 0 drained
  simpa using same

end Sequence

namespace Flow

variable {cap : Nat}

/-- The flow with its sequence dense. Groups are kept as they are. -/
def dense : Flow → Flow
  | sequence elements => sequence elements.dense
  | single value => single value
  | groups parts => groups parts

theorem finish_dense (flow : Flow) : flow.dense.finish cap .never = flow.finish cap .never := by
  cases flow with
  | sequence elements => simp only [dense, finish, Sequence.materialize_dense]
  | single value | groups parts => rfl

end Flow

/-- A stage sees the same of a sequence as of its dense form. -/
theorem Stage.onSequence_dense {cap : Nat} (stage : Stage) (elements : Sequence) :
    (stage.onSequence cap .never elements.dense).map Flow.dense =
      (stage.onSequence cap .never elements).map Flow.dense := by
  cases stage with
  | filter selector =>
      simp [onSequence, Except.map, Flow.dense, Sequence.dense_filter]
  | map selector => simp [onSequence, Except.map, Flow.dense, Sequence.dense_map]
  | flatMap lambda => simp [onSequence, Except.map, Flow.dense, Sequence.dense_flatMap]
  | limit count => simp [onSequence, Except.map, Flow.dense, Sequence.dense_take]
  | skip count => simp [onSequence, Except.map, Flow.dense, Sequence.dense_drop]
  | sorted comparator | distinct | max comparator | min comparator =>
      simp only [onSequence, Sequence.materialize_dense]
  | sum selector => simp only [onSequence, Sequence.sum_dense]
  | groupBy selector => simp only [onSequence, Sequence.group_dense]
  | collect aggregator => simp only [onSequence, Sequence.collect_dense]

theorem Flow.apply_dense {cap : Nat} (stage : Stage) (flow : Flow) :
    (flow.dense.apply cap .never stage).map dense = (flow.apply cap .never stage).map dense := by
  cases flow with
  | sequence elements => exact stage.onSequence_dense elements
  | single value | groups parts => rfl

/-- What a chain makes of a flow depends on the dense form alone. -/
theorem Chain.through_dense {cap : Nat} (chain : Chain) {flow other : Flow}
    (same : flow.dense = other.dense) :
    (chain.through cap .never flow).map Flow.dense =
      (chain.through cap .never other).map Flow.dense := by
  induction chain generalizing flow other with
  | nil => simp [through, Except.map, same]
  | cons stage rest ih =>
      have applied : (flow.apply cap .never stage).map Flow.dense =
          (other.apply cap .never stage).map Flow.dense := by
        rw [← Flow.apply_dense, same, Flow.apply_dense]
      simp only [through]
      cases first : flow.apply cap .never stage with
      | error error =>
          cases second : other.apply cap .never stage <;> simp_all [Except.map, bind, Except.bind]
      | ok passed =>
          cases second : other.apply cap .never stage with
          | error error => simp_all [Except.map]
          | ok passed' =>
              rw [first, second] at applied
              exact ih (Except.ok.inj applied)

end Pipeline
