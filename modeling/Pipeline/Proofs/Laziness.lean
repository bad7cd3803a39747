import Pipeline.Proofs.Composition

/-! A `limit` asks for no step behind the last element it puts out. Over a longer input, stages
that work element by element go the same way until the shorter input is used up, so where they
have put out enough by then, the rest of the input is never looked at. -/

set_option autoImplicit false

namespace Pipeline

namespace Sequence

/-- What a sequence puts out before it ends or fails. -/
def yielded : Sequence → List Value
  | done => []
  | fail _ => []
  | skip rest => (rest ()).yielded
  | yield value rest => value :: (rest ()).yielded

/-- The second sequence takes the same steps, and where the first one is done it may take more. -/
inductive ContinuedBy : Sequence → Sequence → Prop where
  | done {other : Sequence} : ContinuedBy .done other
  | fail (error : RunError) : ContinuedBy (.fail error) (.fail error)
  | skip {rest others : Unit → Sequence} :
      ContinuedBy (rest ()) (others ()) → ContinuedBy (.skip rest) (.skip others)
  | yield (value : Value) {rest others : Unit → Sequence} :
      ContinuedBy (rest ()) (others ()) → ContinuedBy (.yield value rest) (.yield value others)

theorem continuedBy_ofList_append (front back : List Value) :
    (ofList front).ContinuedBy (ofList (front ++ back)) := by
  induction front with
  | nil => exact .done
  | cons value rest ih => exact .yield value ih

theorem continuedBy_append {second follow : Unit → Sequence} (sequence : Sequence)
    (behind : (second ()).ContinuedBy (follow ())) :
    (sequence.append second).ContinuedBy (sequence.append follow) := by
  induction sequence with
  | done => exact .skip behind
  | fail error => exact .fail error
  | skip rest ih => exact .skip (ih ())
  | yield value rest ih => exact .yield value (ih ())

namespace ContinuedBy

variable {sequence other : Sequence}

theorem filter (continued : sequence.ContinuedBy other) (test : Value → Except RunError Bool) :
    (sequence.filter test).ContinuedBy (other.filter test) := by
  induction continued with
  | done => exact .done
  | fail error => exact .fail error
  | skip _ ih => exact .skip ih
  | yield value _ ih =>
      rw [Sequence.filter, Sequence.filter]
      split
      · exact .yield value ih
      · exact .skip ih
      · exact .fail _

theorem map (continued : sequence.ContinuedBy other) (image : Value → Except RunError Value) :
    (sequence.map image).ContinuedBy (other.map image) := by
  induction continued with
  | done => exact .done
  | fail error => exact .fail error
  | skip _ ih => exact .skip ih
  | yield value _ ih =>
      rw [Sequence.map, Sequence.map]
      split
      · exact .yield _ ih
      · exact .fail _

theorem flatMap (continued : sequence.ContinuedBy other)
    (expand : Value → Except RunError Sequence) :
    (sequence.flatMap expand).ContinuedBy (other.flatMap expand) := by
  induction continued with
  | done => exact .done
  | fail error => exact .fail error
  | skip _ ih => exact .skip ih
  | yield value _ ih =>
      rw [Sequence.flatMap, Sequence.flatMap]
      split
      · exact continuedBy_append _ ih
      · exact .fail _

theorem take (continued : sequence.ContinuedBy other) (count : Nat) :
    (sequence.take count).ContinuedBy (other.take count) := by
  cases count with
  | zero =>
      rw [take_zero]
      exact .done
  | succ count =>
      induction continued generalizing count with
      | done => exact .done
      | fail error => exact .fail error
      | skip _ ih => exact .skip (ih count)
      | yield value _ ih =>
          cases count with
          | zero =>
              refine .yield value ?_
              rw [take_zero]
              exact .done
          | succ count => exact .yield value (ih count)

theorem drop (continued : sequence.ContinuedBy other) (count : Nat) :
    (sequence.drop count).ContinuedBy (other.drop count) := by
  induction continued generalizing count with
  | done =>
      cases count <;> exact .done
  | fail error => cases count <;> exact .fail error
  | skip _ ih => cases count <;> exact .skip (ih _)
  | yield value rest ih =>
      cases count with
      | zero => exact .yield value rest
      | succ count => exact .skip (ih count)

/-- What is asked of the longer sequence is no more than what the shorter one puts out. -/
theorem take_eq (continued : sequence.ContinuedBy other) {count : Nat}
    (enough : count ≤ sequence.yielded.length) : other.take count = sequence.take count := by
  induction continued generalizing count with
  | done =>
      obtain rfl : count = 0 := Nat.le_zero.1 enough
      rw [take_zero, take_zero]
  | fail error => rfl
  | skip _ ih =>
      cases count with
      | zero => rfl
      | succ count => exact congrArg Sequence.skip (funext fun _ => ih enough)
  | yield value _ ih =>
      cases count with
      | zero => rfl
      | succ count =>
          have left : count ≤ _ := Nat.le_of_succ_le_succ enough
          exact congrArg (Sequence.yield value) (funext fun _ => ih left)

end ContinuedBy

end Sequence

/-- The stage works on one element after another. -/
def Stage.isStreaming : Stage → Bool
  | filter _ | map _ | flatMap _ | limit _ | skip _ => true
  | sorted _ | distinct | max _ | min _ | sum _ | groupBy _ | collect _ => false

variable (cap : Nat) (token : CancelToken)

theorem Stage.onSequence_continuedBy {stage : Stage} (streaming : stage.isStreaming = true)
    {elements longer : Sequence} (continued : elements.ContinuedBy longer) :
    ∃ passed further, stage.onSequence cap token elements = .ok (.sequence passed) ∧
      stage.onSequence cap token longer = .ok (.sequence further) ∧
      passed.ContinuedBy further := by
  cases stage with
  | filter selector => exact ⟨_, _, rfl, rfl, continued.filter _⟩
  | map selector => exact ⟨_, _, rfl, rfl, continued.map _⟩
  | flatMap lambda => exact ⟨_, _, rfl, rfl, continued.flatMap _⟩
  | limit count => exact ⟨_, _, rfl, rfl, continued.take count⟩
  | skip count => exact ⟨_, _, rfl, rfl, continued.drop count⟩
  | sorted comparator | distinct | max comparator | min comparator | sum selector
  | groupBy selector | collect aggregator => cases streaming

namespace Chain

theorem through_continuedBy {chain : Chain}
    (streaming : ∀ stage ∈ chain, stage.isStreaming = true) {elements longer : Sequence}
    (continued : elements.ContinuedBy longer) :
    ∃ passed further, chain.through cap token (.sequence elements) = .ok (.sequence passed) ∧
      chain.through cap token (.sequence longer) = .ok (.sequence further) ∧
      passed.ContinuedBy further := by
  induction chain generalizing elements longer with
  | nil => exact ⟨elements, longer, rfl, rfl, continued⟩
  | cons stage rest ih =>
      obtain ⟨first, others⟩ := List.forall_mem_cons.1 streaming
      obtain ⟨passed, further, applied, applied', still⟩ :=
        Stage.onSequence_continuedBy cap token first continued
      rw [through, through, Flow.apply, Flow.apply, applied, applied']
      exact ih others still

/-- Where streaming stages put out enough of a first part of the input for a `limit` behind them,
the rest of the input makes no difference, whatever it would lead to. -/
theorem run_limit_append {first : Chain}
    (streaming : ∀ stage ∈ first, stage.isStreaming = true) (count : Nat) (tail : Chain)
    {front : List Value} {elements : Sequence}
    (passed : first.through cap token (.sequence (.ofList front)) = .ok (.sequence elements))
    (enough : count ≤ elements.yielded.length) (back : List Value) :
    (first ++ Stage.limit count :: tail).run cap token (front ++ back) =
      (first ++ Stage.limit count :: tail).run cap token front := by
  obtain ⟨elements', further, passed', longer, continued⟩ :=
    through_continuedBy cap token streaming
      (Sequence.continuedBy_ofList_append front back)
  obtain rfl : elements = elements' := Flow.sequence.inj (Except.ok.inj (passed.symm.trans passed'))
  have limited : Flow.apply cap token (.limit count) (.sequence further) =
      Flow.apply cap token (.limit count) (.sequence elements) :=
    congrArg (fun taken => Except.ok (Flow.sequence taken)) (continued.take_eq enough)
  calc (first ++ Stage.limit count :: tail).run cap token (front ++ back)
      = Chain.outcome cap token (.limit count :: tail) (.sequence further) := by
        rw [run_eq_outcome, outcome_append, longer]
        rfl
    _ = Chain.outcome cap token (.limit count :: tail) (.sequence elements) := by
        rw [outcome_cons, outcome_cons, limited]
    _ = (first ++ Stage.limit count :: tail).run cap token front := by
        rw [run_eq_outcome, outcome_append, passed]
        rfl

/-- The numbers below `2` and `3` without the first one are taken for a limit of `4`. Behind them
stands a range that no cap has room for, and a text that is no bound of a range. -/
theorem run_limit_append_ranges :
    let first : Chain := [.flatMap ⟨"n", .call "range" [.literal (.number (.integer 0)),
      .reference "n"]⟩, .skip 1]
    let chain : Chain := first ++ [.limit 4, .collect .toList]
    let front : List Value := [.integer 2, .integer 3]
    let back : List Value := [.integer 9000000000000000000, .text "a"]
    first.run 5 .never (front ++ back) = .error (.tooManyElements 5) ∧
      (∃ elements, first.through 5 .never (.sequence (.ofList front)) = .ok (.sequence elements) ∧
        4 ≤ elements.yielded.length) ∧
      chain.run 5 .never (front ++ back) = chain.run 5 .never front ∧
      chain.run 5 .never front = .ok (.list [.integer 1, .integer 0, .integer 1, .integer 2]) := by
  intro first chain front back
  have streaming : ∀ stage ∈ first, stage.isStreaming = true := by
    simp [first, Stage.isStreaming]
  obtain ⟨elements, passed, enough⟩ : ∃ elements,
      first.through 5 .never (.sequence (.ofList front)) = .ok (.sequence elements) ∧
        4 ≤ elements.yielded.length := ⟨_, rfl, by decide⟩
  exact ⟨by rfl, ⟨elements, passed, enough⟩,
    run_limit_append 5 .never streaming 4 [.collect .toList] passed enough back, by rfl⟩

end Chain

end Pipeline
