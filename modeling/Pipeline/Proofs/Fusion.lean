import Pipeline.Proofs.FlowInduction

/-! A sum of what a selector takes is the sum behind a stage that takes it, and what an aggregator
sums up. The three differ only behind a stage that has reduced the sequence already: then each of
them names itself as the stage that finds no sequence. -/

set_option autoImplicit false

namespace Pipeline

variable {cap : Nat} {token : CancelToken}

namespace Sequence

/-- A loop over images computes each of them where it takes in the element. -/
theorem consume_map {σ : Type} {image : Value → Except RunError Value}
    {accept : σ → Value → Except RunError σ} (token : CancelToken) (state : σ)
    (sequence : Sequence) : (sequence.map image).consume accept token state =
      sequence.consume (fun state value => image value >>= accept state) token state := by
  induction sequence generalizing token state with
  | done | fail error => rfl
  | skip rest ih =>
      simp only [map, consume, drain]
      cases token.step? with
      | none => rfl
      | some token => exact ih () token state
  | yield value rest ih =>
      simp only [map, consume, drain]
      cases image value with
      | error error => cases step : token.step? <;> simp [drain, step, bind, Except.bind]
      | ok mapped =>
          simp only [drain, bind, Except.bind]
          cases token.step? with
          | none => rfl
          | some token =>
              cases accept state mapped with
              | error error => rfl
              | ok next => exact ih () token next

theorem sum_map (selector : Selector) (elements : Sequence) :
    (elements.map (selector.select cap)).sum cap token .identity =
      elements.sum cap token selector := by
  have step : (fun total element => selector.select cap element >>=
      Selector.addTo cap .identity total) = selector.addTo cap := by
    funext total element
    simp only [Selector.addTo]
    cases selector.select cap element <;> rfl
  rw [sum, consume_map, step, sum]

end Sequence

/-- The stage makes a single value of a sequence. -/
def Stage.isReduction : Stage → Bool
  | max _ | min _ | sum _ | collect _ => true
  | filter _ | map _ | flatMap _ | sorted _ | distinct | groupBy _ | limit _ | skip _ => false

namespace Flow

def IsSequence (flow : Flow) : Prop :=
  ∃ elements, flow = .sequence elements

def IsSingle (flow : Flow) : Prop :=
  ∃ value, flow = .single value

/-- The flow is in the given state, or all of its groups are. -/
inductive Throughout (state : Flow → Prop) : Flow → Prop where
  | here {flow : Flow} : state flow → Throughout state flow
  | noGroups : Throughout state (.groups [])
  | group (key : Key) {part : Flow} {parts : List (Key × Flow)} :
      Throughout state part → Throughout state (.groups parts) →
      Throughout state (.groups ((key, part) :: parts))

/-- What a stage makes of every sequence, it makes of the groups of any flow. -/
theorem throughout_of_apply {state : Flow → Prop} {stage : Stage}
    (made : ∀ elements passed, stage.onSequence cap token elements = .ok passed →
      passed.Throughout state) {flow passed : Flow}
    (applied : flow.apply cap token stage = .ok passed) : passed.Throughout state := by
  induction flow using Flow.induct generalizing passed with
  | sequence elements => exact made elements passed applied
  | single value => cases applied
  | noGroups =>
      cases applied
      exact .noGroups
  | group key part parts first rest =>
      obtain ⟨behind, others, appliedFirst, appliedRest, rfl⟩ := apply_group_eq_ok.1 applied
      exact .group key (first appliedFirst) (rest appliedRest)

theorem isSingle_of_reduction {stage : Stage} (reduction : stage.isReduction = true)
    {flow passed : Flow} (applied : flow.apply cap token stage = .ok passed) :
    passed.Throughout IsSingle := by
  refine throughout_of_apply (fun elements passed made => ?_) applied
  cases stage with
  | max comparator | min comparator =>
      obtain ⟨items, _, made⟩ := bind_eq_ok.1 made
      obtain ⟨value, _, same⟩ := bind_eq_ok.1 made
      cases same
      exact .here ⟨value, rfl⟩
  | sum selector | collect aggregator =>
      obtain ⟨value, _, same⟩ := bind_eq_ok.1 made
      cases same
      exact .here ⟨value, rfl⟩
  | filter _ | map _ | flatMap _ | sorted _ | distinct | groupBy _ | limit _ | skip _ =>
      cases reduction

theorem isSequence_of_not_reduction {stage : Stage} (other : stage.isReduction = false)
    {flow passed : Flow} (applied : flow.apply cap token stage = .ok passed) :
    passed.Throughout IsSequence := by
  have groups (parts : Grouping) : Throughout IsSequence (.groups (parts.map
      fun part => (part.1, .sequence (Sequence.ofList part.2.reverse)))) := by
    induction parts with
    | nil => exact .noGroups
    | cons part rest ih => exact .group part.1 (.here ⟨_, rfl⟩) ih
  refine throughout_of_apply (fun elements passed made => ?_) applied
  cases stage with
  | filter selector | map selector | flatMap lambda | limit count | skip count =>
      cases made
      exact .here ⟨_, rfl⟩
  | sorted comparator =>
      obtain ⟨items, _, made⟩ := bind_eq_ok.1 made
      obtain ⟨sorted, _, same⟩ := bind_eq_ok.1 made
      cases same
      exact .here ⟨_, rfl⟩
  | distinct =>
      obtain ⟨items, _, same⟩ := bind_eq_ok.1 made
      cases same
      exact .here ⟨_, rfl⟩
  | groupBy selector =>
      obtain ⟨parts, grouped, same⟩ := bind_eq_ok.1 made
      obtain ⟨⟨grouping, size⟩, _, rest⟩ := bind_eq_ok.1 grouped
      cases same
      cases rest
      exact groups grouping
  | max _ | min _ | sum _ | collect _ => cases other

/-! ## Behind the last stage -/

/-- Taking the values never fails by itself, so the sums of the groups are made in their order. -/
theorem exists_apply_map {flow : Flow} (sequences : flow.Throughout IsSequence)
    (selector : Selector) :
    ∃ mapped, flow.apply cap token (.map selector) = .ok mapped ∧
      mapped.apply cap token (.sum .identity) = flow.apply cap token (.sum selector) := by
  induction sequences with
  | here sequence =>
      obtain ⟨elements, rfl⟩ := sequence
      refine ⟨_, rfl, ?_⟩
      simp only [apply, Stage.onSequence, Sequence.sum_map]
  | noGroups => exact ⟨_, rfl, rfl⟩
  | group key _ _ first rest =>
      obtain ⟨mappedFirst, appliedFirst, sumFirst⟩ := first
      obtain ⟨mappedRest, appliedRest, sumRest⟩ := rest
      obtain ⟨others, _, rfl⟩ := apply_groups_eq_ok.1 appliedRest
      refine ⟨_, apply_group_eq_ok.2 ⟨mappedFirst, others, appliedFirst, appliedRest, rfl⟩, ?_⟩
      rw [apply_groups_cons, apply_groups_cons, sumFirst, sumRest]

theorem apply_collect_summing (selector : Selector) {flow : Flow}
    (sequences : flow.Throughout IsSequence) :
    flow.apply cap token (.collect (.summing selector)) = flow.apply cap token (.sum selector) := by
  induction sequences with
  | here sequence =>
      obtain ⟨elements, rfl⟩ := sequence
      rfl
  | noGroups => rfl
  | group key _ _ first rest => rw [apply_groups_cons, apply_groups_cons, first, rest]

/-- Single values have no further stage, whichever it is; where there are none, every stage passes
the flow on. -/
theorem apply_of_singles {flow : Flow} (singles : flow.Throughout IsSingle) :
    (∃ kind, ∀ stage : Stage, flow.apply cap token stage =
      .error (.type (.notSequence stage.name kind))) ∨
      ∀ stage, flow.apply cap token stage = .ok flow := by
  induction singles with
  | here single =>
      obtain ⟨value, rfl⟩ := single
      exact .inl ⟨value.kind, fun stage => rfl⟩
  | noGroups => exact .inr fun stage => rfl
  | group key _ _ first rest =>
      rcases first with ⟨kind, fails⟩ | passes
      · refine .inl ⟨kind, fun stage => ?_⟩
        rw [apply_groups_cons, fails]
        rfl
      · rcases rest with ⟨kind, fails⟩ | passesRest
        · refine .inl ⟨kind, fun stage => ?_⟩
          rw [apply_groups_cons, passes, fails]
          rfl
        · refine .inr fun stage => ?_
          rw [apply_groups_cons, passes, passesRest]
          rfl

end Flow

namespace Chain

theorem through_concat {first : Chain} {stage : Stage} {flow passed : Flow}
    (through : Chain.through cap token (first ++ [stage]) flow = .ok passed) :
    ∃ between, first.through cap token flow = .ok between ∧
      between.apply cap token stage = .ok passed := by
  induction first generalizing flow with
  | nil =>
      obtain ⟨next, applied, same⟩ := bind_eq_ok.1 through
      cases same
      exact ⟨flow, rfl, applied⟩
  | cons head rest ih =>
      obtain ⟨next, applied, through⟩ := bind_eq_ok.1 through
      obtain ⟨between, throughRest, behind⟩ := ih through
      exact ⟨between, bind_eq_ok.2 ⟨next, applied, throughRest⟩, behind⟩

/-- Behind a chain stand sequences, or single values if its last stage is a reduction. -/
theorem sequences_or_singles {chain : Chain} {elements : Sequence} {passed : Flow}
    (through : chain.through cap token (.sequence elements) = .ok passed) :
    passed.Throughout Flow.IsSequence ∨
      (∃ stage, chain.getLast? = some stage ∧ stage.isReduction = true) ∧
        passed.Throughout Flow.IsSingle := by
  rcases chain.eq_nil_or_concat with rfl | ⟨first, last, rfl⟩
  · cases through
    exact .inl (.here ⟨elements, rfl⟩)
  · rw [List.concat_eq_append] at through ⊢
    obtain ⟨between, _, applied⟩ := through_concat through
    cases reduction : last.isReduction with
    | true =>
        exact .inr ⟨⟨last, List.getLast?_concat, reduction⟩,
          Flow.isSingle_of_reduction reduction applied⟩
    | false => exact .inl (Flow.isSequence_of_not_reduction reduction applied)

theorem outcome_sum_of_sequences {flow : Flow} (sequences : flow.Throughout Flow.IsSequence)
    (selector : Selector) :
    outcome cap token [.map selector, .sum .identity] flow =
        outcome cap token [.sum selector] flow ∧
      outcome cap token [.collect (.summing selector)] flow =
        outcome cap token [.sum selector] flow := by
  obtain ⟨mapped, applied, sums⟩ := Flow.exists_apply_map sequences selector
  constructor
  · rw [outcome_cons, applied, outcome_cons, ← sums, ← outcome_cons]
    rfl
  · rw [outcome_cons, Flow.apply_collect_summing selector sequences, ← outcome_cons]

theorem outcome_of_singles {flow : Flow} (singles : flow.Throughout Flow.IsSingle) :
    (∃ kind, ∀ (stage : Stage) (rest : Chain), outcome cap token (stage :: rest) flow =
      .error (.type (.notSequence stage.name kind))) ∨
      ∀ chain, outcome cap token chain flow = flow.finish cap token := by
  rcases Flow.apply_of_singles singles with ⟨kind, fails⟩ | passes
  · refine .inl ⟨kind, fun stage rest => ?_⟩
    rw [outcome_cons, fails]
    rfl
  · refine .inr fun chain => ?_
    induction chain with
    | nil => rfl
    | cons stage rest ih =>
        rw [outcome_cons, passes]
        exact ih

/-- A chain that ends in a sum comes to the same with the selector's values taken by a stage of
their own, and with the sum as an aggregator. Only where a reduction stands in front of the sum and
left a single value do the three differ, in the stage that the failure names. -/
theorem run_sum_eq (cap : Nat) (token : CancelToken) (first : Chain) (selector : Selector)
    (input : List Value) :
    let outcome (last : Chain) := (first ++ last).run cap token input
    (outcome [.map selector, .sum .identity] = outcome [.sum selector] ∧
        outcome [.collect (.summing selector)] = outcome [.sum selector]) ∨
      (∃ stage, first.getLast? = some stage ∧ stage.isReduction = true) ∧
        ∃ kind, outcome [.sum selector] = .error (.type (.notSequence "sum" kind)) ∧
          outcome [.map selector, .sum .identity] = .error (.type (.notSequence "map" kind)) ∧
          outcome [.collect (.summing selector)] =
            .error (.type (.notSequence "collect" kind)) := by
  cases through : first.through cap token (.sequence (.ofList input)) with
  | error error => simp [run_eq_outcome, outcome_append, through, bind, Except.bind]
  | ok passed =>
      have behind : ∀ last : Chain,
          (first ++ last).run cap token input = last.outcome cap token passed := by
        simp [run_eq_outcome, outcome_append, through, bind, Except.bind]
      simp only [behind]
      rcases sequences_or_singles through with sequences | ⟨reduction, singles⟩
      · exact .inl (outcome_sum_of_sequences sequences selector)
      · rcases outcome_of_singles singles with ⟨kind, fails⟩ | finishes
        · exact .inr ⟨reduction, kind, fails _ _, fails _ _, fails _ _⟩
        · simp [finishes]

/-- Behind the largest element there is no sequence, and the stage that finds none is named. -/
theorem run_sum_ne :
    let outcome (last : Chain) := Chain.run 100 .never (.max .natural :: last) [.integer 3]
    outcome [.sum .identity] = .error (.type (.notSequence "sum" .integer)) ∧
      outcome [.map .identity, .sum .identity] ≠ outcome [.sum .identity] ∧
      outcome [.collect (.summing .identity)] ≠ outcome [.sum .identity] := by
  intro outcome
  have sum : outcome [.sum .identity] = .error (.type (.notSequence "sum" .integer)) := by rfl
  have map : outcome [.map .identity, .sum .identity] =
      .error (.type (.notSequence "map" .integer)) := by rfl
  have collect : outcome [.collect (.summing .identity)] =
      .error (.type (.notSequence "collect" .integer)) := by rfl
  rw [sum, map, collect]
  simp

end Chain

end Pipeline
