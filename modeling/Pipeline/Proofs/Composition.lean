import Pipeline.Proofs.Dense

/-! A chain may be cut behind stages that pass sequences on: what the first part puts out is
all that the second part needs to know. -/

set_option autoImplicit false

namespace Pipeline

/-- The stage makes a sequence of a sequence. -/
def Stage.isSequential : Stage → Bool
  | filter _ | map _ | flatMap _ | sorted _ | distinct | limit _ | skip _ => true
  | max _ | min _ | sum _ | groupBy _ | collect _ => false

variable {cap : Nat} {token : CancelToken}

theorem Stage.onSequence_sequential {stage : Stage} (sequential : stage.isSequential = true)
    {elements : Sequence} {flow : Flow}
    (applied : stage.onSequence cap token elements = .ok flow) :
    ∃ passed, flow = .sequence passed := by
  cases stage with
  | filter selector | map selector | flatMap lambda | limit count | skip count =>
      cases applied
      exact ⟨_, rfl⟩
  | sorted comparator =>
      obtain ⟨items, _, applied⟩ := bind_eq_ok.1 applied
      obtain ⟨sorted, _, same⟩ := bind_eq_ok.1 applied
      cases same
      exact ⟨_, rfl⟩
  | distinct =>
      obtain ⟨items, _, same⟩ := bind_eq_ok.1 applied
      cases same
      exact ⟨_, rfl⟩
  | max comparator | min comparator | sum selector | groupBy selector | collect aggregator =>
      cases sequential

namespace Chain

/-- What comes of a flow behind a chain. -/
def outcome (cap : Nat) (token : CancelToken) (chain : Chain) (flow : Flow) :
    Except RunError Value :=
  chain.through cap token flow >>= Flow.finish cap token

theorem run_eq_outcome (chain : Chain) (input : List Value) :
    chain.run cap token input = chain.outcome cap token (.sequence (.ofList input)) :=
  rfl

theorem outcome_cons (stage : Stage) (rest : Chain) (flow : Flow) :
    Chain.outcome cap token (stage :: rest) flow =
      flow.apply cap token stage >>= rest.outcome cap token := by
  simp only [outcome, through]
  cases flow.apply cap token stage <;> rfl

theorem outcome_append (first second : Chain) (flow : Flow) :
    Chain.outcome cap token (first ++ second) flow =
      first.through cap token flow >>= second.outcome cap token := by
  induction first generalizing flow with
  | nil => rfl
  | cons stage rest ih =>
      rw [List.cons_append, outcome_cons, through]
      cases flow.apply cap token stage with
      | error error => rfl
      | ok passed => exact ih passed

theorem through_sequential {chain : Chain}
    (sequential : ∀ stage ∈ chain, stage.isSequential = true) {elements : Sequence} {flow : Flow}
    (passed : chain.through cap token (.sequence elements) = .ok flow) :
    ∃ behind, flow = .sequence behind := by
  induction chain generalizing elements with
  | nil =>
      cases passed
      exact ⟨elements, rfl⟩
  | cons stage rest ih =>
      obtain ⟨first, others⟩ := List.forall_mem_cons.1 sequential
      obtain ⟨next, applied, passed⟩ := bind_eq_ok.1 passed
      have applied : stage.onSequence cap token elements = .ok next := applied
      obtain ⟨inner, rfl⟩ := stage.onSequence_sequential first applied
      exact ih others passed

/-- Two flows with the same dense form come to the same end behind a chain. -/
theorem outcome_of_dense_eq (chain : Chain) {flow other : Flow} (same : flow.dense = other.dense) :
    chain.outcome cap .never flow = chain.outcome cap .never other := by
  have behind : (chain.through cap .never flow).map Flow.dense =
      (chain.through cap .never other).map Flow.dense := chain.through_dense same
  rw [outcome, outcome]
  cases first : chain.through cap .never flow with
  | error error =>
      cases second : chain.through cap .never other <;> simp_all [Except.map, bind, Except.bind]
  | ok passed =>
      cases second : chain.through cap .never other with
      | error error => simp_all [Except.map]
      | ok passed' =>
          rw [first, second] at behind
          have dense : passed.dense = passed'.dense := Except.ok.inj behind
          simp only [bind, Except.bind]
          rw [← Flow.finish_dense, dense, Flow.finish_dense]

/-- Where stages that pass sequences on put out a list, any chain behind them comes to the
same end as over that list, in success and in failure. -/
theorem run_append_of_output (cap : Nat) {first : Chain}
    (sequential : ∀ stage ∈ first, stage.isSequential = true) (second : Chain)
    {input output : List Value} (ran : first.run cap .never input = .ok (.list output)) :
    (first ++ second).run cap .never input = second.run cap .never output := by
  obtain ⟨flow, passed, finished⟩ := bind_eq_ok.1 ran
  obtain ⟨behind, rfl⟩ := through_sequential sequential passed
  obtain ⟨items, taken, same⟩ := map_eq_ok.1 finished
  cases same
  have dense : (Flow.sequence behind).dense = (Flow.sequence (Sequence.ofList output)).dense := by
    simp [Flow.dense, Sequence.dense_of_materialize taken]
  calc (first ++ second).run cap .never input
      = second.outcome cap .never (.sequence behind) := by
        rw [run_eq_outcome, outcome_append, passed]
        rfl
    _ = second.run cap .never output := second.outcome_of_dense_eq dense

/-- The quotients of `10` by the first two elements are summed up. The third element is zero,
and nobody divides by it. -/
theorem run_append_of_output_quotients :
    let quotients : Chain :=
      [.map (.lambda ⟨"x", .binary (.arithmetic .divide) (.literal (.number (.integer 10)))
        (.reference "x")⟩), .limit 2]
    let input : List Value := [.integer 5, .integer 2, .integer 0]
    quotients.run 100 .never input = .ok (.list [.integer 2, .integer 5]) ∧
      (quotients ++ [Stage.sum .identity]).run 100 .never input = .ok (.integer 7) := by
  intro quotients input
  have ran : quotients.run 100 .never input = .ok (.list [.integer 2, .integer 5]) := by rfl
  have sequential : ∀ stage ∈ quotients, stage.isSequential = true := by
    simp [quotients, Stage.isSequential]
  refine ⟨ran, ?_⟩
  rw [run_append_of_output 100 sequential [.sum .identity] ran]
  rfl

end Chain

end Pipeline
