import Pipeline.Proofs.Contents
import Pipeline.Proofs.FlowInduction

/-! Eager evaluation, in which every stage has all its elements before the next stage starts. What
it comes to the lazy run comes to, and without limits also the other way round: no failure is
passed over for being asked for late. -/

set_option autoImplicit false

namespace Pipeline

/-- What stands between two stages of an eager run: all elements as a list, the single value to
which a stage reduced them, or groups. -/
inductive Batch where
  | list (items : List Value)
  | single (value : Value)
  | groups (parts : List (Key × Batch))

/-- The list that a lambda expands an element to. That of a `range` is made however long it is. -/
def Lambda.expansion (cap : Nat) (lambda : Lambda) (element : Value) :
    Except RunError (List Value) := do
  match lambda.body with
  | .call "range" arguments => do
    let values ← Expr.evalAll cap lambda.parameter element arguments
    let (lower, upper) ← rangeBounds values
    .ok (integersBetween lower upper)
  | _ => do
    let value ← lambda.eval cap element
    match value with
    | .list items => .ok items
    | other => .error (.type (.flatMapResult other.kind))

def Aggregator.ofList (cap : Nat) (aggregator : Aggregator) (items : List Value) :
    Except RunError Value := do
  match aggregator with
  | .toList => do
    let items ← bounded cap items
    .ok (.list items)
  | .toSet => do
    let items ← bounded cap items
    let sorted ← Comparator.natural.sort cap (distinctBy Mark.hashAll items)
    .ok (.list sorted)
  | .counting =>
    match boundedInteger? items.length with
    | some size => .ok (.integer size)
    | none => .error (.overflow .count)
  | .joining separator => do
    let items ← bounded cap items
    let texts ← textsOf items
    .ok (.text (separator.intercalate texts))
  | .summing selector => items.foldlM (selector.addTo cap) (.integer 0)

/-- What a stage makes of a list, all of which is there. -/
def Stage.onList (cap : Nat) (stage : Stage) (items : List Value) : Except RunError Batch := do
  match stage with
  | .filter selector => do
    let kept ← passing (selector.test cap) items
    .ok (.list kept)
  | .map selector => do
    let images ← items.mapM (selector.select cap)
    .ok (.list images)
  | .flatMap lambda => do
    let lists ← items.mapM (lambda.expansion cap)
    .ok (.list lists.flatten)
  | .sorted comparator => do
    let items ← bounded cap items
    let sorted ← (comparator.getD .natural).sort cap items
    .ok (.list sorted)
  | .distinct => do
    let items ← bounded cap items
    .ok (.list (distinctBy Mark.hashAll items))
  | .max comparator => do
    let items ← bounded cap items
    let value ← comparator.extreme cap .max items
    .ok (.single value)
  | .min comparator => do
    let items ← bounded cap items
    let value ← comparator.extreme cap .min items
    .ok (.single value)
  | .sum selector => do
    let total ← items.foldlM (selector.addTo cap) (.integer 0)
    .ok (.single total)
  | .groupBy selector => do
    let (groups, _) ← items.foldlM (selector.addToGroup cap) ([], 0)
    .ok (.groups (groups.map fun (key, members) => (key, .list members.reverse)))
  | .collect aggregator => do
    let value ← aggregator.ofList cap items
    .ok (.single value)
  | .limit count => .ok (.list (items.take count))
  | .skip count => .ok (.list (items.drop count))

namespace Batch

mutual

/-- What a stage makes of a batch: groups one by one in key order. -/
def apply (cap : Nat) (stage : Stage) : Batch → Except RunError Batch
  | list items => stage.onList cap items
  | single value => .error (.type (.notSequence stage.name value.kind))
  | groups parts => (applyParts cap stage parts).map groups
termination_by structural batch => batch

def applyParts (cap : Nat) (stage : Stage) :
    List (Key × Batch) → Except RunError (List (Key × Batch))
  | [] => .ok []
  | (key, part) :: rest => do
    let part ← apply cap stage part
    let parts ← applyParts cap stage rest
    .ok ((key, part) :: parts)
termination_by structural parts => parts

end

mutual

def finish (cap : Nat) : Batch → Except RunError Value
  | list items => (bounded cap items).map .list
  | single value => .ok value
  | groups parts => (finishParts cap parts).map .map
termination_by structural batch => batch

def finishParts (cap : Nat) : List (Key × Batch) → Except RunError (List (Key × Value))
  | [] => .ok []
  | (key, part) :: rest => do
    let value ← finish cap part
    let values ← finishParts cap rest
    .ok ((key, value) :: values)
termination_by structural parts => parts

end

end Batch

def Chain.throughBatches (cap : Nat) : Chain → Batch → Except RunError Batch
  | [], batch => .ok batch
  | stage :: rest, batch => do
    let batch ← batch.apply cap stage
    Chain.throughBatches cap rest batch

/-- The value of a chain over its input, stage by stage over complete lists. -/
def Chain.runEager (cap : Nat) (chain : Chain) (input : List Value) : Except RunError Value := do
  let batch ← chain.throughBatches cap (.list input)
  batch.finish cap

/-! ## Batches group by group -/

namespace Batch

variable {cap : Nat} {key : Key} {part : Batch} {rest : List (Key × Batch)}

theorem apply_group_eq_ok {stage : Stage} {batch : Batch} :
    (groups ((key, part) :: rest)).apply cap stage = .ok batch ↔
      ∃ first others, part.apply cap stage = .ok first ∧
        (groups rest).apply cap stage = .ok (groups others) ∧
        groups ((key, first) :: others) = batch := by
  simp only [apply, applyParts, map_eq_ok, bind_eq_ok, Except.ok.injEq, groups.injEq,
    exists_eq_right]
  constructor
  · rintro ⟨_, ⟨first, applied, others, appliedRest, rfl⟩, rfl⟩
    exact ⟨first, others, applied, appliedRest, rfl⟩
  · rintro ⟨first, others, applied, appliedRest, rfl⟩
    exact ⟨_, ⟨first, applied, others, appliedRest, rfl⟩, rfl⟩

theorem finish_groups_cons :
    (groups ((key, part) :: rest)).finish cap = (do
      let first ← part.finish cap
      let others ← (groups rest).finish cap
      .ok (others.withEntry key first)) := by
  simp only [finish, finishParts]
  cases part.finish cap with
  | error error => rfl
  | ok first => cases finishParts cap rest <;> rfl

end Batch

/-! ## What a flow holds -/

/-- The batch is what the flow holds: the contents of its sequences, none of which ends in a
failure. -/
inductive Flow.Holds : Flow → Batch → Prop where
  | list {elements : Sequence} {items : List Value} :
      elements.contents = .ok items → Holds (.sequence elements) (.list items)
  | single (value : Value) : Holds (.single value) (.single value)
  | noGroups : Holds (.groups []) (.groups [])
  | group (key : Key) {part : Flow} {batch : Batch} {parts : List (Key × Flow)}
      {batches : List (Key × Batch)} : Holds part batch → Holds (.groups parts) (.groups batches) →
      Holds (.groups ((key, part) :: parts)) (.groups ((key, batch) :: batches))

theorem Flow.Holds.unique {flow : Flow} {batch other : Batch} (holds : flow.Holds batch)
    (also : flow.Holds other) : batch = other := by
  induction holds generalizing other with
  | list all =>
      cases also with
      | list same => cases all.symm.trans same; rfl
  | single value => cases also; rfl
  | noGroups => cases also; rfl
  | group key _ _ first rest =>
      cases also with
      | group _ part parts =>
          cases first part
          cases rest parts
          rfl

theorem Flow.Holds.of_groups {parts : List (Key × Flow)} {batch : Batch}
    (holds : (Flow.groups parts).Holds batch) : ∃ batches, batch = .groups batches := by
  cases holds with
  | noGroups => exact ⟨[], rfl⟩
  | group key _ _ => exact ⟨_, rfl⟩

theorem Flow.holds_lists (lists : List (Key × List Value)) :
    Holds (.groups (lists.map fun (key, items) => (key, .sequence (.ofList items.reverse))))
      (.groups (lists.map fun (key, items) => (key, .list items.reverse))) := by
  induction lists with
  | nil => exact .noGroups
  | cons head rest ih => exact .group head.1 (.list (Sequence.contents_ofList _)) ih

variable {cap : Nat} {token : CancelToken}

/-! ## One stage -/

theorem Lambda.expand_contents (lambda : Lambda) :
    (fun element => lambda.expand cap element >>= Sequence.contents) = lambda.expansion cap := by
  funext element
  by_cases ranges : ∃ arguments, lambda.body = .call "range" arguments
  · obtain ⟨arguments, body⟩ := ranges
    simp only [Lambda.expand, Lambda.expansion, body]
    cases Expr.evalAll cap lambda.parameter element arguments with
    | error error => rfl
    | ok values =>
        cases bounds : rangeBounds values with
        | error error => simp [bind, Except.bind, bounds]
        | ok ends =>
            simp [bind, Except.bind, bounds, Sequence.contents_consecutive, integersBetween]
  · have lazily : lambda.expand cap element = lambda.eval cap element >>= fun
        | .list items => .ok (Sequence.ofList items)
        | other => .error (.type (.flatMapResult other.kind)) := by
      unfold Lambda.expand
      split
      · exact absurd ⟨_, ‹_›⟩ ranges
      · rfl
    have eagerly : lambda.expansion cap element = lambda.eval cap element >>= fun
        | .list items => .ok items
        | other => .error (.type (.flatMapResult other.kind)) := by
      unfold Lambda.expansion
      split
      · exact absurd ⟨_, ‹_›⟩ ranges
      · rfl
    rw [lazily, eagerly]
    cases lambda.eval cap element with
    | error error => rfl
    | ok value => cases value <;> simp [bind, Except.bind, Sequence.contents_ofList]

/-- The step by which a run counts elements. -/
private def countStep (size : Int64) (_ : Value) : Except RunError Int64 :=
  match boundedInteger? (size.toInt + 1) with
  | some size => .ok size
  | none => .error (.overflow .count)

/-- Counting fails at the first element for which there is no number, so exactly if there is none
for all of them. -/
private theorem foldlM_countStep (items : List Value) {size : Int64} (counts : 0 ≤ size.toInt) :
    items.foldlM countStep size =
      match boundedInteger? (size.toInt + items.length) with
      | some size => .ok size
      | none => .error (.overflow .count) := by
  induction items generalizing size with
  | nil =>
      have least : integerMin ≤ size.toInt := Int64.le_toInt size
      have greatest : size.toInt ≤ integerMax := Int64.toInt_le size
      simp [boundedInteger?, least, greatest, pure, Except.pure]
  | cons item rest ih =>
      rw [List.foldlM_cons, countStep, List.length_cons]
      by_cases fits : size.toInt + 1 ≤ integerMax
      · have bounds : integerMin ≤ size.toInt + 1 := by
          have : integerMin ≤ size.toInt := Int64.le_toInt size
          omega
        have next : (Int64.ofInt (size.toInt + 1)).toInt = size.toInt + 1 :=
          Int64.toInt_ofInt_of_le bounds (Int.lt_of_le_sub_one fits)
        have shift : size.toInt + 1 + rest.length = size.toInt + ↑(rest.length + 1) := by omega
        have counts : 0 ≤ (Int64.ofInt (size.toInt + 1)).toInt := by omega
        have behind := ih counts
        rw [next, shift] at behind
        simpa [boundedInteger?, bounds, fits, bind, Except.bind] using behind
      · have exceeds : ¬ size.toInt + ↑(rest.length + 1) ≤ integerMax := by omega
        simp only [boundedInteger?, fits, exceeds, and_false, if_false]
        rfl

section OneStage

variable {elements : Sequence} {items : List Value}

theorem Sequence.collect_of_contents (all : elements.contents = .ok items)
    (aggregator : Aggregator) :
    elements.collect cap .never aggregator = aggregator.ofList cap items := by
  have taken : elements.materialize cap .never = bounded cap items := materialize_of_contents all
  cases aggregator with
  | toList | toSet | joining separator => rw [collect, taken, Aggregator.ofList]
  | counting =>
      have counted := (consume_of_contents all 0).trans (foldlM_countStep items Int.le_rfl)
      rw [Int64.toInt_zero, Int.zero_add] at counted
      rw [collect, count, Aggregator.ofList]
      change (elements.consume countStep .never 0).map Value.integer = _
      rw [counted]
      cases boundedInteger? items.length <;> rfl
  | summing selector => exact consume_of_contents all _

theorem Sequence.contents_of_collect {token : CancelToken} {aggregator : Aggregator}
    {value : Value} (collected : elements.collect cap token aggregator = .ok value) :
    ∃ items, elements.contents = .ok items ∧ aggregator.ofList cap items = .ok value := by
  cases aggregator with
  | toList | toSet | joining separator =>
      obtain ⟨items, taken, made⟩ := bind_eq_ok.1 collected
      obtain ⟨all, within⟩ := contents_of_materialize taken
      exact ⟨items, all, bind_eq_ok.2 ⟨items, within, made⟩⟩
  | counting =>
      obtain ⟨size, counted, rfl⟩ := map_eq_ok.1 collected
      obtain ⟨items, all, folded⟩ := contents_of_consume counted
      have whole := (foldlM_countStep items Int.le_rfl).symm.trans folded
      rw [Int64.toInt_zero, Int.zero_add] at whole
      refine ⟨items, all, ?_⟩
      rw [Aggregator.ofList]
      split at whole
      · cases whole
        rfl
      · cases whole
  | summing selector => exact contents_of_consume collected

/-- What a stage makes of a list that a sequence holds, it makes of the sequence. -/
theorem Stage.onSequence_of_onList (all : elements.contents = .ok items) {stage : Stage}
    {batch : Batch} (eager : stage.onList cap items = .ok batch) :
    ∃ flow, stage.onSequence cap .never elements = .ok flow ∧ flow.Holds batch := by
  have taken : elements.materialize cap .never = bounded cap items :=
    Sequence.materialize_of_contents all
  cases stage with
  | filter selector =>
      obtain ⟨kept, tests, same⟩ := bind_eq_ok.1 eager
      cases same
      exact ⟨_, rfl, .list (Sequence.contents_filter_eq_ok.2 ⟨items, all, tests⟩)⟩
  | map selector =>
      obtain ⟨images, maps, same⟩ := bind_eq_ok.1 eager
      cases same
      exact ⟨_, rfl, .list (Sequence.contents_map_eq_ok.2 ⟨items, all, maps⟩)⟩
  | flatMap lambda =>
      obtain ⟨lists, expansions, same⟩ := bind_eq_ok.1 eager
      cases same
      rw [← lambda.expand_contents] at expansions
      exact ⟨_, rfl, .list (Sequence.contents_flatMap_eq_ok.2 ⟨items, lists, all, expansions, rfl⟩)⟩
  | sorted comparator =>
      obtain ⟨within, bounds, eager⟩ := bind_eq_ok.1 eager
      obtain ⟨sorted, sorts, same⟩ := bind_eq_ok.1 eager
      cases same
      exact ⟨_, bind_eq_ok.2 ⟨within, taken.trans bounds, bind_eq_ok.2 ⟨sorted, sorts, rfl⟩⟩,
        .list (Sequence.contents_ofList _)⟩
  | distinct =>
      obtain ⟨within, bounds, same⟩ := bind_eq_ok.1 eager
      cases same
      exact ⟨_, bind_eq_ok.2 ⟨within, taken.trans bounds, rfl⟩, .list (Sequence.contents_ofList _)⟩
  | max comparator | min comparator =>
      obtain ⟨within, bounds, eager⟩ := bind_eq_ok.1 eager
      obtain ⟨value, found, same⟩ := bind_eq_ok.1 eager
      cases same
      exact ⟨_, bind_eq_ok.2 ⟨within, taken.trans bounds, bind_eq_ok.2 ⟨value, found, rfl⟩⟩,
        .single value⟩
  | sum selector =>
      obtain ⟨total, added, same⟩ := bind_eq_ok.1 eager
      cases same
      have summed := (Sequence.consume_of_contents all _).trans added
      exact ⟨_, bind_eq_ok.2 ⟨total, summed, rfl⟩, .single total⟩
  | groupBy selector =>
      obtain ⟨⟨groups, size⟩, added, same⟩ := bind_eq_ok.1 eager
      cases same
      have grouped := (Sequence.consume_of_contents all ([], 0)).trans added
      exact ⟨_, bind_eq_ok.2 ⟨_, bind_eq_ok.2 ⟨_, grouped, rfl⟩, rfl⟩, Flow.holds_lists groups⟩
  | collect aggregator =>
      obtain ⟨value, made, same⟩ := bind_eq_ok.1 eager
      cases same
      have collected := (Sequence.collect_of_contents all aggregator).trans made
      exact ⟨_, bind_eq_ok.2 ⟨value, collected, rfl⟩, .single value⟩
  | limit count =>
      cases eager
      exact ⟨_, rfl, .list (Sequence.contents_take all count)⟩
  | skip count =>
      cases eager
      exact ⟨_, rfl, .list (Sequence.contents_drop_eq_ok.2 ⟨items, all, rfl⟩)⟩

/-- A sequence of which a stage other than a limit makes something without a failure has none in
itself. -/
theorem Stage.onList_of_onSequence {token : CancelToken} {stage : Stage} {flow : Flow}
    {batch : Batch} (unlimited : ∀ count, stage ≠ .limit count)
    (lazy : stage.onSequence cap token elements = .ok flow) (holds : flow.Holds batch) :
    ∃ items, elements.contents = .ok items ∧ stage.onList cap items = .ok batch := by
  cases stage with
  | filter selector =>
      cases lazy
      obtain ⟨whole⟩ := holds
      obtain ⟨items, all, tests⟩ := Sequence.contents_filter_eq_ok.1 whole
      exact ⟨items, all, bind_eq_ok.2 ⟨_, tests, rfl⟩⟩
  | map selector =>
      cases lazy
      obtain ⟨whole⟩ := holds
      obtain ⟨items, all, maps⟩ := Sequence.contents_map_eq_ok.1 whole
      exact ⟨items, all, bind_eq_ok.2 ⟨_, maps, rfl⟩⟩
  | flatMap lambda =>
      cases lazy
      obtain ⟨whole⟩ := holds
      obtain ⟨items, lists, all, expansions, rfl⟩ := Sequence.contents_flatMap_eq_ok.1 whole
      rw [lambda.expand_contents] at expansions
      exact ⟨items, all, bind_eq_ok.2 ⟨lists, expansions, rfl⟩⟩
  | sorted comparator =>
      obtain ⟨items, taken, lazy⟩ := bind_eq_ok.1 lazy
      obtain ⟨sorted, sorts, same⟩ := bind_eq_ok.1 lazy
      cases same
      obtain ⟨all, within⟩ := Sequence.contents_of_materialize taken
      cases holds.unique (.list (Sequence.contents_ofList sorted))
      exact ⟨items, all, bind_eq_ok.2 ⟨items, within, bind_eq_ok.2 ⟨sorted, sorts, rfl⟩⟩⟩
  | distinct =>
      obtain ⟨items, taken, same⟩ := bind_eq_ok.1 lazy
      cases same
      obtain ⟨all, within⟩ := Sequence.contents_of_materialize taken
      cases holds.unique (.list (Sequence.contents_ofList _))
      exact ⟨items, all, bind_eq_ok.2 ⟨items, within, rfl⟩⟩
  | max comparator | min comparator =>
      obtain ⟨items, taken, lazy⟩ := bind_eq_ok.1 lazy
      obtain ⟨value, found, same⟩ := bind_eq_ok.1 lazy
      cases same
      obtain ⟨all, within⟩ := Sequence.contents_of_materialize taken
      cases holds.unique (.single value)
      exact ⟨items, all, bind_eq_ok.2 ⟨items, within, bind_eq_ok.2 ⟨value, found, rfl⟩⟩⟩
  | sum selector =>
      obtain ⟨total, summed, same⟩ := bind_eq_ok.1 lazy
      cases same
      obtain ⟨items, all, added⟩ := Sequence.contents_of_consume summed
      cases holds.unique (.single total)
      exact ⟨items, all, bind_eq_ok.2 ⟨total, added, rfl⟩⟩
  | groupBy selector =>
      obtain ⟨parts, grouped, same⟩ := bind_eq_ok.1 lazy
      cases same
      obtain ⟨⟨groups, size⟩, consumed, same⟩ := bind_eq_ok.1 grouped
      cases same
      obtain ⟨items, all, added⟩ := Sequence.contents_of_consume consumed
      cases holds.unique (Flow.holds_lists groups)
      exact ⟨items, all, bind_eq_ok.2 ⟨_, added, rfl⟩⟩
  | collect aggregator =>
      obtain ⟨value, collected, same⟩ := bind_eq_ok.1 lazy
      cases same
      obtain ⟨items, all, made⟩ := Sequence.contents_of_collect collected
      cases holds.unique (.single value)
      exact ⟨items, all, bind_eq_ok.2 ⟨value, made, rfl⟩⟩
  | limit count => exact absurd rfl (unlimited count)
  | skip count =>
      cases lazy
      obtain ⟨whole⟩ := holds
      obtain ⟨items, all, rfl⟩ := Sequence.contents_drop_eq_ok.1 whole
      exact ⟨items, all, rfl⟩

end OneStage

/-! ## Whole flows and chains -/

namespace Flow

/-- A stage that comes to something eagerly comes to the same lazily. -/
theorem Holds.apply {flow : Flow} {batch next : Batch} (holds : flow.Holds batch) {stage : Stage}
    (eager : batch.apply cap stage = .ok next) :
    ∃ passed, flow.apply cap .never stage = .ok passed ∧ passed.Holds next := by
  induction holds generalizing next with
  | list all => exact Stage.onSequence_of_onList all eager
  | single value => cases eager
  | noGroups =>
      cases eager
      exact ⟨_, rfl, .noGroups⟩
  | group key _ _ ih ihRest =>
      obtain ⟨first, others, applied, appliedRest, rfl⟩ := Batch.apply_group_eq_ok.1 eager
      obtain ⟨passed, appliedPart, holdsPart⟩ := ih applied
      obtain ⟨_, appliedParts, holdsParts⟩ := ihRest appliedRest
      obtain ⟨parts, -, rfl⟩ := apply_groups_eq_ok.1 appliedParts
      exact ⟨_, apply_group_eq_ok.2 ⟨passed, parts, appliedPart, appliedParts, rfl⟩,
        .group key holdsPart holdsParts⟩

theorem Holds.finish {flow : Flow} {batch : Batch} (holds : flow.Holds batch) :
    flow.finish cap .never = batch.finish cap := by
  induction holds with
  | list all => rw [Flow.finish, Sequence.materialize_of_contents all, Batch.finish]
  | single value => rfl
  | noGroups => rfl
  | group key _ _ first rest => rw [finish_groups_cons, Batch.finish_groups_cons, first, rest]

theorem holds_of_apply {token : CancelToken} {stage : Stage}
    (unlimited : ∀ count, stage ≠ .limit count) {flow passed : Flow} {next : Batch}
    (lazy : flow.apply cap token stage = .ok passed) (holds : passed.Holds next) :
    ∃ batch, flow.Holds batch ∧ batch.apply cap stage = .ok next := by
  induction flow using Flow.induct generalizing passed next with
  | sequence elements =>
      obtain ⟨items, all, eager⟩ := Stage.onList_of_onSequence unlimited lazy holds
      exact ⟨.list items, .list all, eager⟩
  | single value => cases lazy
  | noGroups =>
      cases lazy
      cases holds
      exact ⟨_, .noGroups, rfl⟩
  | group key part parts ih ihRest =>
      obtain ⟨first, others, applied, appliedRest, rfl⟩ := apply_group_eq_ok.1 lazy
      cases holds with
      | group _ holdsFirst holdsRest =>
          obtain ⟨batch, holdsPart, eager⟩ := ih applied holdsFirst
          obtain ⟨_, holdsParts, eagerRest⟩ := ihRest appliedRest holdsRest
          obtain ⟨batches, rfl⟩ := holdsParts.of_groups
          exact ⟨_, .group key holdsPart holdsParts,
            Batch.apply_group_eq_ok.2 ⟨_, _, eager, eagerRest, rfl⟩⟩

theorem holds_of_finish {token : CancelToken} {flow : Flow} {value : Value}
    (finished : flow.finish cap token = .ok value) :
    ∃ batch, flow.Holds batch ∧ batch.finish cap = .ok value := by
  induction flow using Flow.induct generalizing value with
  | sequence elements =>
      obtain ⟨items, taken, rfl⟩ := map_eq_ok.1 finished
      obtain ⟨all, within⟩ := Sequence.contents_of_materialize taken
      exact ⟨.list items, .list all, map_eq_ok.2 ⟨items, within, rfl⟩⟩
  | single only => exact ⟨_, .single only, finished⟩
  | noGroups => exact ⟨_, .noGroups, finished⟩
  | group key part parts ih ihRest =>
      obtain ⟨first, entries, finishedPart, finishedRest, rfl⟩ := finish_group_eq_ok.1 finished
      obtain ⟨batch, holdsPart, eager⟩ := ih finishedPart
      obtain ⟨_, holdsParts, eagerRest⟩ := ihRest finishedRest
      obtain ⟨batches, rfl⟩ := holdsParts.of_groups
      refine ⟨_, .group key holdsPart holdsParts, ?_⟩
      rw [Batch.finish_groups_cons, eager, eagerRest]
      rfl

end Flow

namespace Chain

theorem through_of_throughBatches {chain : Chain} {flow : Flow} {batch last : Batch}
    (holds : flow.Holds batch) (eager : chain.throughBatches cap batch = .ok last) :
    ∃ passed, chain.through cap .never flow = .ok passed ∧ passed.Holds last := by
  induction chain generalizing flow batch with
  | nil =>
      cases eager
      exact ⟨flow, rfl, holds⟩
  | cons stage rest ih =>
      obtain ⟨next, applied, eager⟩ := bind_eq_ok.1 eager
      obtain ⟨between, lazy, holds⟩ := holds.apply applied
      obtain ⟨passed, through, holds⟩ := ih holds eager
      exact ⟨passed, bind_eq_ok.2 ⟨between, lazy, through⟩, holds⟩

theorem throughBatches_of_through {token : CancelToken} {chain : Chain} {flow passed : Flow}
    {last : Batch} (unlimited : ∀ stage ∈ chain, ∀ count, stage ≠ .limit count)
    (through : chain.through cap token flow = .ok passed) (holds : passed.Holds last) :
    ∃ batch, flow.Holds batch ∧ chain.throughBatches cap batch = .ok last := by
  induction chain generalizing flow with
  | nil =>
      cases through
      exact ⟨last, holds, rfl⟩
  | cons stage rest ih =>
      obtain ⟨here, behind⟩ := List.forall_mem_cons.1 unlimited
      obtain ⟨between, lazy, through⟩ := bind_eq_ok.1 through
      obtain ⟨next, holds, eager⟩ := ih behind through
      obtain ⟨batch, holds, applied⟩ := Flow.holds_of_apply here lazy holds
      exact ⟨batch, holds, bind_eq_ok.2 ⟨next, applied, eager⟩⟩

/-- The lazy run refines the eager one: it comes to whatever the eager run comes to. Without limits
the eager run also comes to whatever the lazy one does, so nothing that fails is passed over. -/
theorem run_refines_runEager (cap : Nat) (chain : Chain) (input : List Value) (value : Value) :
    (chain.runEager cap input = .ok value → chain.run cap .never input = .ok value) ∧
      ((∀ stage ∈ chain, ∀ count, stage ≠ .limit count) → ∀ token,
        chain.run cap token input = .ok value → chain.runEager cap input = .ok value) := by
  have start : (Flow.sequence (.ofList input)).Holds (.list input) :=
    .list (Sequence.contents_ofList input)
  constructor
  · intro eager
    obtain ⟨last, passes, finished⟩ := bind_eq_ok.1 eager
    obtain ⟨flow, through, holds⟩ := through_of_throughBatches start passes
    exact bind_eq_ok.2 ⟨flow, through, holds.finish.trans finished⟩
  · intro unlimited token lazy
    obtain ⟨flow, through, finished⟩ := bind_eq_ok.1 lazy
    obtain ⟨last, holds, ends⟩ := Flow.holds_of_finish finished
    obtain ⟨batch, first, passes⟩ := throughBatches_of_through unlimited through holds
    cases first.unique start
    exact bind_eq_ok.2 ⟨last, passes, ends⟩

/-- The numbers below `2` and those below `3` without the first of them, by parity. -/
theorem run_refines_runEager_ranges :
    let parity : Selector := .lambda ⟨"x", .binary (.arithmetic .modulo) (.reference "x")
      (.literal (.number (.integer 2)))⟩
    let below : Lambda := ⟨"n", .call "range" [.literal (.number (.integer 0)), .reference "n"]⟩
    let chain : Chain := [.flatMap below, .skip 1, .groupBy parity, .collect .toList]
    let input : List Value := [.integer 2, .integer 3]
    let groups : Value := .map [(.integer 0, .list [.integer 0, .integer 2]),
      (.integer 1, .list [.integer 1, .integer 1])]
    (chain.runEager 5 input = .ok groups ∧ chain.run 5 .never input = .ok groups) ∧
      (∀ stage ∈ chain, ∀ count, stage ≠ .limit count) ∧
      chain.run 5 ⟨some 60⟩ input = .ok groups ∧ chain.runEager 5 input = .ok groups := by
  intro parity below chain input groups
  have eager : chain.runEager 5 input = .ok groups := by rfl
  have unlimited : ∀ stage ∈ chain, ∀ count, stage ≠ .limit count := by simp [chain]
  have lazy : chain.run 5 ⟨some 60⟩ input = .ok groups := by rfl
  obtain ⟨comes, back⟩ := run_refines_runEager 5 chain input groups
  exact ⟨⟨eager, comes eager⟩, unlimited, lazy, back unlimited ⟨some 60⟩ lazy⟩

/-- A limit hides what fails behind it. -/
example :
    let inverse : Selector := .lambda ⟨"x", .binary (.arithmetic .divide)
      (.literal (.number (.integer 1))) (.reference "x")⟩
    let chain : Chain := [.map inverse, .limit 1]
    chain.run 5 .never [.integer 1, .integer 0] = .ok (.list [.integer 1]) ∧
      chain.runEager 5 [.integer 1, .integer 0] = .error (.divisionByZero) := by
  exact ⟨rfl, rfl⟩

end Chain

end Pipeline
