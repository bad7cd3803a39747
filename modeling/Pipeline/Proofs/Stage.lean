import Pipeline.Proofs.ExprInduction
import Pipeline.Proofs.Ordering
import Pipeline.Proofs.Sequence
import Pipeline.Run.Flow

/-! What one stage can put out and fail with, said once for all stages: a property of the
elements that a stage takes in passes to those that it puts out as far as the stage `Sends` it. -/

set_option autoImplicit false

namespace Pipeline

/-- The flow carries the element, in a sequence, alone or in some group. -/
inductive Flow.Carries (element : Value) : Flow → Prop where
  | sequence {elements : Sequence} : elements.Yields element → Carries element (.sequence elements)
  | single : Carries element (.single element)
  | groups {parts : List (Key × Flow)} {key : Key} {part : Flow} :
      (key, part) ∈ parts → Carries element part → Carries element (.groups parts)

/-- All elements of a flow are `good`, and it can only end in failures that are `allowed`. -/
inductive Flow.Guarded (good : Value → Prop) (allowed : RunError → Prop) : Flow → Prop where
  | sequence {elements : Sequence} :
      elements.Guarded good allowed → Guarded good allowed (.sequence elements)
  | single {value : Value} : good value → Guarded good allowed (.single value)
  | groups {parts : List (Key × Flow)} :
      (∀ key part, (key, part) ∈ parts → Guarded good allowed part) →
      Guarded good allowed (.groups parts)

theorem Flow.Guarded.mono {good kept : Value → Prop} {allowed more : RunError → Prop}
    {flow : Flow} (guarded : flow.Guarded good allowed) (weaker : ∀ value, good value → kept value)
    (wider : ∀ error, allowed error → more error) : flow.Guarded kept more := by
  induction guarded with
  | sequence elements => exact .sequence (elements.mono weaker wider)
  | single holds => exact .single (weaker _ holds)
  | groups _ ih => exact .groups ih

theorem Flow.Guarded.good_of_carries {good : Value → Prop} {allowed : RunError → Prop}
    {flow : Flow} {element : Value} (guarded : flow.Guarded good allowed)
    (carries : flow.Carries element) : good element := by
  induction carries with
  | sequence yields =>
      cases guarded with
      | sequence elements => exact elements.good_of_yields yields
  | single =>
      cases guarded with
      | single holds => exact holds
  | groups member _ ih => cases guarded with | groups parts => exact ih (parts _ _ member)

/-- A stage that takes in `good` elements puts out elements that are `kept`, and its
selectors fail on them only as `allowed`. -/
def Stage.Sends (cap : Nat) (good kept : Value → Prop) (allowed : RunError → Prop) :
    Stage → Prop
  | .filter selector => (∀ value, good value → kept value) ∧
      ∀ value, good value → Ensures (fun _ => True) allowed (selector.select cap value)
  | .map selector => ∀ value, good value → Ensures kept allowed (selector.select cap value)
  | .flatMap lambda => ∀ value, good value →
      Ensures (Sequence.Guarded kept allowed) allowed (lambda.expand cap value)
  | .sorted comparator => (∀ value, good value → kept value) ∧
      (comparator.getD .natural).Selects good allowed cap
  | .max comparator | .min comparator => (∀ value, good value → kept value) ∧
      comparator.Selects good allowed cap
  | .sum selector | .collect (.summing selector) =>
      (∀ n : Number, n.IsFinite → kept (.number n)) ∧
      ∀ value, good value → Ensures (fun _ => True) allowed (selector.select cap value)
  | .groupBy selector => (∀ value, good value → kept value) ∧
      ∀ value, good value → Ensures (fun _ => True) allowed (selector.select cap value)
  | .collect .toList | .collect .toSet => ∀ items : List Value, items.length ≤ cap →
      (∀ value ∈ items, good value) → kept (.list items)
  | .collect .counting => ∀ n, kept (.integer n)
  | .collect (.joining _) => ∀ s, kept (.text s)
  | .distinct | .limit _ | .skip _ => ∀ value, good value → kept value

section Sends

variable {good kept : Value → Prop} {allowed : RunError → Prop} {cap : Nat}
  {token : CancelToken} {sequence : Sequence}

/-- The natural order takes its keys from the elements themselves. -/
theorem natural_selects : Comparator.natural.Selects good allowed cap := by
  intro key member value _
  rw [List.mem_singleton.1 member]
  trivial

variable (ordinary : ∀ error : RunError, error.IsOrdinary → allowed error)
include ordinary

theorem test_ensures {selector : Selector} {value : Value}
    (selects : Ensures (fun _ => True) allowed (selector.select cap value)) :
    Ensures (fun _ => True) allowed (selector.test cap value) := by
  refine Ensures.bind selects fun found _ => ?_
  split
  · trivial
  · exact ordinary _ id

theorem addTo_ensures {selector : Selector} {total value : Value}
    (number : total.IsFiniteNumber)
    (selects : Ensures (fun _ => True) allowed (selector.select cap value)) :
    Ensures Value.IsFiniteNumber allowed (selector.addTo cap total value) := by
  refine Ensures.bind selects fun found _ => ?_
  split
  · rename_i isNumber
    obtain ⟨n, rfl⟩ := Value.isNumber_iff.1 isNumber
    obtain ⟨m, _, rfl⟩ := number
    have added : Ensures Value.IsFiniteNumber RunError.IsOrdinary
        (Arithmetic.add.apply (.number m) (.number n)) := Arithmetic.onNumbers_ensures .add m n
    split
    · rename_i result
      rwa [result] at added
    · exact ordinary _ trivial
    · rename_i result
      rw [result] at added
      exact ordinary _ added
  · exact ordinary _ id

theorem Sequence.Guarded.sum {selector : Selector} (guarded : sequence.Guarded good allowed)
    (selects : ∀ value, good value → Ensures (fun _ => True) allowed (selector.select cap value)) :
    Ensures Value.IsFiniteNumber allowed (sequence.sum cap token selector) :=
  guarded.consume (ordinary _ trivial)
    (fun _ value number holds => addTo_ensures ordinary number (selects value holds))
    token ⟨.integer 0, trivial, rfl⟩

theorem Sequence.Guarded.count (guarded : sequence.Guarded good allowed) :
    Ensures (fun total => ∃ n, total = .integer n) allowed (sequence.count token) := by
  refine Ensures.map (?_ : Ensures (fun _ => True) allowed _) fun n _ => ⟨n, rfl⟩
  refine guarded.consume (ordinary _ trivial) (fun size _ _ _ => ?_) token trivial
  split
  · trivial
  · exact ordinary _ trivial

omit ordinary in
theorem Grouping.mem_add {key : Key} {element value : Value} {groups : Grouping}
    (member : value ∈ (Grouping.add key element groups).flatMap Prod.snd) :
    value = element ∨ value ∈ groups.flatMap Prod.snd := by
  fun_induction Grouping.add key element groups with
  | case1 | case2 | case3 => simpa [or_assoc] using member
  | case4 other elements rest _ ih =>
      simp only [List.flatMap_cons, List.mem_append] at member ih ⊢
      rcases member with first | later
      · exact .inr (.inl first)
      · exact (ih later).imp_right .inr

theorem addToGroup_ensures {selector : Selector} {state : Grouping × Nat} {value : Value}
    (holds : good value) (kept : ∀ value ∈ state.1.flatMap Prod.snd, good value)
    (selects : Ensures (fun _ => True) allowed (selector.select cap value)) :
    Ensures (fun state : Grouping × Nat => ∀ value ∈ state.1.flatMap Prod.snd, good value) allowed
      (selector.addToGroup cap state value) := by
  unfold Selector.addToGroup
  split
  · exact ordinary _ trivial
  · refine Ensures.bind selects fun found _ => ?_
    split
    · intro other member
      rcases Grouping.mem_add member with rfl | member
      · exact holds
      · exact kept other member
    · exact ordinary _ id

theorem Sequence.Guarded.group {selector : Selector} (guarded : sequence.Guarded good allowed)
    (selects : ∀ value, good value → Ensures (fun _ => True) allowed (selector.select cap value)) :
    Ensures (fun parts => Flow.Guarded good allowed (.groups parts)) allowed
      (sequence.group cap token selector) := by
  refine Ensures.bind (guarded.consume (ordinary _ trivial)
    (fun state value kept holds => addToGroup_ensures ordinary holds kept (selects value holds))
    token (List.forall_mem_nil _)) fun (groups, _) kept => .groups ?_
  intro key part member
  obtain ⟨⟨key, items⟩, group, same⟩ := List.mem_map.1 member
  cases same
  refine .sequence (Sequence.guarded_ofList fun value member => kept value ?_)
  exact List.mem_flatMap.2 ⟨_, group, List.mem_reverse.1 member⟩

theorem textsOf_ensures (items : List Value) :
    Ensures (fun _ => True) allowed (textsOf items) := by
  fun_induction textsOf items with
  | case1 => trivial
  | case2 s rest ih => exact ih.map fun _ => id
  | case3 => exact ordinary _ id

theorem Sequence.Guarded.collect {aggregator : Aggregator}
    (guarded : sequence.Guarded good allowed)
    (sends : (Stage.collect aggregator).Sends cap good kept allowed) :
    Ensures kept allowed (sequence.collect cap token aggregator) := by
  have items := guarded.materialize (ordinary _ trivial) cap (ordinary _ trivial) token
  cases aggregator with
  | toList => exact items.bind fun items holds => sends items holds.1 holds.2
  | toSet =>
      refine items.bind fun items holds => ?_
      have distinct := distinctBy_sublist Mark.hashAll items
      have kept : ∀ value ∈ distinctBy Mark.hashAll items, good value :=
        fun value member => holds.2 value (distinct.subset member)
      refine (Comparator.sort_ensures ordinary natural_selects kept).bind fun sorted perm => ?_
      exact sends sorted (perm.length_eq ▸ Nat.le_trans distinct.length_le holds.1)
        fun value member => kept value (perm.subset member)
  | counting => exact (guarded.count ordinary).mono (fun _ ⟨n, same⟩ => same ▸ sends n) fun _ => id
  | joining separator =>
      exact items.bind fun items _ => (textsOf_ensures ordinary items).bind fun _ _ => sends _
  | summing selector =>
      exact (guarded.sum ordinary sends.2).mono
        (fun _ ⟨n, finite, same⟩ => same ▸ sends.1 n finite) fun _ => id

/-- What a stage puts out, and what it can fail with. -/
theorem Stage.onSequence_ensures {stage : Stage} (guarded : sequence.Guarded good allowed)
    (sends : stage.Sends cap good kept allowed) :
    Ensures (Flow.Guarded kept allowed) allowed (stage.onSequence cap token sequence) := by
  have items := guarded.materialize (ordinary _ trivial) cap (ordinary _ trivial) token
  cases stage with
  | filter selector =>
      exact .sequence ((guarded.filter fun value holds =>
        test_ensures ordinary (sends.2 value holds)).mono sends.1 fun _ => id)
  | map selector => exact .sequence (guarded.map sends)
  | flatMap lambda => exact .sequence (guarded.flatMap sends)
  | sorted comparator =>
      exact items.bind fun items holds =>
        (Comparator.sort_ensures ordinary sends.2 holds.2).bind fun sorted perm =>
          .sequence (Sequence.guarded_ofList fun value member =>
            sends.1 value (holds.2 value (perm.subset member)))
  | distinct =>
      exact items.bind fun items holds => .sequence (Sequence.guarded_ofList fun value member =>
        sends value (holds.2 value ((distinctBy_sublist _ items).subset member)))
  | max comparator | min comparator =>
      exact items.bind fun items holds =>
        (Comparator.extreme_ensures ordinary sends.2 holds.2 _).bind fun value member =>
          .single (sends.1 value (holds.2 value member))
  | sum selector =>
      exact (guarded.sum ordinary sends.2).bind fun total ⟨n, finite, same⟩ =>
        .single (same ▸ sends.1 n finite)
  | groupBy selector =>
      exact (guarded.group ordinary sends.2).bind fun parts groups =>
        groups.mono sends.1 fun _ => id
  | collect aggregator =>
      exact (guarded.collect ordinary sends).bind fun value holds => .single holds
  | limit count => exact .sequence ((guarded.mono sends fun _ => id).take count)
  | skip count => exact .sequence ((guarded.mono sends fun _ => id).drop count)

omit ordinary in
theorem Flow.applyParts_ensures {stage : Stage} {parts : List (Key × Flow)}
    (applied : ∀ key part, (key, part) ∈ parts →
      Ensures (Flow.Guarded kept allowed) allowed (part.apply cap token stage)) :
    Ensures (fun parts => ∀ key part, (key, part) ∈ parts → Flow.Guarded kept allowed part)
      allowed (applyParts cap token stage parts) := by
  induction parts with
  | nil => exact fun _ _ member => nomatch member
  | cons head rest ih =>
      obtain ⟨key, part⟩ := head
      rw [applyParts]
      refine (applied key part (.head _)).bind fun result holds => ?_
      refine (ih fun key part member => applied key part (.tail _ member)).bind fun parts kept => ?_
      intro other found member
      cases member with
      | head => exact holds
      | tail _ member => exact kept other found member

/-- What a stage makes of a whole flow: the same of every group as of a sequence. -/
theorem Flow.Guarded.apply {stage : Stage} {flow : Flow} (guarded : flow.Guarded good allowed)
    (sends : stage.Sends cap good kept allowed) :
    Ensures (Flow.Guarded kept allowed) allowed (flow.apply cap token stage) := by
  induction guarded with
  | sequence elements => exact Stage.onSequence_ensures ordinary elements sends
  | single _ => exact ordinary _ id
  | groups _ ih => exact (applyParts_ensures ih).map fun _ => .groups

omit ordinary in
theorem Flow.finishParts_ensures {parts : List (Key × Flow)}
    (finished : ∀ key part, (key, part) ∈ parts → Ensures kept allowed (part.finish cap token)) :
    Ensures (fun entries => ∀ key value, (key, value) ∈ entries → kept value)
      allowed (finishParts cap token parts) := by
  induction parts with
  | nil => exact fun _ _ member => nomatch member
  | cons head rest ih =>
      obtain ⟨key, part⟩ := head
      rw [finishParts]
      refine (finished key part (.head _)).bind fun result holds => ?_
      refine (ih fun key part member => finished key part (.tail _ member)).bind
        fun entries kept => ?_
      intro other found member
      cases member with
      | head => exact holds
      | tail _ member => exact kept other found member

/-- What becomes of a flow behind the last stage, where `kept` holds of what is made of it. -/
theorem Flow.Guarded.finish {flow : Flow} (guarded : flow.Guarded good allowed)
    (single : ∀ value, good value → kept value)
    (list : ∀ items : List Value, items.length ≤ cap → (∀ value ∈ items, good value) →
      kept (.list items))
    (map : ∀ entries : List (Key × Value), (∀ key value, (key, value) ∈ entries → kept value) →
      kept (.map entries)) :
    Ensures kept allowed (flow.finish cap token) := by
  induction guarded with
  | sequence elements =>
      exact (elements.materialize (ordinary _ trivial) cap (ordinary _ trivial) token).map
        fun items holds => list items holds.1 holds.2
  | single holds => exact single _ holds
  | groups _ ih => exact (finishParts_ensures ih).map map

end Sends

end Pipeline
