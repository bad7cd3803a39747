import Pipeline.Proofs.ExprInduction
import Pipeline.Proofs.ParserSteps
import Pipeline.Script.ChainParser

/-! What parsers can yield. A property of every expression that is parsed holds of the bodies of
all lambdas in a chain. -/

set_option autoImplicit false

namespace Pipeline

/-- Wherever the parser succeeds, its result is `good`. -/
def Parse.Yields {α : Type} (parser : Parse α) (good : α → Prop) : Prop :=
  ∀ (cursor after : Cursor) (result : α), parser.run cursor = .ok (result, after) → good result

namespace Parse

section Combinators

variable {α β : Type} {good : α → Prop} {kept : β → Prop}

theorem yields_any (parser : Parse α) : parser.Yields fun _ => True :=
  fun _ _ _ _ => trivial

theorem yields_pure {value : α} (holds : good value) : (pure value : Parse α).Yields good := by
  intro cursor after result accepted
  cases accepted
  exact holds

theorem yields_throw (error : ParseError) : (throw error : Parse α).Yields good := by
  intro cursor after result accepted
  cases accepted

theorem yields_unexpected (expected : Expected) :
    (unexpected expected : Parse α).Yields good := by
  intro cursor after result accepted
  cases accepted

theorem Yields.bind {first : Parse α} {next : α → Parse β} (yields : first.Yields good)
    (further : ∀ value, good value → (next value).Yields kept) : (first >>= next).Yields kept := by
  intro cursor after result accepted
  obtain ⟨value, middle, ran, accepted⟩ := run_bind_eq_ok.1 accepted
  exact further value (yields _ _ _ ran) _ _ _ accepted

/-- Whatever comes first, the result is that of the parser behind it. -/
theorem Yields.behind {first : Parse α} {next : α → Parse β}
    (further : ∀ value, (next value).Yields kept) : (first >>= next).Yields kept :=
  (yields_any first).bind fun value _ => further value

theorem Yields.map {parser : Parse α} (yields : parser.Yields good) {image : α → β}
    (holds : ∀ value, good value → kept (image value)) : (image <$> parser).Yields kept := by
  rw [map_eq_pure_bind]
  exact yields.bind fun value holdsFor => yields_pure (holds value holdsFor)

theorem Yields.mono {parser : Parse α} {weaker : α → Prop} (yields : parser.Yields good)
    (implies : ∀ value, good value → weaker value) : parser.Yields weaker :=
  fun cursor after result accepted => implies result (yields cursor after result accepted)

end Combinators

end Parse

/-- The body of a lambda is `good`. -/
def Selector.Body (good : Expr → Prop) : Selector → Prop
  | lambda function => good function.body
  | identity | field _ => True

namespace Parse

variable {good : Expr → Prop} (each : expression.Yields good)
include each

theorem lambda_yields : lambda.Yields fun function => good function.body :=
  .behind fun _ => .behind fun _ => each.bind fun _ holds => yields_pure holds

theorem selector_yields : selector.Yields (Selector.Body good) := by
  refine .behind fun cursor => ?_
  split
  · exact (lambda_yields each).bind fun _ holds => yields_pure holds
  · exact .behind fun _ => yields_pure trivial
  · exact yields_unexpected _

theorem optionalSelector_yields : optionalSelector.Yields (Selector.Body good) := by
  refine .behind fun closed => ?_
  split
  · exact yields_pure trivial
  · exact selector_yields each

theorem factoryKey_yields : factoryKey.Yields fun key => key.selector.Body good := by
  have ending : ∀ selector : Selector, selector.Body good → (do
      expect .rightParen
      return ⟨selector, ← reversals .ascending (← remaining)⟩ : Parse SortKey).Yields
        fun key => key.selector.Body good := fun selector holds =>
    .behind fun _ => .behind fun _ => .behind fun _ => yields_pure holds
  refine .behind fun _ => .behind fun _ => .behind fun factory => .behind fun _ => ?_
  split
  · exact .behind fun _ => yields_pure trivial
  · dsimp only
    split
    · exact (selector_yields each).bind ending
    · split
      · exact (yields_pure trivial).bind ending
      · exact (yields_throw _).bind ending

theorem sortKey_yields : sortKey.Yields fun key => key.selector.Body good := by
  have directed : (do
      let selector ← selector
      let direction ← optionalDirection
      return ⟨selector, direction.getD .ascending⟩ : Parse SortKey).Yields
        fun key => key.selector.Body good :=
    (selector_yields each).bind fun _ holds => .behind fun _ => yields_pure holds
  refine .behind fun factory => ?_
  split
  · exact factoryKey_yields each
  · refine .behind fun given => ?_
    split
    · exact yields_pure trivial
    · refine .behind fun word => .behind fun parameter => ?_
      split
      · exact .behind fun _ => directed
      · exact directed

theorem furtherKeys_yields (bound : Nat) :
    (furtherKeys bound).Yields fun keys => ∀ key ∈ keys, key.selector.Body good := by
  induction bound with
  | zero => exact yields_pure (List.forall_mem_nil _)
  | succ bound ih =>
      refine .behind fun more => ?_
      split
      · exact .behind fun _ => (sortKey_yields each).bind fun _ first => ih.bind fun _ rest =>
          yields_pure (List.forall_mem_cons.2 ⟨first, rest⟩)
      · exact yields_pure (List.forall_mem_nil _)

theorem comparator_yields :
    comparator.Yields fun given => ∀ key ∈ given.keys, key.selector.Body good :=
  (sortKey_yields each).bind fun _ first => .behind fun _ =>
    (furtherKeys_yields each _).bind fun _ rest =>
      yields_pure (List.forall_mem_cons.2 ⟨first, rest⟩)

/-- Where no comparator is given, the natural one has no lambda. -/
theorem optionalComparator_yields : optionalComparator.Yields fun given =>
    ∀ key ∈ (given.getD .natural).keys, key.selector.Body good := by
  refine .behind fun closed => ?_
  split
  · exact yields_pure (List.forall_mem_singleton.2 trivial)
  · exact (comparator_yields each).bind fun _ holds => yields_pure holds

theorem aggregator_yields :
    aggregator.Yields fun given => ∀ selector ∈ (Stage.collect given).selectors,
      selector.Body good := by
  have arguments : ∀ name, (aggregatorArguments name).Yields fun given =>
      ∀ selector ∈ (Stage.collect given).selectors, selector.Body good := by
    intro name
    unfold aggregatorArguments
    split
    · exact yields_pure (List.forall_mem_nil _)
    · exact yields_pure (List.forall_mem_nil _)
    · exact yields_pure (List.forall_mem_nil _)
    · exact (yields_any _).map fun _ _ => List.forall_mem_nil _
    · exact (selector_yields each).map fun _ holds => List.forall_mem_singleton.2 holds
    · exact yields_throw _
  have named : (do
      let name ← expectName .aggregator
      expect .leftParen
      let aggregator ← aggregatorArguments name
      expect .rightParen
      return aggregator : Parse Aggregator).Yields fun given =>
        ∀ selector ∈ (Stage.collect given).selectors, selector.Body good :=
    .behind fun name => .behind fun _ => (arguments name).bind fun _ holds => .behind fun _ =>
      yields_pure holds
  refine .behind fun collectors => ?_
  dsimp only
  split
  · exact .behind fun _ => .behind fun _ => named
  · exact named

theorem stageArguments_yields {name : String} {arguments : Parse Stage}
    (found : stageArguments? name = some arguments) :
    arguments.Yields fun stage => ∀ selector ∈ stage.selectors, selector.Body good := by
  have one : ∀ {stage : Selector → Stage}, (∀ selector, (stage selector).selectors = [selector]) →
      ∀ selector : Selector, selector.Body good →
        ∀ among ∈ (stage selector).selectors, among.Body good := by
    intro stage single selector holds among member
    rw [single, List.mem_singleton] at member
    exact member ▸ holds
  have sorted : ∀ given : Option Comparator,
      (∀ key ∈ (given.getD .natural).keys, key.selector.Body good) →
        ∀ selector ∈ (Stage.sorted given).selectors, selector.Body good := by
    intro given holds
    cases given with
    | none => exact List.forall_mem_nil _
    | some comparator => exact List.forall_mem_map.2 holds
  have keyed : ∀ given : Option Comparator,
      (∀ key ∈ (given.getD .natural).keys, key.selector.Body good) →
        ∀ selector ∈ (given.getD .natural).keys.map SortKey.selector, selector.Body good :=
    fun given holds => List.forall_mem_map.2 holds
  unfold stageArguments? at found
  split at found <;> cases found
  · exact (selector_yields each).map (one fun _ => rfl)
  · exact (selector_yields each).map (one fun _ => rfl)
  · exact (lambda_yields each).map fun _ holds => List.forall_mem_singleton.2 holds
  · exact (optionalComparator_yields each).map sorted
  · exact (optionalComparator_yields each).map sorted
  · exact yields_pure (List.forall_mem_nil _)
  · exact (optionalComparator_yields each).map keyed
  · exact (optionalComparator_yields each).map keyed
  · exact (optionalComparator_yields each).map keyed
  · exact (optionalComparator_yields each).map keyed
  · exact (optionalSelector_yields each).map (one fun _ => rfl)
  · exact (optionalSelector_yields each).map (one fun _ => rfl)
  · exact (selector_yields each).map (one fun _ => rfl)
  · exact (selector_yields each).map (one fun _ => rfl)
  · exact (aggregator_yields each).map fun _ holds => holds
  · exact yields_pure (List.forall_mem_nil _)
  · exact yields_pure (List.forall_mem_nil _)
  · exact (yields_any _).map fun _ _ => List.forall_mem_nil _
  · exact (yields_any _).map fun _ _ => List.forall_mem_nil _

theorem stage_yields :
    stage.Yields fun stage => ∀ selector ∈ stage.selectors, selector.Body good := by
  refine .behind fun name => ?_
  split
  · exact yields_throw _
  · rename_i arguments found
    exact .behind fun _ => (stageArguments_yields each found).bind fun _ holds =>
      .behind fun _ => yields_pure holds

theorem stages_yields (previous : Option Stage) (bound : Nat) :
    (stages previous bound).Yields fun chain =>
      ∀ stage ∈ chain, ∀ selector ∈ stage.selectors, selector.Body good := by
  induction bound generalizing previous with
  | zero => exact yields_pure (List.forall_mem_nil _)
  | succ bound ih =>
      refine .behind fun dot => ?_
      split
      · refine .behind fun _ => .behind fun modifier => ?_
        split
        · exact .behind fun _ => ih previous
        · exact (stage_yields each).bind fun stage first => (ih (some stage)).bind fun _ rest =>
            yields_pure (List.forall_mem_cons.2 ⟨first, rest⟩)
      · exact yields_pure (List.forall_mem_nil _)

theorem wholeChain_yields : wholeChain.Yields fun chain =>
    ∀ stage ∈ chain, ∀ selector ∈ stage.selectors, selector.Body good := by
  refine .behind fun dot => ?_
  split
  · exact .behind fun bound => (stages_yields each none bound).bind fun _ holds =>
      .behind fun _ => yields_pure holds
  · exact yields_throw _

end Parse

/-- The bodies of all lambdas in a parsed chain are expressions that were parsed. -/
theorem Chain.parse_bodies {good : Expr → Prop} (each : Parse.expression.Yields good)
    {script : String} {chain : Chain} (accepted : Chain.parse script = .ok chain) :
    ∀ stage ∈ chain, ∀ selector ∈ stage.selectors, selector.Body good := by
  unfold Chain.parse at accepted
  split at accepted
  · obtain ⟨cursor, _, accepted⟩ := bind_eq_ok.1 accepted
    obtain ⟨⟨result, after⟩, ran, same⟩ := bind_eq_ok.1 accepted
    cases same
    exact Parse.wholeChain_yields each _ _ _ ran
  · cases accepted

end Pipeline
