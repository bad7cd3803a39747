import Pipeline.Proofs.ExprInduction
import Pipeline.Proofs.FlowInduction

/-! Runs under two caps. Both go the same way until the lower cap refuses something, so a higher
cap changes no outcome but this refusal. -/

set_option autoImplicit false

namespace Pipeline

/-- The first computation is refused by the cap, or both fail alike, or their results are
`related`. -/
inductive UpToCap (cap : Nat) {α β : Type} (related : α → β → Prop) :
    Except RunError α → Except RunError β → Prop where
  | refused {other : Except RunError β} :
      UpToCap cap related (.error (.tooManyElements cap)) other
  | error (error : RunError) : UpToCap cap related (.error error) (.error error)
  | ok {value : α} {other : β} :
      related value other → UpToCap cap related (.ok value) (.ok other)

section Computations

variable {cap : Nat} {α β γ δ : Type} {related : α → β → Prop} {behind : γ → δ → Prop}
  {source : Except RunError α} {other : Except RunError β}

theorem upToCap_refl (source : Except RunError α) : UpToCap cap Eq source source := by
  cases source with
  | error error => exact .error error
  | ok value => exact .ok rfl

theorem upToCap_eq_iff {source other : Except RunError α} :
    UpToCap cap Eq source other ↔ source = .error (.tooManyElements cap) ∨ source = other := by
  constructor
  · intro agrees
    cases agrees with
    | refused => exact .inl rfl
    | error error => exact .inr rfl
    | ok same => exact .inr (congrArg _ same)
  · rintro (rfl | rfl)
    · exact .refused
    · exact upToCap_refl source

theorem UpToCap.bind {next : α → Except RunError γ} {follow : β → Except RunError δ}
    (first : UpToCap cap related source other)
    (second : ∀ value result, related value result →
      UpToCap cap behind (next value) (follow result)) :
    UpToCap cap behind (source >>= next) (other >>= follow) := by
  cases first with
  | refused => exact .refused
  | error error => exact .error error
  | ok holds => exact second _ _ holds

/-- Both computations go on in the same way from the same result. -/
theorem UpToCap.bind_eq {source other : Except RunError α} {next : α → Except RunError γ}
    {follow : α → Except RunError δ} (first : UpToCap cap Eq source other)
    (second : ∀ value, UpToCap cap behind (next value) (follow value)) :
    UpToCap cap behind (source >>= next) (other >>= follow) :=
  first.bind fun value _ same => same ▸ second value

theorem UpToCap.map {image : α → γ} {follow : β → δ}
    (first : UpToCap cap related source other)
    (second : ∀ value result, related value result → behind (image value) (follow result)) :
    UpToCap cap behind (source.map image) (other.map follow) := by
  cases first with
  | refused => exact .refused
  | error error => exact .error error
  | ok holds => exact .ok (second _ _ holds)

theorem UpToCap.map_eq {source other : Except RunError α} (first : UpToCap cap Eq source other)
    (image : α → γ) : UpToCap cap Eq (source.map image) (other.map image) :=
  first.map fun _ _ same => congrArg image same

end Computations

variable {cap higher : Nat}

/-! ## Expressions and selectors -/

section Expressions

variable (le : cap ≤ higher)
include le

theorem callFunction_upToCap (name : String) (arguments : List Value) :
    UpToCap cap Eq (callFunction cap name arguments) (callFunction higher name arguments) := by
  unfold callFunction
  split
  · exact .error _
  · refine (upToCap_refl _).bind_eq fun (lower, upper) => ?_
    dsimp only [Value.range]
    by_cases long : (upper.toInt - lower.toInt).toNat > cap
    · rw [if_pos long]
      exact .refused
    · rw [if_neg long, if_neg fun longer => long (Nat.lt_of_le_of_lt le longer)]
      exact .ok rfl
  · exact upToCap_refl _

omit le in
theorem evalAll_upToCap {parameter : String} {element : Value} {exprs : List Expr}
    (each : ∀ expr ∈ exprs, UpToCap cap Eq (expr.eval cap parameter element)
      (expr.eval higher parameter element)) :
    UpToCap cap Eq (Expr.evalAll cap parameter element exprs)
      (Expr.evalAll higher parameter element exprs) := by
  induction exprs with
  | nil => exact .ok rfl
  | cons expr rest ih =>
      rw [List.forall_mem_cons] at each
      exact each.1.bind_eq fun _ => (ih each.2).bind_eq fun _ => .ok rfl

theorem Expr.eval_upToCap (parameter : String) (element : Value) (expr : Expr) :
    UpToCap cap Eq (expr.eval cap parameter element) (expr.eval higher parameter element) := by
  induction expr using Expr.induct with
  | literal value => exact .ok rfl
  | reference name => exact upToCap_refl _
  | field object name ih => exact ih.bind_eq fun _ => upToCap_refl _
  | unary op operand ih => exact ih.bind_eq fun _ => upToCap_refl _
  | binary op left right leftIH rightIH =>
      cases op with
      | connective op =>
          refine leftIH.bind_eq fun _ => (upToCap_refl _).bind_eq fun _ => ?_
          split
          · exact .ok rfl
          · exact rightIH.bind_eq fun _ => upToCap_refl _
      | relation op | arithmetic op =>
          exact leftIH.bind_eq fun _ => rightIH.bind_eq fun _ => upToCap_refl _
  | conditional condition thenBranch elseBranch conditionIH thenIH elseIH =>
      refine conditionIH.bind_eq fun _ => ?_
      split
      · exact thenIH
      · exact elseIH
      · exact .error _
  | method object name arguments objectIH argumentsIH =>
      exact objectIH.bind_eq fun _ => (evalAll_upToCap argumentsIH).bind_eq fun _ =>
        upToCap_refl _
  | call function arguments ih =>
      exact (evalAll_upToCap ih).bind_eq fun _ => callFunction_upToCap le _ _

theorem Selector.select_upToCap (selector : Selector) (element : Value) :
    UpToCap cap Eq (selector.select cap element) (selector.select higher element) := by
  cases selector with
  | identity | field name => exact upToCap_refl _
  | lambda function => exact Expr.eval_upToCap le function.parameter element function.body

theorem Selector.test_upToCap (selector : Selector) (element : Value) :
    UpToCap cap Eq (selector.test cap element) (selector.test higher element) :=
  (selector.select_upToCap le element).bind_eq fun _ => upToCap_refl _

theorem Lambda.expand_upToCap (lambda : Lambda) (element : Value) :
    UpToCap cap Eq (lambda.expand cap element) (lambda.expand higher element) := by
  unfold Lambda.expand
  split
  · exact (evalAll_upToCap fun expr _ => expr.eval_upToCap le _ element).bind_eq fun _ =>
      upToCap_refl _
  · exact (lambda.body.eval_upToCap le lambda.parameter element).bind_eq fun _ => upToCap_refl _

theorem Selector.addTo_upToCap (selector : Selector) (total element : Value) :
    UpToCap cap Eq (selector.addTo cap total element) (selector.addTo higher total element) :=
  (selector.select_upToCap le element).bind_eq fun _ => upToCap_refl _

theorem Selector.addToGroup_upToCap (selector : Selector) (state : Grouping × Nat)
    (element : Value) :
    UpToCap cap Eq (selector.addToGroup cap state element)
      (selector.addToGroup higher state element) := by
  unfold Selector.addToGroup
  by_cases full : cap < state.2 + 1
  · rw [if_pos full]
    exact .refused
  · rw [if_neg full, if_neg fun fuller => full (Nat.lt_of_le_of_lt le fuller)]
    exact (selector.select_upToCap le element).bind_eq fun _ => upToCap_refl _

/-! ## Comparators -/

namespace Comparator

theorem keysOf_upToCap (element : Value) (keys : List SortKey) :
    UpToCap cap Eq (keysOf cap element keys) (keysOf higher element keys) := by
  induction keys with
  | nil => exact .ok rfl
  | cons key rest ih =>
      have selected : UpToCap cap Eq (key.select cap element) (key.select higher element) := by
        unfold SortKey.select
        split
        · exact upToCap_refl _
        · exact Selector.select_upToCap le _ _
      exact selected.bind_eq fun _ => ih.bind_eq fun _ => .ok rfl

theorem keyed_upToCap (comparator : Comparator) (elements : List Value) :
    UpToCap cap Eq (comparator.keyed cap elements) (comparator.keyed higher elements) := by
  have all : UpToCap cap Eq (comparator.keyAll cap elements)
      (comparator.keyAll higher elements) := by
    induction elements with
    | nil => exact .ok rfl
    | cons element rest ih =>
        exact (keysOf_upToCap le element comparator.keys).bind_eq fun _ =>
          ih.bind_eq fun _ => .ok rfl
  exact all.bind_eq fun _ => upToCap_refl _

theorem sort_upToCap (comparator : Comparator) (elements : List Value) :
    UpToCap cap Eq (comparator.sort cap elements) (comparator.sort higher elements) :=
  (comparator.keyed_upToCap le elements).bind_eq fun _ => .ok rfl

theorem extreme_upToCap (comparator : Comparator) (extreme : Extreme) (elements : List Value) :
    UpToCap cap Eq (comparator.extreme cap extreme elements)
      (comparator.extreme higher extreme elements) :=
  (comparator.keyed_upToCap le elements).bind_eq fun _ => upToCap_refl _

end Comparator

end Expressions

/-! ## Sequences -/

namespace Sequence

/-- Both sequences put out the same until the cap refuses something in the first one; there the
second one has another step. -/
inductive UpToCap (cap : Nat) : Sequence → Sequence → Prop where
  | done : UpToCap cap .done .done
  | fail (error : RunError) : UpToCap cap (.fail error) (.fail error)
  | refused {other : Sequence} : other ≠ .done → UpToCap cap (.fail (.tooManyElements cap)) other
  | skip {rest others : Unit → Sequence} :
      UpToCap cap (rest ()) (others ()) → UpToCap cap (.skip rest) (.skip others)
  | yield (value : Value) {rest others : Unit → Sequence} :
      UpToCap cap (rest ()) (others ()) → UpToCap cap (.yield value rest) (.yield value others)

variable {sequence other : Sequence}

theorem upToCap_refl (sequence : Sequence) : UpToCap cap sequence sequence := by
  induction sequence with
  | done => exact .done
  | fail error => exact .fail error
  | skip rest ih => exact .skip (ih ())
  | yield value rest ih => exact .yield value (ih ())

/-! A sequence that has another step has one behind every stage. -/

theorem filter_ne_done {test : Value → Except RunError Bool} (more : sequence ≠ .done) :
    sequence.filter test ≠ .done := by
  cases sequence with
  | done => exact absurd rfl more
  | fail error | skip rest => simp [Sequence.filter]
  | yield value rest =>
      rw [Sequence.filter]
      split <;> simp

theorem map_ne_done {image : Value → Except RunError Value} (more : sequence ≠ .done) :
    sequence.map image ≠ .done := by
  cases sequence with
  | done => exact absurd rfl more
  | fail error | skip rest => simp [Sequence.map]
  | yield value rest =>
      rw [Sequence.map]
      split <;> simp

theorem append_ne_done (second : Unit → Sequence) (sequence : Sequence) :
    sequence.append second ≠ .done := by
  cases sequence <;> simp [Sequence.append]

theorem flatMap_ne_done {expand : Value → Except RunError Sequence} (more : sequence ≠ .done) :
    sequence.flatMap expand ≠ .done := by
  cases sequence with
  | done => exact absurd rfl more
  | fail error | skip rest => simp [Sequence.flatMap]
  | yield value rest =>
      rw [Sequence.flatMap]
      split
      · exact append_ne_done _ _
      · simp

theorem take_succ_ne_done {count : Nat} (more : sequence ≠ .done) :
    sequence.take (count + 1) ≠ .done := by
  cases sequence with
  | done => exact absurd rfl more
  | fail error | skip rest | yield value rest => simp [Sequence.take]

theorem drop_ne_done {count : Nat} (more : sequence ≠ .done) : sequence.drop count ≠ .done := by
  cases sequence with
  | done => exact absurd rfl more
  | fail error | skip rest => cases count <;> simp [Sequence.drop]
  | yield value rest => cases count <;> simp [Sequence.drop]

/-! ## Combinators -/

theorem UpToCap.filter {test follow : Value → Except RunError Bool}
    (agrees : UpToCap cap sequence other)
    (tests : ∀ value, Pipeline.UpToCap cap Eq (test value) (follow value)) :
    UpToCap cap (sequence.filter test) (other.filter follow) := by
  induction agrees with
  | done => exact .done
  | fail error => exact .fail error
  | refused more => exact .refused (filter_ne_done more)
  | skip _ ih => exact .skip ih
  | @yield value rest others _ ih =>
      have more : (Sequence.yield value others).filter follow ≠ .done := filter_ne_done (by simp)
      have tested := tests value
      rw [Sequence.filter] at more ⊢
      rw [Sequence.filter]
      generalize test value = passed, follow value = passes at tested more
      cases tested with
      | refused => exact .refused more
      | error error => exact .fail error
      | @ok passed _ same =>
          subst same
          cases passed with
          | true => exact .yield value ih
          | false => exact .skip ih

theorem UpToCap.map {image follow : Value → Except RunError Value}
    (agrees : UpToCap cap sequence other)
    (images : ∀ value, Pipeline.UpToCap cap Eq (image value) (follow value)) :
    UpToCap cap (sequence.map image) (other.map follow) := by
  induction agrees with
  | done => exact .done
  | fail error => exact .fail error
  | refused more => exact .refused (map_ne_done more)
  | skip _ ih => exact .skip ih
  | @yield value rest others _ ih =>
      have more : (Sequence.yield value others).map follow ≠ .done := map_ne_done (by simp)
      have mapped := images value
      rw [Sequence.map] at more ⊢
      rw [Sequence.map]
      generalize image value = result, follow value = results at mapped more
      cases mapped with
      | refused => exact .refused more
      | error error => exact .fail error
      | ok same =>
          subst same
          exact .yield _ ih

theorem UpToCap.append {second follow : Unit → Sequence} (sequence : Sequence)
    (behind : UpToCap cap (second ()) (follow ())) :
    UpToCap cap (sequence.append second) (sequence.append follow) := by
  induction sequence with
  | done => exact .skip behind
  | fail error => exact .fail error
  | skip rest ih => exact .skip (ih ())
  | yield value rest ih => exact .yield value (ih ())

theorem UpToCap.flatMap {expand follow : Value → Except RunError Sequence}
    (agrees : UpToCap cap sequence other)
    (expands : ∀ value, Pipeline.UpToCap cap Eq (expand value) (follow value)) :
    UpToCap cap (sequence.flatMap expand) (other.flatMap follow) := by
  induction agrees with
  | done => exact .done
  | fail error => exact .fail error
  | refused more => exact .refused (flatMap_ne_done more)
  | skip _ ih => exact .skip ih
  | @yield value rest others _ ih =>
      have more : (Sequence.yield value others).flatMap follow ≠ .done := flatMap_ne_done (by simp)
      have expanded := expands value
      rw [Sequence.flatMap] at more ⊢
      rw [Sequence.flatMap]
      generalize expand value = inner, follow value = inners at expanded more
      cases expanded with
      | refused => exact .refused more
      | error error => exact .fail error
      | ok same =>
          subst same
          exact UpToCap.append _ ih

theorem UpToCap.take (agrees : UpToCap cap sequence other) (count : Nat) :
    UpToCap cap (sequence.take count) (other.take count) := by
  induction agrees generalizing count with
  | done => exact upToCap_refl _
  | fail error => exact upToCap_refl _
  | @refused other more =>
      cases count with
      | zero => rw [take_zero, take_zero]; exact .done
      | succ count => exact .refused (take_succ_ne_done more)
  | skip _ ih =>
      cases count with
      | zero => exact .done
      | succ count => exact .skip (ih (count + 1))
  | yield value _ ih =>
      cases count with
      | zero => exact .done
      | succ count => exact .yield value (ih count)

theorem UpToCap.drop (agrees : UpToCap cap sequence other) (count : Nat) :
    UpToCap cap (sequence.drop count) (other.drop count) := by
  induction agrees generalizing count with
  | done => exact upToCap_refl _
  | fail error => exact upToCap_refl _
  | refused more => cases count <;> exact .refused (drop_ne_done more)
  | skip _ ih => cases count <;> exact .skip (ih _)
  | yield value rest ih =>
      cases count with
      | zero => exact .yield value rest
      | succ count => exact .skip (ih count)

/-! ## Loops -/

theorem drain_cancelled {σ : Type} {room : σ → Option RunError}
    {accept : σ → Value → Except RunError σ} {token : CancelToken} {state : σ}
    (stopped : token.step? = none) (more : sequence ≠ .done) :
    sequence.drain room accept token state = .error .cancelled := by
  cases sequence with
  | done => exact absurd rfl more
  | fail error | skip rest | yield value rest => simp only [drain, stopped]

/-- A loop that has no less room under the higher cap, and refuses only for the lower one. -/
theorem UpToCap.drain {σ : Type} {room roomier : σ → Option RunError}
    {accept follow : σ → Value → Except RunError σ} (agrees : UpToCap cap sequence other)
    (refuses : ∀ state error, room state = some error → error = .tooManyElements cap)
    (wider : ∀ state, room state = none → roomier state = none)
    (accepts : ∀ state value, Pipeline.UpToCap cap Eq (accept state value) (follow state value))
    (token : CancelToken) (state : σ) :
    Pipeline.UpToCap cap Eq (sequence.drain room accept token state)
      (other.drain roomier follow token state) := by
  induction agrees generalizing token state with
  | done => exact .ok rfl
  | fail error =>
      rw [Sequence.drain, Sequence.drain]
      cases token.step? with
      | none => exact .error _
      | some _ =>
          cases free : room state with
          | none =>
              rw [wider state free]
              exact .error _
          | some refusal =>
              cases refuses state refusal free
              exact .refused
  | refused more =>
      -- The first sequence fails and the second goes on, but a cancelled token stops both.
      cases next : token.step? with
      | none =>
          have stops : Sequence.fail (.tooManyElements cap) ≠ .done := by simp
          rw [drain_cancelled next stops, drain_cancelled next more]
          exact .error _
      | some _ =>
          simp only [Sequence.drain, next]
          cases free : room state with
          | none => exact .refused
          | some refusal =>
              cases refuses state refusal free
              exact .refused
  | skip _ ih =>
      rw [Sequence.drain, Sequence.drain]
      cases token.step? with
      | none => exact .error _
      | some token => exact ih token state
  | yield value _ ih =>
      rw [Sequence.drain, Sequence.drain]
      cases token.step? with
      | none => exact .error _
      | some token =>
          cases free : room state with
          | some refusal =>
              cases refuses state refusal free
              exact .refused
          | none =>
              rw [wider state free]
              have accepted := accepts state value
              dsimp only
              generalize accept state value = next, follow state value = follows at accepted
              cases accepted with
              | refused => exact .refused
              | error error => exact .error _
              | ok same =>
                  subst same
                  exact ih token _

theorem UpToCap.consume {σ : Type} {accept follow : σ → Value → Except RunError σ}
    (agrees : UpToCap cap sequence other)
    (accepts : ∀ state value, Pipeline.UpToCap cap Eq (accept state value) (follow state value))
    (token : CancelToken) (state : σ) :
    Pipeline.UpToCap cap Eq (sequence.consume accept token state)
      (other.consume follow token state) :=
  agrees.drain (by simp) (fun _ _ => rfl) accepts token state

variable (le : cap ≤ higher) {token : CancelToken}
include le

theorem UpToCap.materialize (agrees : UpToCap cap sequence other) :
    Pipeline.UpToCap cap Eq (sequence.materialize cap token) (other.materialize higher token) := by
  refine (agrees.drain ?_ ?_ (fun _ _ => .ok rfl) token ([], 0)).map_eq _
  · intro state error refusal
    simp only [capRoom] at refusal
    split at refusal <;> simp_all
  · intro state free
    simp only [capRoom, ite_eq_right_iff, reduceCtorEq, imp_false] at free ⊢
    omega

theorem UpToCap.sum (agrees : UpToCap cap sequence other) (selector : Selector) :
    Pipeline.UpToCap cap Eq (sequence.sum cap token selector) (other.sum higher token selector) :=
  agrees.consume (selector.addTo_upToCap le) token _

theorem UpToCap.collect (agrees : UpToCap cap sequence other) (aggregator : Aggregator) :
    Pipeline.UpToCap cap Eq (sequence.collect cap token aggregator)
      (other.collect higher token aggregator) := by
  cases aggregator with
  | toList => exact (agrees.materialize le).bind_eq fun _ => .ok rfl
  | toSet =>
      exact (agrees.materialize le).bind_eq fun _ =>
        (Comparator.natural.sort_upToCap le _).bind_eq fun _ => .ok rfl
  | counting => exact (agrees.consume (fun _ _ => Pipeline.upToCap_refl _) token 0).map_eq _
  | joining separator => exact (agrees.materialize le).bind_eq fun _ => Pipeline.upToCap_refl _
  | summing selector => exact agrees.sum le selector

end Sequence

/-! ## Flows -/

namespace Flow

/-- Both flows are built alike, and their sequences agree until the cap refuses something. -/
inductive UpToCap (cap : Nat) : Flow → Flow → Prop where
  | sequence {elements others : Sequence} :
      elements.UpToCap cap others → UpToCap cap (.sequence elements) (.sequence others)
  | single (value : Value) : UpToCap cap (.single value) (.single value)
  | noGroups : UpToCap cap (.groups []) (.groups [])
  | group (key : Key) {part other : Flow} {parts others : List (Key × Flow)} :
      UpToCap cap part other → UpToCap cap (.groups parts) (.groups others) →
      UpToCap cap (.groups ((key, part) :: parts)) (.groups ((key, other) :: others))

theorem upToCap_refl (flow : Flow) : UpToCap cap flow flow := by
  induction flow using Flow.induct with
  | sequence elements => exact .sequence (Sequence.upToCap_refl elements)
  | single value => exact .single value
  | noGroups => exact .noGroups
  | group key part parts first rest => exact .group key first rest

theorem UpToCap.withGroup {flow other part passed : Flow} (agrees : UpToCap cap flow other)
    (key : Key) (first : UpToCap cap part passed) :
    UpToCap cap (flow.withGroup key part) (other.withGroup key passed) := by
  cases agrees with
  | sequence elements => exact .sequence elements
  | single value => exact .single value
  | noGroups => exact .group key first .noGroups
  | group inner part rest => exact .group key first (.group inner part rest)

end Flow

section Runs

variable (le : cap ≤ higher) {token : CancelToken}
include le

theorem Sequence.UpToCap.group {sequence other : Sequence} (agrees : sequence.UpToCap cap other)
    (selector : Selector) :
    Pipeline.UpToCap cap (fun parts others => Flow.UpToCap cap (.groups parts) (.groups others))
      (sequence.group cap token selector) (other.group higher token selector) :=
  (agrees.consume (selector.addToGroup_upToCap le) token _).bind_eq fun _ =>
    .ok (Flow.upToCap_refl _)

theorem Stage.onSequence_upToCap (stage : Stage) {elements others : Sequence}
    (agrees : elements.UpToCap cap others) :
    UpToCap cap (Flow.UpToCap cap) (stage.onSequence cap token elements)
      (stage.onSequence higher token others) := by
  have items : UpToCap cap Eq (elements.materialize cap token) (others.materialize higher token) :=
    agrees.materialize le
  cases stage with
  | filter selector => exact .ok (.sequence (agrees.filter (selector.test_upToCap le)))
  | map selector => exact .ok (.sequence (agrees.map (selector.select_upToCap le)))
  | flatMap lambda => exact .ok (.sequence (agrees.flatMap (lambda.expand_upToCap le)))
  | sorted comparator =>
      exact items.bind_eq fun _ => ((comparator.getD .natural).sort_upToCap le _).bind_eq fun _ =>
        .ok (.sequence (Sequence.upToCap_refl _))
  | distinct => exact items.bind_eq fun _ => .ok (.sequence (Sequence.upToCap_refl _))
  | max comparator | min comparator =>
      exact items.bind_eq fun _ => (comparator.extreme_upToCap le _ _).bind_eq fun _ =>
        .ok (.single _)
  | sum selector => exact (agrees.sum le selector).bind_eq fun _ => .ok (.single _)
  | groupBy selector => exact (agrees.group le selector).bind fun _ _ parts => .ok parts
  | collect aggregator => exact (agrees.collect le aggregator).bind_eq fun _ => .ok (.single _)
  | limit count => exact .ok (.sequence (agrees.take count))
  | skip count => exact .ok (.sequence (agrees.drop count))

theorem Flow.UpToCap.apply (stage : Stage) {flow other : Flow} (agrees : flow.UpToCap cap other) :
    Pipeline.UpToCap cap (Flow.UpToCap cap) (flow.apply cap token stage)
      (other.apply higher token stage) := by
  induction agrees with
  | sequence elements => exact stage.onSequence_upToCap le elements
  | single value => exact .error _
  | noGroups => exact .ok .noGroups
  | group key _ _ first rest =>
      rw [apply_groups_cons, apply_groups_cons]
      exact first.bind fun _ _ part => rest.bind fun _ _ parts => .ok (parts.withGroup key part)

theorem Flow.UpToCap.finish {flow other : Flow} (agrees : flow.UpToCap cap other) :
    Pipeline.UpToCap cap Eq (flow.finish cap token) (other.finish higher token) := by
  induction agrees with
  | sequence elements => exact (elements.materialize le).map_eq _
  | single value => exact .ok rfl
  | noGroups => exact .ok rfl
  | group key _ _ first rest =>
      rw [finish_groups_cons, finish_groups_cons]
      exact first.bind_eq fun _ => rest.bind_eq fun _ => .ok rfl

theorem Chain.through_upToCap (chain : Chain) {flow other : Flow}
    (agrees : flow.UpToCap cap other) :
    UpToCap cap (Flow.UpToCap cap) (chain.through cap token flow)
      (chain.through higher token other) := by
  induction chain generalizing flow other with
  | nil => exact .ok agrees
  | cons stage rest ih => exact (agrees.apply le stage).bind fun _ _ behind => ih behind

end Runs

/-- Under a higher cap a chain has the same outcome, unless the lower cap is what it fails with. -/
theorem Chain.run_of_le_cap {cap higher : Nat} (le : cap ≤ higher) (token : CancelToken)
    (chain : Chain) (input : List Value) :
    chain.run cap token input = .error (.tooManyElements cap) ∨
      chain.run cap token input = chain.run higher token input := by
  have behind : UpToCap cap (Flow.UpToCap cap) (chain.through cap token (.sequence (.ofList input)))
      (chain.through higher token (.sequence (.ofList input))) :=
    chain.through_upToCap le (Flow.upToCap_refl _)
  exact upToCap_eq_iff.1 (behind.bind fun _ _ flow => flow.finish le)

/-- The numbers below `2` and those below `3`, by parity. There are five of them: a cap of `3` is
what the run fails with, and under caps of `5` and `9` it comes to the same groups. -/
theorem Chain.run_of_le_cap_ranges :
    let parity : Selector := .lambda ⟨"x", .binary (.arithmetic .modulo) (.reference "x")
      (.literal (.number (.integer 2)))⟩
    let below : Lambda := ⟨"n", .call "range" [.literal (.number (.integer 0)), .reference "n"]⟩
    let chain : Chain := [.flatMap below, .groupBy parity, .collect .toList]
    let input : List Value := [.integer 2, .integer 3]
    let groups : Value := .map [(.integer 0, .list [.integer 0, .integer 0, .integer 2]),
      (.integer 1, .list [.integer 1, .integer 1])]
    (3 ≤ 9 ∧ chain.run 3 .never input = .error (.tooManyElements 3)) ∧
      5 ≤ 9 ∧ chain.run 5 .never input = .ok groups ∧ chain.run 9 .never input = .ok groups := by
  intro parity below chain input groups
  have low : chain.run 5 .never input = .ok groups := by rfl
  refine ⟨⟨by decide, by rfl⟩, by decide, low, ?_⟩
  have five : 5 ≤ 9 := by decide
  rcases Chain.run_of_le_cap five .never chain input with failed | same
  · cases low.symm.trans failed
  · exact same.symm.trans low

end Pipeline
