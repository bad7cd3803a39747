import Pipeline.Proofs.Contents
import Pipeline.Proofs.Grouping
import Pipeline.Proofs.Lookup
import Pipeline.Proofs.Parts
import Pipeline.Proofs.Shape
import Pipeline.Proofs.Stage

/-! What stands inside the values that runs put together. A script makes scalars, lists within the
cap and maps of groups in key order; anything else in its result comes from the input. -/

set_option autoImplicit false

namespace Pipeline

/-- A property of all values that a script can make of values that have it. The numbers that
operators compute are finite; a literal may be none of them. -/
structure HoldsOfBuilt (cap : Nat) (p : Value → Prop) : Prop where
  number : ∀ n : Number, n.IsFinite → p (.number n)
  text : ∀ s, p (.text s)
  boolean : ∀ b, p (.boolean b)
  negated : ∀ x, p (.float x) → p (.float x.neg)
  absolute : ∀ x, p (.float x) → p (.float x.abs)
  field : ∀ (r : Record), p (.record r) → ∀ s ∈ r.values, p (.scalar s)
  list : ∀ items : List Value, items.length ≤ cap → p (.list items)
  map : ∀ entries : List (Key × Value), entries.length ≤ cap → InKeyOrder entries →
    p (.map entries)

theorem HoldsOfBuilt.of_scalars {cap : Nat} {p : Value → Prop} (scalar : ∀ s, p (.scalar s))
    (list : ∀ items : List Value, items.length ≤ cap → p (.list items))
    (map : ∀ entries : List (Key × Value), entries.length ≤ cap → InKeyOrder entries →
      p (.map entries)) : HoldsOfBuilt cap p where
  number n _ := scalar (.number n)
  text s := scalar (.text s)
  boolean b := scalar (.boolean b)
  negated x _ := scalar (.number (.float x.neg))
  absolute x _ := scalar (.number (.float x.abs))
  field _ _ s _ := scalar s
  list := list
  map := map

/-- Nothing is said of failures. -/
abbrev Returns {α : Type} (post : α → Prop) (source : Except RunError α) : Prop :=
  Ensures post (fun _ => True) source

theorem Connective.operand_returns (op : Connective) (value : Value) :
    Returns (fun _ => True) (op.operand value) :=
  (op.operand_ensures value).mono (fun _ => id) fun _ _ => trivial

theorem Relation.apply_returns (op : Relation) (left right : Value) :
    Returns (fun _ => True) (op.apply left right) :=
  (op.apply_ensures left right).mono (fun _ => id) fun _ _ => trivial

theorem rangeBounds_returns (arguments : List Value) :
    Returns (fun _ => True) (rangeBounds arguments) := by
  fun_cases rangeBounds arguments <;> trivial

theorem Record.mem_of_get? {r : Record} {name : String} {found : Scalar}
    (got : r.get? name = some found) : found ∈ r.values := by
  obtain ⟨i, _, at_i⟩ := Option.bind_eq_some_iff.1 got
  exact List.mem_of_getElem? at_i

section Built

variable {cap : Nat} {p : Value → Prop} (built : HoldsOfBuilt cap p)
include built

/-! ## What operators and calls make -/

theorem HoldsOfBuilt.of_number {value : Value} (number : value.IsFiniteNumber) :
    value.Everywhere p := by
  obtain ⟨n, finite, rfl⟩ := number
  exact Value.everywhere_scalar_iff.2 (built.number n finite)

theorem Value.negated_everywhere {value : Value} (holds : value.Everywhere p) :
    Returns (Value.Everywhere p) value.negated := by
  fun_cases Value.negated value with
  | case1 n m => exact built.of_number ⟨.integer m, trivial, rfl⟩
  | case3 x => exact everywhere_scalar_iff.2 (built.negated x holds.self)
  | case2 | case4 => trivial

theorem UnaryOp.apply_everywhere (op : UnaryOp) {value : Value} (holds : value.Everywhere p) :
    Returns (Value.Everywhere p) (op.apply value) := by
  cases op with
  | negate => exact Value.negated_everywhere built holds
  | not =>
      rw [UnaryOp.apply]
      split
      · exact Value.everywhere_scalar_iff.2 (built.boolean _)
      · trivial

theorem Arithmetic.apply_everywhere (op : Arithmetic) (left right : Value) :
    Returns (Value.Everywhere p) (op.apply left right) := by
  refine (op.apply_ensures left right).mono (fun result made => ?_) fun _ _ => trivial
  rcases made with ⟨_, _, number⟩ | ⟨_, _, s, rfl⟩
  · exact built.of_number number
  · exact Value.everywhere_scalar_iff.2 (built.text s)

theorem HoldsOfBuilt.of_get? {r : Record} (holds : (Value.record r).Everywhere p) {name : String}
    {found : Scalar} (got : r.get? name = some found) : (Value.scalar found).Everywhere p :=
  Value.everywhere_scalar_iff.2 (built.field r holds.self found (Record.mem_of_get? got))

theorem Value.field_everywhere {value : Value} (holds : value.Everywhere p) (name : String) :
    Returns (Value.Everywhere p) (value.field name) := by
  unfold Value.field
  split
  · split
    · rename_i found got
      exact built.of_get? holds got
    · trivial
  · trivial

theorem Number.absolute_everywhere {n : Number} (holds : (Value.number n).Everywhere p) :
    Returns (Value.Everywhere p) n.absolute := by
  fun_cases Number.absolute n with
  | case1 n m => exact built.of_number ⟨.integer m, trivial, rfl⟩
  | case2 => trivial
  | case3 x => exact Value.everywhere_scalar_iff.2 (built.absolute x holds.self)

theorem Function.apply_everywhere (function : Function) {arguments : List Value}
    (all : ∀ argument ∈ arguments, argument.Everywhere p) :
    Returns (Value.Everywhere p) (function.apply arguments) := by
  fun_cases Function.apply function arguments with
  | case1 n => exact Number.absolute_everywhere built (all _ (.head _))
  | case2 a b | case3 a b =>
      change (Value.number _).Everywhere p
      split
      · exact all _ (.tail _ (.head _))
      · exact all _ (.head _)
  | case4 => trivial

theorem Method.result?_everywhere {method : Method} {object : Value} {arguments : List Value}
    (holds : object.Everywhere p) {result : Except RunError Value}
    (applied : method.result? object arguments = some result) :
    Returns (Value.Everywhere p) result := by
  unfold Method.result? at applied
  split at applied
  case h_10 =>
    cases applied
    exact Function.apply_everywhere built .abs (List.forall_mem_singleton.2 holds)
  case h_11 => cases applied
  case h_1 | h_2 | h_3 =>
    cases applied
    exact Value.everywhere_scalar_iff.2 (built.text _)
  case h_4 | h_5 =>
    cases applied
    exact built.of_number ⟨.integer _, trivial, rfl⟩
  case h_6 | h_7 | h_8 | h_9 =>
    cases applied
    exact Value.everywhere_scalar_iff.2 (built.boolean _)

theorem Value.callMethod_everywhere {value : Value} (holds : value.Everywhere p) (name : String)
    (arguments : List Value) : Returns (Value.Everywhere p) (value.callMethod name arguments) := by
  unfold Value.callMethod
  dsimp only
  split
  · rename_i found accessed
    split at accessed
    · exact built.of_get? holds accessed
    · cases accessed
  · split
    · trivial
    · split
      · exact Method.result?_everywhere built holds ‹_›
      · trivial

theorem everywhere_integersBetween (lower upper : Int64) :
    ∀ value ∈ integersBetween lower upper, value.Everywhere p := by
  intro value member
  obtain ⟨step, _, rfl⟩ := List.mem_map.1 member
  exact built.of_number ⟨.integer _, trivial, rfl⟩

theorem callFunction_everywhere (name : String) {arguments : List Value}
    (all : ∀ argument ∈ arguments, argument.Everywhere p) :
    Returns (Value.Everywhere p) (callFunction cap name arguments) := by
  unfold callFunction
  split
  · trivial
  · refine (rangeBounds_returns arguments).bind fun bounds _ => ?_
    dsimp only [Value.range]
    split
    · trivial
    · rename_i within
      refine Value.everywhere_list_iff.2 ⟨built.list _ ?_, everywhere_integersBetween built _ _⟩
      rw [integersBetween, List.length_map, List.length_range]
      exact Nat.le_of_not_lt within
  · exact Function.apply_everywhere built _ all

/-! ## What expressions and selectors make -/

omit built in
theorem evalAll_returns {parameter : String} {element : Value} {exprs : List Expr}
    (each : ∀ expr ∈ exprs, Returns (Value.Everywhere p) (expr.eval cap parameter element)) :
    Returns (fun values => ∀ value ∈ values, value.Everywhere p)
      (Expr.evalAll cap parameter element exprs) := by
  induction exprs with
  | nil => exact List.forall_mem_nil _
  | cons expr rest ih =>
      rw [List.forall_mem_cons] at each
      exact each.1.bind fun value holds => (ih each.2).bind fun values all =>
        List.forall_mem_cons.2 ⟨holds, all⟩

variable {element : Value} (holds : element.Everywhere p)
include holds

theorem Expr.eval_everywhere (parameter : String) {expr : Expr}
    (literals : expr.Literals fun s => p (.scalar s)) :
    Returns (Value.Everywhere p) (expr.eval cap parameter element) := by
  induction literals with
  | literal good => exact Value.everywhere_scalar_iff.2 good
  | reference =>
      rw [eval]
      split
      · exact holds
      · trivial
  | field _ ih => exact ih.bind fun _ all => Value.field_everywhere built all _
  | unary _ ih => exact ih.bind fun _ all => UnaryOp.apply_everywhere built _ all
  | @binary op _ _ _ _ leftIH rightIH =>
      cases op with
      | connective op =>
          refine leftIH.bind fun _ _ => (op.operand_returns _).bind fun first _ => ?_
          split
          · exact Value.everywhere_scalar_iff.2 (built.boolean _)
          · exact rightIH.bind fun _ _ => (op.operand_returns _).bind fun _ _ =>
              Value.everywhere_scalar_iff.2 (built.boolean _)
      | relation op =>
          exact leftIH.bind fun left _ => rightIH.bind fun right _ =>
            (op.apply_returns left right).map fun _ _ =>
              Value.everywhere_scalar_iff.2 (built.boolean _)
      | arithmetic op =>
          exact leftIH.bind fun left _ => rightIH.bind fun right _ =>
            op.apply_everywhere built left right
  | conditional _ _ _ conditionIH thenIH elseIH =>
      refine conditionIH.bind fun value _ => ?_
      split
      · exact thenIH
      · exact elseIH
      · trivial
  | method _ _ objectIH argumentsIH =>
      exact objectIH.bind fun _ all => (evalAll_returns argumentsIH).bind fun _ _ =>
        Value.callMethod_everywhere built all _ _
  | call _ ih =>
      exact (evalAll_returns ih).bind fun _ all => callFunction_everywhere built _ all

theorem Selector.select_everywhere {selector : Selector}
    (literals : selector.Literals fun s => p (.scalar s)) :
    Returns (Value.Everywhere p) (selector.select cap element) := by
  cases selector with
  | identity => exact holds
  | field name => exact Value.field_everywhere built holds name
  | lambda function => exact Expr.eval_everywhere built holds function.parameter literals

theorem Lambda.expand_everywhere {lambda : Lambda}
    (literals : lambda.body.Literals fun s => p (.scalar s)) :
    Returns (Sequence.Guarded (Value.Everywhere p) fun _ => True) (lambda.expand cap element) := by
  unfold Lambda.expand
  split
  · rename_i arguments body
    rw [body] at literals
    cases literals with
    | call each =>
        refine (evalAll_returns fun argument member =>
          Expr.eval_everywhere built holds lambda.parameter (each argument member)).bind
            fun values _ => ?_
        exact (rangeBounds_returns values).bind fun bounds _ => Sequence.guarded_consecutive
          (fun n => built.of_number ⟨.integer n, trivial, rfl⟩) _ _
  · refine (Expr.eval_everywhere built holds lambda.parameter literals).bind fun value all => ?_
    split
    · exact Sequence.guarded_ofList (Value.everywhere_list_iff.1 all).2
    · trivial

omit holds in
theorem Stage.sends_everywhere {stage : Stage}
    (literals : ∀ selector ∈ stage.selectors, selector.Literals fun s => p (.scalar s)) :
    stage.Sends cap (Value.Everywhere p) (Value.Everywhere p) fun _ => True := by
  have selects : ∀ selector ∈ stage.selectors, ∀ value : Value, value.Everywhere p →
      Returns (fun _ => True) (selector.select cap value) := fun selector member value all =>
    (selector.select_everywhere built all (literals selector member)).mono
      (fun _ _ => trivial) fun _ => id
  have list : ∀ items : List Value, items.length ≤ cap → (∀ item ∈ items, item.Everywhere p) →
      (Value.list items).Everywhere p := fun items within all =>
    Value.everywhere_list_iff.2 ⟨built.list items within, all⟩
  have number : ∀ n : Number, n.IsFinite → (Value.number n).Everywhere p := fun n finite =>
    built.of_number ⟨n, finite, rfl⟩
  cases stage with
  | filter selector | groupBy selector => exact ⟨fun _ => id, selects selector (.head _)⟩
  | map selector =>
      exact fun value all => selector.select_everywhere built all (literals selector (.head _))
  | flatMap lambda =>
      exact fun value all =>
        lambda.expand_everywhere built all (literals (.lambda lambda) (.head _))
  | sorted comparator =>
      cases comparator with
      | none => exact ⟨fun _ => id, natural_selects⟩
      | some comparator =>
          exact ⟨fun _ => id, fun key member => selects key.selector (List.mem_map_of_mem member)⟩
  | max comparator | min comparator =>
      exact ⟨fun _ => id, fun key member => selects key.selector (List.mem_map_of_mem member)⟩
  | sum selector => exact ⟨number, selects selector (.head _)⟩
  | collect aggregator =>
      cases aggregator with
      | toList | toSet => exact list
      | counting => exact fun n => number (.integer n) trivial
      | joining separator => exact fun s => Value.everywhere_scalar_iff.2 (built.text s)
      | summing selector => exact ⟨number, selects selector (.head _)⟩
  | distinct | limit count | skip count => exact fun _ => id

end Built

/-! ## The keys of groups -/

namespace Grouping

theorem length_add_le (key : Key) (element : Value) (groups : Grouping) :
    (groups.add key element).length ≤ groups.length + 1 := by
  fun_induction Grouping.add key element groups with
  | case1 | case2 | case3 => simp
  | case4 other elements rest _ ih => simpa using ih

end Grouping

/-- Groups are in key order, and there are not more of them than elements were counted. -/
theorem Selector.foldlM_addToGroup_ordered {cap : Nat} {selector : Selector} {items : List Value}
    {state last : Grouping × Nat} (folded : items.foldlM (selector.addToGroup cap) state = .ok last)
    (ordered : InKeyOrder state.1) (few : state.1.length ≤ state.2) (within : state.2 ≤ cap) :
    InKeyOrder last.1 ∧ last.1.length ≤ cap := by
  induction items generalizing state with
  | nil =>
      cases folded
      exact ⟨ordered, Nat.le_trans few within⟩
  | cons item rest ih =>
      rw [List.foldlM_cons] at folded
      obtain ⟨next, added, folded⟩ := bind_eq_ok.1 folded
      unfold addToGroup at added
      split at added
      · cases added
      · rename_i room
        obtain ⟨value, _, added⟩ := bind_eq_ok.1 added
        split at added
        · rename_i key _
          cases added
          have longer := Grouping.length_add_le key item state.1
          exact ih folded (Grouping.add_inKeyOrder ordered item) (by dsimp only; omega)
            (by dsimp only; omega)
        · cases added

namespace Flow

/-- Groups are in key order and not more than the cap, also those inside groups. -/
inductive Keyed (cap : Nat) : Flow → Prop where
  | sequence (elements : Sequence) : Keyed cap (.sequence elements)
  | single (value : Value) : Keyed cap (.single value)
  | groups {parts : List (Key × Flow)} : InKeyOrder parts → parts.length ≤ cap →
      (∀ key part, (key, part) ∈ parts → Keyed cap part) → Keyed cap (.groups parts)

variable {cap : Nat} {token : CancelToken}

theorem forall₂_applyParts {stage : Stage} {parts others : List (Key × Flow)}
    (applied : applyParts cap token stage parts = .ok others) :
    List.Forall₂ (fun part other => part.1 = other.1 ∧
      part.2.apply cap token stage = .ok other.2) parts others := by
  induction parts generalizing others with
  | nil =>
      cases applied
      exact .nil
  | cons entry rest ih =>
      obtain ⟨first, behind, appliedFirst, appliedRest, rfl⟩ := applyParts_cons_eq_ok.1 applied
      exact .cons ⟨rfl, appliedFirst⟩ (ih appliedRest)

theorem forall₂_finishParts {parts : List (Key × Flow)} {entries : List (Key × Value)}
    (finished : finishParts cap token parts = .ok entries) :
    List.Forall₂ (fun part entry => part.1 = entry.1 ∧ part.2.finish cap token = .ok entry.2) parts
      entries := by
  induction parts generalizing entries with
  | nil =>
      cases finished
      exact .nil
  | cons entry rest ih =>
      obtain ⟨first, behind, finishedFirst, finishedRest, rfl⟩ := finishParts_cons_eq_ok.1 finished
      exact .cons ⟨rfl, finishedFirst⟩ (ih finishedRest)

end Flow

theorem Stage.onSequence_keyed {cap : Nat} {token : CancelToken} {stage : Stage}
    {elements : Sequence} {flow : Flow} (applied : stage.onSequence cap token elements = .ok flow) :
    flow.Keyed cap := by
  cases stage with
  | filter | map | flatMap | limit | skip =>
      cases applied
      exact .sequence _
  | sorted comparator =>
      obtain ⟨_, _, applied⟩ := bind_eq_ok.1 applied
      obtain ⟨_, _, same⟩ := bind_eq_ok.1 applied
      cases same
      exact .sequence _
  | distinct =>
      obtain ⟨_, _, same⟩ := bind_eq_ok.1 applied
      cases same
      exact .sequence _
  | max comparator | min comparator =>
      obtain ⟨_, _, applied⟩ := bind_eq_ok.1 applied
      obtain ⟨_, _, same⟩ := bind_eq_ok.1 applied
      cases same
      exact .single _
  | sum selector | collect aggregator =>
      obtain ⟨_, _, same⟩ := bind_eq_ok.1 applied
      cases same
      exact .single _
  | groupBy selector =>
      obtain ⟨parts, grouped, same⟩ := bind_eq_ok.1 applied
      cases same
      obtain ⟨last, consumed, same⟩ := bind_eq_ok.1 grouped
      cases same
      obtain ⟨items, _, folded⟩ := Sequence.contents_of_consume consumed
      obtain ⟨ordered, few⟩ :=
        Selector.foldlM_addToGroup_ordered folded .nil (Nat.le_refl 0) (Nat.zero_le cap)
      refine .groups (List.pairwise_map.2 ordered) (by simpa using few) fun key part member => ?_
      obtain ⟨⟨key, items⟩, _, same⟩ := List.mem_map.1 member
      cases same
      exact .sequence _

section Runs

variable {cap : Nat} {token : CancelToken}

theorem Flow.Keyed.apply {stage : Stage} {flow passed : Flow} (keyed : flow.Keyed cap)
    (applied : flow.apply cap token stage = .ok passed) : passed.Keyed cap := by
  induction keyed generalizing passed with
  | sequence elements => exact Stage.onSequence_keyed applied
  | single value => cases applied
  | groups ordered few _ ih =>
      obtain ⟨others, appliedParts, rfl⟩ := apply_groups_eq_ok.1 applied
      have related := forall₂_applyParts appliedParts
      have keys := map_eq_of_forall₂ related fun _ _ both => both.1
      refine .groups (ordered.of_keys keys) (related.length_eq ▸ few) ?_
      intro key part member
      obtain ⟨before, within, -, appliedPart⟩ := exists_of_forall₂ related _ member
      exact ih before.1 before.2 within appliedPart

variable {p : Value → Prop} (built : HoldsOfBuilt cap p)
include built

theorem Flow.finish_everywhere {flow : Flow} {value : Value} (keyed : flow.Keyed cap)
    (guarded : flow.Guarded (Value.Everywhere p) fun _ => True)
    (finished : flow.finish cap token = .ok value) : value.Everywhere p := by
  induction keyed generalizing value with
  | sequence elements =>
      obtain ⟨elements⟩ := guarded
      obtain ⟨items, taken, rfl⟩ := map_eq_ok.1 finished
      have ensured := elements.materialize trivial cap trivial token
      rw [taken] at ensured
      exact Value.everywhere_list_iff.2 ⟨built.list items ensured.1, ensured.2⟩
  | single only =>
      cases finished
      obtain ⟨⟩ := guarded
      assumption
  | groups ordered few _ ih =>
      cases guarded with
      | groups guardedParts =>
          obtain ⟨entries, finishedParts, rfl⟩ := finish_groups_eq_ok.1 finished
          have related := forall₂_finishParts finishedParts
          have keys := map_eq_of_forall₂ related fun _ _ both => both.1
          have own := built.map entries (related.length_eq ▸ few) (ordered.of_keys keys)
          refine Value.everywhere_map_iff.2 ⟨own, ?_⟩
          intro key value member
          obtain ⟨part, within, -, finishedPart⟩ := exists_of_forall₂ related _ member
          exact ih part.1 part.2 within (guardedParts part.1 part.2 within) finishedPart

/-- Whatever stands in the result of a run has a property that the input has everywhere, that the
literals of the chain have, and that all values have that a script can make of such values. -/
theorem Chain.run_everywhere {chain : Chain}
    (literals : ∀ stage ∈ chain, ∀ selector ∈ stage.selectors,
      selector.Literals fun s => p (.scalar s))
    {input : List Value} {value : Value} (inputs : ∀ element ∈ input, element.Everywhere p)
    (ran : chain.run cap token input = .ok value) : value.Everywhere p := by
  -- Every stage keeps both the order of the groups and the property of the elements.
  have passes : ∀ (chain : Chain) (flow last : Flow), (∀ stage ∈ chain,
      ∀ selector ∈ stage.selectors, selector.Literals fun s => p (.scalar s)) → flow.Keyed cap →
      flow.Guarded (Value.Everywhere p) (fun _ => True) → chain.through cap token flow = .ok last →
      last.Keyed cap ∧ last.Guarded (Value.Everywhere p) fun _ => True := by
    intro chain
    induction chain with
    | nil =>
        intro flow last _ keyed guarded through
        cases through
        exact ⟨keyed, guarded⟩
    | cons stage rest ih =>
        intro flow last literals keyed guarded through
        obtain ⟨own, others⟩ := List.forall_mem_cons.1 literals
        obtain ⟨between, applied, through⟩ := bind_eq_ok.1 through
        have ensured : Returns (Flow.Guarded (Value.Everywhere p) fun _ => True)
            (flow.apply cap token stage) :=
          guarded.apply (fun _ _ => trivial) (Stage.sends_everywhere built own)
        rw [applied] at ensured
        exact ih between last others (keyed.apply applied) ensured through
  obtain ⟨last, through, finished⟩ := bind_eq_ok.1 ran
  obtain ⟨keyed, guarded⟩ := passes chain _ last literals (.sequence _)
    (.sequence (Sequence.guarded_ofList inputs)) through
  exact Flow.finish_everywhere built keyed guarded finished

end Runs

end Pipeline
