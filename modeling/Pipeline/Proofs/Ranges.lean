import Pipeline.Proofs.BoundedIntegers
import Pipeline.Proofs.Composition
import Pipeline.Proofs.Contents
import Pipeline.Proofs.Sequence

/-! Ranges as lists and as sequences. The list of a range holds exactly the integers between its
bounds, however far apart these are, or is refused. A stage that expands its elements to a range
does not build the list, and nobody can tell as long as the list would have been within the cap. -/

set_option autoImplicit false

namespace Pipeline

section Lists

variable {cap : Nat} {lower upper : Int64}

theorem length_integersBetween :
    (integersBetween lower upper).length = (upper.toInt - lower.toInt).toNat := by
  rw [integersBetween, List.length_map, List.length_range]

/-- No integer wraps around: all of them lie between two bounds that are integers of 64 bits. -/
theorem exists_integer_of_getElem? {position : Nat} {item : Value}
    (found : (integersBetween lower upper)[position]? = some item) :
    ∃ n : Int64, item = .integer n ∧ n.toInt = lower.toInt + position := by
  rw [integersBetween, List.getElem?_map, Option.map_eq_some_iff] at found
  obtain ⟨step, inside, rfl⟩ := found
  obtain ⟨within, rfl⟩ := List.getElem?_eq_some_iff.1 inside
  rw [List.length_range] at within
  have least := (isBounded_toInt lower).1
  have most := (isBounded_toInt upper).2
  refine ⟨_, rfl, ?_⟩
  rw [List.getElem_range]
  have bounded : IsBounded (lower.toInt + position) := ⟨by omega, by omega⟩
  exact Int64.toInt_ofInt_of_le bounded.1 (Int.lt_add_one_of_le bounded.2)

theorem range_eq_tooMany_iff : Value.range cap lower upper = .error (.tooManyElements cap) ↔
    (cap : Int) < upper.toInt - lower.toInt := by
  rw [Value.range]
  split
  · exact iff_of_true rfl (by omega)
  · exact iff_of_false nofun (by omega)

theorem range_of_le (within : upper.toInt - lower.toInt ≤ cap) :
    Value.range cap lower upper = .ok (.list (integersBetween lower upper)) :=
  if_neg (by omega)

end Lists

namespace Lambda

/-- The sequence of the list that the body is evaluated to, whatever the body is. -/
def expandList (cap : Nat) (lambda : Lambda) (element : Value) : Except RunError Sequence := do
  match ← lambda.eval cap element with
  | .list items => .ok (Sequence.ofList items)
  | other => .error (.type (.flatMapResult other.kind))

variable {cap : Nat} {element : Value}

/-- If the body is a range for the element, then one within the cap. -/
def RangeFits (cap : Nat) (lambda : Lambda) (element : Value) : Prop :=
  ∀ (arguments : List Expr) (lower upper : Int64), lambda.body = .call "range" arguments →
    Expr.evalAll cap lambda.parameter element arguments = .ok [.integer lower, .integer upper] →
    upper.toInt - lower.toInt ≤ cap

theorem rangeBounds_eq_ok {values : List Value} {lower upper : Int64}
    (bounds : rangeBounds values = .ok (lower, upper)) :
    values = [.integer lower, .integer upper] := by
  unfold rangeBounds at bounds
  split at bounds <;> cases bounds
  rfl

theorem expand_eq_expandList {lambda : Lambda} (fits : lambda.RangeFits cap element) :
    lambda.expand cap element = lambda.expandList cap element := by
  by_cases range : ∃ arguments, lambda.body = .call "range" arguments
  · obtain ⟨arguments, body⟩ := range
    simp only [expand, expandList, Lambda.eval, body, Expr.eval]
    cases evaluated : Expr.evalAll cap lambda.parameter element arguments with
    | error error => rfl
    | ok values =>
        have called : callFunction cap "range" values =
            rangeBounds values >>= fun bounds => Value.range cap bounds.1 bounds.2 := rfl
        simp only [bind, Except.bind] at called ⊢
        rw [called]
        cases bounds : rangeBounds values with
        | error error => rfl
        | ok ends =>
            obtain ⟨lower, upper⟩ := ends
            rw [rangeBounds_eq_ok bounds] at evaluated
            have within := fits arguments lower upper body evaluated
            dsimp only
            rw [range_of_le within, Sequence.consecutive_eq_ofList]
            rfl
  · unfold expand
    split
    · rename_i arguments body
      exact absurd ⟨arguments, body⟩ range
    · rfl

end Lambda

theorem Sequence.flatMap_congr {expand other : Value → Except RunError Sequence}
    {elements : Sequence} (same : ∀ element, Yields element elements →
      expand element = other element) : elements.flatMap expand = elements.flatMap other := by
  induction elements with
  | done | fail error => rfl
  | skip rest ih => simp only [flatMap, ih () fun element yields => same element (.skip yields)]
  | yield value rest ih =>
      have further := ih () fun element yields => same element (.later yields)
      simp only [flatMap, same value .here, further]

/-- The list of a range is refused exactly if there are more integers between its bounds than the
cap allows, and otherwise holds them in order, none of them if the bounds cross. Whatever follows,
a stage that expands its elements comes to the same end, in success and in failure, as over the
lists to which the bodies are evaluated, unless one of these is a range beyond the cap. -/
theorem Chain.outcome_flatMap_range (cap : Nat) (token : CancelToken) :
    (∀ lower upper : Int64,
      (callFunction cap "range" [.integer lower, .integer upper] = .error (.tooManyElements cap) ↔
        (cap : Int) < upper.toInt - lower.toInt) ∧
      (upper.toInt - lower.toInt ≤ cap → ∃ items : List Value,
        callFunction cap "range" [.integer lower, .integer upper] = .ok (.list items) ∧
          items.length = (upper.toInt - lower.toInt).toNat ∧
          ∀ (position : Nat) (item : Value), items[position]? = some item →
            ∃ n : Int64, item = .integer n ∧ n.toInt = lower.toInt + position)) ∧
    ∀ (lambda : Lambda) (elements : Sequence) (tail : Chain),
      (∀ element, elements.Yields element → lambda.RangeFits cap element) →
      Chain.outcome cap token (.flatMap lambda :: tail) (.sequence elements) =
        tail.outcome cap token (.sequence (elements.flatMap (lambda.expandList cap))) := by
  refine ⟨fun lower upper => ⟨range_eq_tooMany_iff, fun within => ?_⟩,
    fun lambda elements tail fits => ?_⟩
  · exact ⟨_, range_of_le within, length_integersBetween,
      fun position item => exists_integer_of_getElem?⟩
  · have same : elements.flatMap (lambda.expand cap) = elements.flatMap (lambda.expandList cap) :=
      Sequence.flatMap_congr fun element yields => Lambda.expand_eq_expandList (fits element yields)
    rw [outcome_cons, Flow.apply, Stage.onSequence, same]
    rfl

/-- Two ranges up to `4` that just fit, and behind them an element that is no bound. -/
theorem Chain.outcome_flatMap_range_upTo :
    let lambda : Lambda := ⟨"x", .call "range" [.reference "x", .literal (.number (.integer 4))]⟩
    let elements := Sequence.ofList [.integer 2, .integer 3, .text "a"]
    (∀ element, elements.Yields element → lambda.RangeFits 2 element) ∧
      Chain.outcome 2 .never [.flatMap lambda, .skip 3] (.sequence elements) =
        Chain.outcome 2 .never [.skip 3] (.sequence (elements.flatMap (lambda.expandList 2))) ∧
      Chain.outcome 2 .never [.flatMap lambda, .skip 3] (.sequence elements) =
        .error (.type .rangeBounds) := by
  intro lambda elements
  have members : Sequence.Guarded (· ∈ [Value.integer 2, .integer 3, .text "a"]) (fun _ => True)
      elements := Sequence.guarded_ofList fun _ member => member
  have fits : ∀ element, elements.Yields element → lambda.RangeFits 2 element := by
    intro element yields arguments lower upper body evaluated
    cases body
    have member := members.good_of_yields yields
    simp only [List.mem_cons, List.not_mem_nil, or_false] at member
    rcases member with rfl | rfl | rfl <;> cases evaluated <;> decide
  exact ⟨fits, (Chain.outcome_flatMap_range 2 .never).2 lambda elements [.skip 3] fits, rfl⟩

end Pipeline
