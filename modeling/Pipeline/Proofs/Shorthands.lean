import Pipeline.Proofs.Composition
import Pipeline.Proofs.Exchange
import Pipeline.Proofs.NameResolution

/-! Chains written out: a lambda for every selector that is only the name of a field, and a field
for every call by which a record answers with one. Which calls these are depends on the shapes
that the policy infers. -/

set_option autoImplicit false

namespace Pipeline

/-! ## Longhands -/

/-- Whether the object of a call is inferred to be a record that answers with a field. -/
def Expr.answersField (parameter : String) (element : Shape) (object : Expr) (name : String)
    (arguments : List Expr) : Bool :=
  match object.shape parameter element, arguments with
  | .ok (.record schema), [] => (schema.field? name).isSome
  | _, _ => false

namespace Expr

mutual

/-- The expression with a field for each call that answers with one. -/
def longhand (parameter : String) (element : Shape) : Expr → Expr
  | literal value => literal value
  | reference name => reference name
  | field object name => field (longhand parameter element object) name
  | unary op operand => unary op (longhand parameter element operand)
  | binary op left right =>
    binary op (longhand parameter element left) (longhand parameter element right)
  | conditional condition thenBranch elseBranch =>
    conditional (longhand parameter element condition) (longhand parameter element thenBranch)
      (longhand parameter element elseBranch)
  | method object name arguments =>
    if answersField parameter element object name arguments then
      field (longhand parameter element object) name
    else method (longhand parameter element object) name (longhandAll parameter element arguments)
  | call function arguments => call function (longhandAll parameter element arguments)
termination_by structural expr => expr

def longhandAll (parameter : String) (element : Shape) : List Expr → List Expr
  | [] => []
  | expr :: rest => longhand parameter element expr :: longhandAll parameter element rest
termination_by structural exprs => exprs

end

end Expr

def Lambda.longhand (element : Shape) (lambda : Lambda) : Lambda where
  parameter := lambda.parameter
  body := lambda.body.longhand lambda.parameter element

/-- The lambda that reads a field of its parameter. -/
def Lambda.reading (parameter name : String) : Lambda where
  parameter := parameter
  body := .field (.reference parameter) name

/-- The selector written out, with the given parameter where it was a name only. -/
def Selector.longhand (parameter : String) (element : Shape) : Selector → Selector
  | identity => identity
  | field name => lambda (.reading parameter name)
  | lambda function => lambda (function.longhand element)

def SortKey.longhand (parameter : String) (element : Shape) (key : SortKey) : SortKey where
  selector := key.selector.longhand parameter element
  direction := key.direction

def Comparator.longhand (parameter : String) (element : Shape) (comparator : Comparator) :
    Comparator where
  keys := comparator.keys.map (·.longhand parameter element)

def Aggregator.longhand (parameter : String) (element : Shape) : Aggregator → Aggregator
  | summing selector => summing (selector.longhand parameter element)
  | aggregator => aggregator

/-- The stage with all its selectors written out. -/
def Stage.longhand (parameter : String) (element : Shape) : Stage → Stage
  | filter selector => filter (selector.longhand parameter element)
  | map selector => map (selector.longhand parameter element)
  | flatMap lambda => flatMap (lambda.longhand element)
  | sorted comparator => sorted (comparator.map (·.longhand parameter element))
  | distinct => distinct
  | max comparator => max (comparator.longhand parameter element)
  | min comparator => min (comparator.longhand parameter element)
  | sum selector => sum (selector.longhand parameter element)
  | groupBy selector => groupBy (selector.longhand parameter element)
  | collect aggregator => collect (aggregator.longhand parameter element)
  | limit count => limit count
  | skip count => skip count

/-- The chain with all its stages written out, as far as the policy lets it through. -/
def Chain.longhand (parameter : String) : Chain → Shape → Chain
  | [], _ => []
  | stage :: rest, element =>
    stage.longhand parameter element ::
      match stage.shape element with
      | .ok next => Chain.longhand parameter rest next
      | .error _ => rest

variable {cap : Nat} {parameter : String} {element : Shape} {value : Value}

/-! ## Expressions -/

namespace Expr

theorem answersField_iff {object : Expr} {name : String} {arguments : List Expr} :
    answersField parameter element object name arguments = true ↔
      arguments = [] ∧ ∃ schema field, object.shape parameter element = .ok (.record schema) ∧
        schema.field? name = some field := by
  unfold answersField
  split
  · simp [*, Option.isSome_iff_exists]
  · rename_i other
    simp only [Bool.false_eq_true, false_iff]
    intro ⟨empty, schema, _, inferred, _⟩
    exact other schema inferred empty

theorem longhandAll_eq (exprs : List Expr) :
    longhandAll parameter element exprs = exprs.map (longhand parameter element) := by
  induction exprs with
  | nil => rfl
  | cons expr rest ih => simp only [longhandAll, List.map_cons, ih]

theorem checkAll_longhand {exprs : List Expr}
    (same : ∀ expr ∈ exprs, (expr.longhand parameter element).shape parameter element =
      expr.shape parameter element) :
    checkAll parameter element (longhandAll parameter element exprs) =
      checkAll parameter element exprs := by
  induction exprs with
  | nil => rfl
  | cons expr rest ih =>
      obtain ⟨first, others⟩ := List.forall_mem_cons.1 same
      simp only [longhandAll, checkAll, first, ih others]

/-- An expression that is written out has the same shape, or fails to have one for the same
reason. -/
theorem shape_longhand (expr : Expr) :
    (expr.longhand parameter element).shape parameter element = expr.shape parameter element := by
  induction expr using Expr.induct with
  | literal | reference => rfl
  | field object name ih => simp only [longhand, Expr.shape, ih]
  | unary op operand ih => simp only [longhand, Expr.shape, ih]
  | binary op left right leftIH rightIH => simp only [longhand, Expr.shape, leftIH, rightIH]
  | conditional condition thenBranch elseBranch conditionIH thenIH elseIH =>
      simp only [longhand, Expr.shape, conditionIH, thenIH, elseIH]
  | method object name arguments objectIH argumentsIH =>
      rw [longhand]
      split
      · rename_i answers
        obtain ⟨rfl, schema, field, inferred, declared⟩ := answersField_iff.1 answers
        simp [Expr.shape, objectIH, inferred, Shape.field, Shape.callMethod, checkAll, declared,
          bind, Except.bind]
      · have length : (longhandAll parameter element arguments).length = arguments.length := by
          rw [longhandAll_eq, List.length_map]
        simp only [Expr.shape, objectIH, checkAll_longhand argumentsIH, length]
  | call function arguments ih => simp only [longhand, Expr.shape, checkAll_longhand ih]

theorem answersField_longhand (object : Expr) (name : String) (arguments : List Expr) :
    answersField parameter element (object.longhand parameter element) name
        (longhandAll parameter element arguments) =
      answersField parameter element object name arguments := by
  rw [Bool.eq_iff_iff]
  simp only [answersField_iff, shape_longhand, longhandAll_eq, List.map_eq_nil_iff]

theorem longhand_longhand (expr : Expr) :
    (expr.longhand parameter element).longhand parameter element =
      expr.longhand parameter element := by
  have all {exprs : List Expr} (same : ∀ expr ∈ exprs,
      (expr.longhand parameter element).longhand parameter element =
        expr.longhand parameter element) :
      longhandAll parameter element (longhandAll parameter element exprs) =
        longhandAll parameter element exprs := by
    simpa [longhandAll_eq] using same
  induction expr using Expr.induct with
  | literal | reference => rfl
  | field object name ih => simp only [longhand, ih]
  | unary op operand ih => simp only [longhand, ih]
  | binary op left right leftIH rightIH => simp only [longhand, leftIH, rightIH]
  | conditional condition thenBranch elseBranch conditionIH thenIH elseIH =>
      simp only [longhand, conditionIH, thenIH, elseIH]
  | method object name arguments objectIH argumentsIH =>
      rw [longhand]
      split
      · simp only [longhand, objectIH]
      · rename_i library
        rw [longhand, answersField_longhand, if_neg library, objectIH, all argumentsIH]
  | call function arguments ih => simp only [longhand, all ih]

theorem evalAll_longhand {exprs : List Expr}
    (same : ∀ expr ∈ exprs, (expr.longhand parameter element).eval cap parameter value =
      expr.eval cap parameter value) :
    evalAll cap parameter value (longhandAll parameter element exprs) =
      evalAll cap parameter value exprs := by
  induction exprs with
  | nil => rfl
  | cons expr rest ih =>
      obtain ⟨first, others⟩ := List.forall_mem_cons.1 same
      simp only [longhandAll, evalAll, first, ih others]

/-- A record answers a call without arguments as it answers with its field. -/
theorem callMethod_eq_field {schema : Schema} (isRecord : value.IsRecordOf schema) {name : String}
    {field : Field} (declared : schema.field? name = some field) :
    value.callMethod name [] = value.field name := by
  obtain ⟨r, rfl, rfl, conforms⟩ := isRecord
  obtain ⟨found, same, _⟩ := Record.get?_of_field? conforms declared
  simp only [Value.callMethod, Value.field, same]

theorem eval_longhand (covers : element.Covers value) (expr : Expr) :
    (expr.longhand parameter element).eval cap parameter value = expr.eval cap parameter value := by
  induction expr using Expr.induct with
  | literal | reference => rfl
  | field object name ih => simp only [longhand, eval, ih]
  | unary op operand ih => simp only [longhand, eval, ih]
  | binary op left right leftIH rightIH =>
      cases op with
      | arithmetic op | relation op | connective op => simp only [longhand, eval, leftIH, rightIH]
  | conditional condition thenBranch elseBranch conditionIH thenIH elseIH =>
      simp only [longhand, eval, conditionIH, thenIH, elseIH]
  | method object name arguments objectIH argumentsIH =>
      rw [longhand]
      split
      · rename_i answers
        obtain ⟨rfl, schema, field, inferred, declared⟩ := answersField_iff.1 answers
        simp only [eval, evalAll, objectIH]
        cases evaluated : object.eval cap parameter value with
        | error error => rfl
        | ok found =>
            have isRecord : found.IsRecordOf schema := object.eval_covers covers inferred evaluated
            exact (callMethod_eq_field isRecord declared).symm
      · simp only [eval, objectIH, evalAll_longhand argumentsIH]
  | call function arguments ih => simp only [longhand, eval, evalAll_longhand ih]

end Expr

/-! ## Selectors and stages -/

namespace Lambda

theorem body_longhand {lambda : Lambda} {function : String} :
    (∃ arguments, (lambda.longhand element).body = .call function arguments) ↔
      ∃ arguments, lambda.body = .call function arguments := by
  simp only [Lambda.longhand]
  cases lambda.body with
  | method object name arguments =>
      simp only [Expr.longhand]
      split <;> simp
  | literal | reference | field | unary | binary | conditional | call => simp [Expr.longhand]

theorem expand_longhand (covers : element.Covers value) (lambda : Lambda) :
    (lambda.longhand element).expand cap value = lambda.expand cap value := by
  refine expand_congr (Expr.eval_longhand covers lambda.body) ?_ body_longhand.1
  intro arguments body
  exact ⟨_, by simp only [longhand, body, Expr.longhand], Expr.evalAll_longhand fun argument _ =>
    Expr.eval_longhand covers argument⟩

end Lambda

theorem Selector.select_longhand (covers : element.Covers value) (selector : Selector) :
    (selector.longhand parameter element).select cap value = selector.select cap value := by
  cases selector with
  | identity => rfl
  | field name =>
      simp only [longhand, Lambda.reading, select, Lambda.eval, Expr.eval, if_pos]
      rfl
  | lambda function => exact Expr.eval_longhand covers function.body

theorem Selector.shape_longhand (selector : Selector) :
    (selector.longhand parameter element).shape element = selector.shape element := by
  cases selector with
  | identity => rfl
  | field name =>
      simp only [longhand, Lambda.reading, Selector.shape, Lambda.shape, Expr.shape, if_pos]
      rfl
  | lambda function => exact Expr.shape_longhand function.body

theorem checkKeys_longhand (keys : List SortKey) :
    checkKeys element (keys.map (·.longhand parameter element)) = checkKeys element keys := by
  induction keys with
  | nil => rfl
  | cons key rest ih =>
      simp only [List.map_cons, checkKeys, ih]
      simp only [SortKey.longhand, Selector.shape_longhand]

theorem Stage.shape_longhand (stage : Stage) :
    (stage.longhand parameter element).shape element = stage.shape element := by
  cases stage with
  | filter | map | sum | groupBy => simp only [longhand, Stage.shape, Selector.shape_longhand]
  | flatMap lambda =>
      have expanded : (lambda.longhand element).expandedShape = lambda.expandedShape :=
        Lambda.expandedShape_congr Lambda.body_longhand
      simp only [longhand, Stage.shape, expanded]
      simp only [Lambda.shape, Lambda.longhand, Expr.shape_longhand]
  | sorted comparator =>
      cases comparator with
      | none => rfl
      | some comparator =>
          simp only [longhand, Option.map_some, Stage.shape, Comparator.longhand,
            checkKeys_longhand]
  | max | min => simp only [longhand, Stage.shape, Comparator.longhand, checkKeys_longhand]
  | collect aggregator =>
      cases aggregator with
      | summing selector =>
          simp only [longhand, Aggregator.longhand, Stage.shape, Selector.shape_longhand]
      | toList | toSet | counting | joining => rfl
  | distinct | limit | skip => rfl

theorem Selector.longhand_longhand (selector : Selector) :
    (selector.longhand parameter element).longhand parameter element =
      selector.longhand parameter element := by
  cases selector with
  | identity | field => rfl
  | lambda function => simp only [longhand, Lambda.longhand, Expr.longhand_longhand]

theorem Comparator.longhand_longhand (comparator : Comparator) :
    (comparator.longhand parameter element).longhand parameter element =
      comparator.longhand parameter element := by
  simp [Comparator.longhand, SortKey.longhand, Selector.longhand_longhand]

theorem Stage.longhand_longhand (stage : Stage) :
    (stage.longhand parameter element).longhand parameter element =
      stage.longhand parameter element := by
  cases stage with
  | filter | map | sum | groupBy => simp only [longhand, Selector.longhand_longhand]
  | flatMap lambda => simp only [longhand, Lambda.longhand, Expr.longhand_longhand]
  | sorted comparator =>
      cases comparator with
      | none => rfl
      | some comparator => simp only [longhand, Option.map_some, Comparator.longhand_longhand]
  | max | min => simp only [longhand, Comparator.longhand_longhand]
  | collect aggregator =>
      cases aggregator with
      | summing selector =>
          simp only [longhand, Aggregator.longhand, Selector.longhand_longhand]
      | toList | toSet | counting | joining => rfl
  | distinct | limit | skip => rfl

section Agrees

variable {good : Value → Prop} (holds : ∀ value, good value → element.Covers value)
include holds

theorem Selector.agrees_longhand (selector : Selector) :
    selector.Agrees cap good (selector.longhand parameter element) :=
  fun value element => selector.select_longhand (holds value element)

theorem SortKey.agrees_longhand (key : SortKey) :
    key.Agrees cap good (key.longhand parameter element) := by
  obtain ⟨selector, direction⟩ := key
  have agrees : selector.Agrees cap good (selector.longhand parameter element) :=
    selector.agrees_longhand holds
  cases selector with
  | identity => exact .refl _
  | field name => exact agrees_of_selector direction agrees nofun nofun
  | lambda function => exact agrees_of_selector direction agrees nofun nofun

theorem Comparator.agrees_longhand (comparator : Comparator) :
    comparator.Agrees cap good (comparator.longhand parameter element) :=
  List.forall₂_map_right_iff.2 (List.forall₂_same.2 fun key _ => key.agrees_longhand holds)

theorem Stage.agrees_longhand (stage : Stage) :
    stage.Agrees cap good (stage.longhand parameter element) := by
  cases stage with
  | filter selector => exact .filter (selector.agrees_longhand holds)
  | map selector => exact .map (selector.agrees_longhand holds)
  | flatMap lambda => exact .flatMap fun value good => lambda.expand_longhand (holds value good)
  | sorted comparator =>
      cases comparator with
      | none => exact .refl _
      | some comparator => exact .sorted (comparator.agrees_longhand holds)
  | max comparator => exact .max (comparator.agrees_longhand holds)
  | min comparator => exact .min (comparator.agrees_longhand holds)
  | sum selector => exact .sum (selector.agrees_longhand holds)
  | groupBy selector => exact .groupBy (selector.agrees_longhand holds)
  | collect aggregator =>
      cases aggregator with
      | summing selector => exact .summing (selector.agrees_longhand holds)
      | toList | toSet | counting | joining => exact .refl _
  | distinct | limit | skip => exact .refl _

end Agrees

/-! ## Chains -/

namespace Chain

theorem shape_longhand (chain : Chain) :
    (chain.longhand parameter element).shape element = chain.shape element := by
  induction chain generalizing element with
  | nil => rfl
  | cons stage rest ih =>
      simp only [longhand, Chain.shape, Stage.shape_longhand]
      cases stage.shape element with
      | error error => rfl
      | ok next => exact ih

/-- Nothing is left to be written out. -/
theorem longhand_longhand (chain : Chain) :
    (chain.longhand parameter element).longhand parameter element =
      chain.longhand parameter element := by
  induction chain generalizing element with
  | nil => rfl
  | cons stage rest ih =>
      simp only [longhand, Stage.longhand_longhand, Stage.shape_longhand]
      cases stage.shape element with
      | error error => rfl
      | ok next => simp only [ih]

/-- What comes to each stage is what the policy inferred when it was written out. -/
theorem outcome_longhand {token : CancelToken} (chain : Chain) {flow : Flow}
    (guarded : flow.Guarded element.Covers fun _ => True) :
    (chain.longhand parameter element).outcome cap token flow = chain.outcome cap token flow := by
  induction chain generalizing element flow with
  | nil => rfl
  | cons stage rest ih =>
      have agrees : stage.Agrees cap element.Covers (stage.longhand parameter element) :=
        stage.agrees_longhand fun _ => id
      rw [longhand, outcome_cons, outcome_cons, agrees.apply guarded]
      cases inferred : stage.shape element with
      | error error => rfl
      | ok next =>
          have sends : stage.Sends cap element.Covers next.Covers fun _ => True :=
            stage.sends_covers (fun _ _ => trivial) inferred (fun _ => id)
              fun _ _ _ _ _ _ => trivial
          exact (guarded.apply (fun _ _ => trivial) sends).bind_eq fun passed covered => ih covered

/-- A chain that is accepted for an element type is accepted with its shorthands written out, all
of them, and over elements of that type both come to the same end, in success and in failure. -/
theorem run_longhand {chain : Chain} {elementType : ElementType}
    (accepted : chain.check elementType = .ok ()) (parameter : String) :
    let written := chain.longhand parameter (.ofElementType elementType)
    written.check elementType = .ok () ∧
      written.longhand parameter (.ofElementType elementType) = written ∧
      ∀ (cap : Nat) (token : CancelToken) (input : List Value),
        (∀ value ∈ input, elementType.Contains value) →
        written.run cap token input = chain.run cap token input := by
  intro written
  refine ⟨?_, chain.longhand_longhand, ?_⟩
  · rw [Chain.check, chain.shape_longhand]
    exact accepted
  · intro cap token input contained
    rw [run_eq_outcome, run_eq_outcome]
    exact chain.outcome_longhand (guarded_input contained)

/-- The oldest predators of the safari by name, with the shorthands and without. -/
theorem run_longhand_predators :
    let animals : ElementType := .record Safari.animalSchema
    let chain : Chain := [.filter (.field "predator"),
      .sorted (some ⟨[⟨.lambda ⟨"a", .method (.reference "a") "age" []⟩, .descending⟩,
        ⟨.identity, .ascending⟩]⟩), .map (.field "name")]
    let written : Chain := [.filter (.lambda (.reading "x" "predator")),
      .sorted (some ⟨[⟨.lambda (.reading "a" "age"), .descending⟩, ⟨.identity, .ascending⟩]⟩),
      .map (.lambda (.reading "x" "name"))]
    let input : List Value := [.record Safari.henno, .record Safari.zembet, .record Safari.leo]
    chain.longhand "x" (.ofElementType animals) = written ∧ chain.check animals = .ok () ∧
      written.check animals = .ok () ∧ (∀ value ∈ input, animals.Contains value) ∧
      written.run 100 .never input =
        .ok (.list [.text "Leo the Lion", .text "Henno the Hyena"]) := by
  intro animals chain written input
  have accepted : chain.check animals = .ok () := by rfl
  have same : chain.longhand "x" (.ofElementType animals) = written := by rfl
  have ran : chain.run 100 .never input =
      .ok (.list [.text "Leo the Lion", .text "Henno the Hyena"]) := by rfl
  have contained : ∀ value ∈ input, animals.Contains value := by
    intro value member
    simp only [input, List.mem_cons, List.not_mem_nil, or_false] at member
    rcases member with rfl | rfl | rfl
    all_goals exact ⟨rfl, fun r same => by cases same; rfl⟩
  have equal := run_longhand accepted "x"
  rw [same] at equal
  exact ⟨same, accepted, equal.1, contained, (equal.2.2 100 .never input contained).trans ran⟩

end Chain

end Pipeline
