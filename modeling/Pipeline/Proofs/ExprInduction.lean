import Pipeline.Script.Chain

/-! Induction over expressions, whose arguments are lists of expressions, the expressions that stand
inside another one, and the selectors of a stage with the literals in them. -/

set_option autoImplicit false

namespace Pipeline

@[elab_as_elim]
theorem Expr.induct {motive : Expr → Prop}
    (literal : ∀ value, motive (.literal value))
    (reference : ∀ name, motive (.reference name))
    (field : ∀ object name, motive object → motive (.field object name))
    (unary : ∀ op operand, motive operand → motive (.unary op operand))
    (binary : ∀ op left right, motive left → motive right → motive (.binary op left right))
    (conditional : ∀ condition thenBranch elseBranch, motive condition → motive thenBranch →
      motive elseBranch → motive (.conditional condition thenBranch elseBranch))
    (method : ∀ object name arguments, motive object →
      (∀ argument ∈ arguments, motive argument) → motive (.method object name arguments))
    (call : ∀ function arguments, (∀ argument ∈ arguments, motive argument) →
      motive (.call function arguments)) (expr : Expr) : motive expr :=
  @Expr.rec motive (∀ argument ∈ ·, motive argument)
    literal reference field unary binary conditional method call
    (List.forall_mem_nil _) (fun _ _ first rest => List.forall_mem_cons.2 ⟨first, rest⟩) expr

/-- An expression stands inside another one, or is it. -/
inductive Expr.Within (inner : Expr) : Expr → Prop where
  | self : Within inner inner
  | field {object : Expr} {name : String} :
      Within inner object → Within inner (.field object name)
  | unary {op : UnaryOp} {operand : Expr} :
      Within inner operand → Within inner (.unary op operand)
  | left {op : BinaryOp} {left right : Expr} :
      Within inner left → Within inner (.binary op left right)
  | right {op : BinaryOp} {left right : Expr} :
      Within inner right → Within inner (.binary op left right)
  | condition {condition thenBranch elseBranch : Expr} :
      Within inner condition → Within inner (.conditional condition thenBranch elseBranch)
  | thenBranch {condition thenBranch elseBranch : Expr} :
      Within inner thenBranch → Within inner (.conditional condition thenBranch elseBranch)
  | elseBranch {condition thenBranch elseBranch : Expr} :
      Within inner elseBranch → Within inner (.conditional condition thenBranch elseBranch)
  | object {object : Expr} {name : String} {arguments : List Expr} :
      Within inner object → Within inner (.method object name arguments)
  | methodArgument {object : Expr} {name : String} {arguments : List Expr} {argument : Expr} :
      argument ∈ arguments → Within inner argument →
      Within inner (.method object name arguments)
  | callArgument {function : String} {arguments : List Expr} {argument : Expr} :
      argument ∈ arguments → Within inner argument → Within inner (.call function arguments)

/-- All literals in an expression are `good`. -/
inductive Expr.Literals (good : Scalar → Prop) : Expr → Prop where
  | literal {value : Scalar} : good value → Literals good (.literal value)
  | reference {name : String} : Literals good (.reference name)
  | field {object : Expr} {name : String} :
      Literals good object → Literals good (.field object name)
  | unary {op : UnaryOp} {operand : Expr} :
      Literals good operand → Literals good (.unary op operand)
  | binary {op : BinaryOp} {left right : Expr} :
      Literals good left → Literals good right → Literals good (.binary op left right)
  | conditional {condition thenBranch elseBranch : Expr} :
      Literals good condition → Literals good thenBranch → Literals good elseBranch →
      Literals good (.conditional condition thenBranch elseBranch)
  | method {object : Expr} {name : String} {arguments : List Expr} :
      Literals good object → (∀ argument ∈ arguments, Literals good argument) →
      Literals good (.method object name arguments)
  | call {function : String} {arguments : List Expr} :
      (∀ argument ∈ arguments, Literals good argument) →
      Literals good (.call function arguments)

theorem Expr.literals_of_forall {good : Scalar → Prop} (all : ∀ value, good value) (expr : Expr) :
    expr.Literals good := by
  induction expr using Expr.induct with
  | literal value => exact .literal (all value)
  | reference name => exact .reference
  | field object name ih => exact .field ih
  | unary op operand ih => exact .unary ih
  | binary op left right leftIH rightIH => exact .binary leftIH rightIH
  | conditional _ _ _ conditionIH thenIH elseIH => exact .conditional conditionIH thenIH elseIH
  | method object name arguments objectIH argumentsIH => exact .method objectIH argumentsIH
  | call function arguments ih => exact .call ih

/-- All literals in the body of a lambda are `good`. -/
def Selector.Literals (good : Scalar → Prop) : Selector → Prop
  | lambda function => function.body.Literals good
  | identity | field _ => True

theorem Selector.literals_of_forall {good : Scalar → Prop} (all : ∀ value, good value)
    (selector : Selector) : selector.Literals good := by
  cases selector with
  | lambda function => exact Expr.literals_of_forall all function.body
  | identity | field => trivial

/-- The selectors that a stage applies to its elements. -/
def Stage.selectors : Stage → List Selector
  | .filter selector | .map selector | .sum selector | .groupBy selector => [selector]
  | .flatMap function => [.lambda function]
  | .sorted (some comparator) | .max comparator | .min comparator =>
    comparator.keys.map SortKey.selector
  | .collect (.summing selector) => [selector]
  | _ => []

end Pipeline
