import Pipeline.Script.Cursor
import Pipeline.Script.Expr

/-!
# Parsing expressions

Precedence from loose to tight: the conditional, `or`, `and`, `not`, one comparison,
sums, products, the minus sign, suffixes. Every operator, suffix and bracket of a path
through an expression takes one unit of a nesting budget, and the parsers are built up
from the empty budget: those with one unit more call those with one unit less wherever
the expression goes deeper.
-/

set_option autoImplicit false

namespace Pipeline

/-- The parsers that an expression calls wherever it goes one level deeper. Those that
take an expression continue it. -/
structure ExprParsers where
  expression : Parse Expr
  negation : Parse Expr
  unary : Parse Expr
  orLinks : Expr → Parse Expr
  andLinks : Expr → Parse Expr
  sumLinks : Expr → Parse Expr
  productLinks : Expr → Parse Expr
  suffixes : Expr → Parse Expr

namespace ExprParsers

/-- The parsers of the empty budget, which allow no deeper level. -/
def tooDeep : ExprParsers where
  expression := throw .tooDeep
  negation := throw .tooDeep
  unary := throw .tooDeep
  orLinks _ := throw .tooDeep
  andLinks _ := throw .tooDeep
  sumLinks _ := throw .tooDeep
  productLinks _ := throw .tooDeep
  suffixes _ := throw .tooDeep

/-- The integer expression with the given sign and digits. -/
def integer (negative : Bool) (digits : String) : Parse Expr := do
  let size : Int := digitsValue 0 digits.toList
  match boundedInteger? (if negative then -size else size) with
  | some n => do
    Parse.advance
    return .literal (.number (.integer n))
  | none => throw (.integerOutOfRange (if negative then "-" ++ digits else digits))

/-- The arguments of a call up to the closing bracket. A comma follows each argument but
the last, where it is optional. Each argument takes a token at least, so `bound` only has
to exceed the number of tokens left. -/
def argumentList (expression : Parse Expr) : Nat → Parse (List Expr)
  | 0 => return []
  | bound + 1 => do
    if ← Parse.atSymbol .rightParen then return []
    else
      let argument ← expression
      if !(← Parse.atSymbol .rightParen) then Parse.expect .comma
      let rest ← argumentList expression bound
      return argument :: rest

def arguments (inner : ExprParsers) : Parse (List Expr) := do
  Parse.expect .leftParen
  let arguments ← argumentList inner.expression ((← Parse.remaining) + 1)
  Parse.expect .rightParen
  return arguments

/-- A literal, a name, a call, or an expression in brackets. -/
def primary (inner : ExprParsers) : Parse Expr := do
  match ← Parse.current with
  | some (.integer digits) => integer false digits
  | some (.float value) => do
    Parse.advance
    return .literal (.number (.float value))
  | some (.text value) => do
    Parse.advance
    return .literal (.text value)
  | some (.boolean value) => do
    Parse.advance
    return .literal (.boolean value)
  | some (.name name) => do
    Parse.advance
    if ← Parse.atSymbol .leftParen then return .call name (← inner.arguments)
    else return .reference name
  | some (.symbol .leftParen) => do
    Parse.advance
    let expr ← inner.expression
    Parse.expect .rightParen
    return expr
  | _ => Parse.unexpected .expression

/-- The suffixes `.field` and `.method(arguments)` of an expression. -/
def suffixesOf (inner : ExprParsers) (expr : Expr) : Parse Expr := do
  if ← Parse.atSymbol .dot then
    Parse.advance
    let name ← Parse.expectName .member
    if ← Parse.atSymbol .leftParen then
      inner.suffixes (.method expr name (← inner.arguments))
    else inner.suffixes (.field expr name)
  else return expr

def postfixed (inner : ExprParsers) : Parse Expr := do
  inner.suffixesOf (← inner.primary)

/-- An expression after any minus signs. -/
def signed (inner : ExprParsers) : Parse Expr := do
  if ← Parse.atSymbol .minus then
    Parse.advance
    match ← Parse.current with
    -- The sign belongs to the number, so that the least integer can be written.
    | some (.integer digits) => inner.suffixesOf (← integer true digits)
    | some (.float value) => do
      Parse.advance
      inner.suffixesOf (.literal (.number (.float value.neg)))
    | _ => return .unary .negate (← inner.unary)
  else inner.postfixed

/-- Continues an expression by an operator of one level and its right operand, if such an
operator follows. The longer expression is a left operand for what may follow in turn,
so `further` goes on from it one level deeper. -/
def links (operator? : Symbol → Option BinaryOp) (operand : Parse Expr)
    (further : Expr → Parse Expr) (left : Expr) : Parse Expr := do
  match ← Parse.current with
  | some (.symbol symbol) =>
    match operator? symbol with
    | some op => do
      Parse.advance
      let right ← operand
      further (.binary op left right)
    | none => return left
  | _ => return left

def productOp? : Symbol → Option BinaryOp
  | .star => some (.arithmetic .multiply)
  | .slash => some (.arithmetic .divide)
  | .percent => some (.arithmetic .modulo)
  | _ => none

def sumOp? : Symbol → Option BinaryOp
  | .plus => some (.arithmetic .add)
  | .minus => some (.arithmetic .subtract)
  | _ => none

def relation? : Symbol → Option BinaryOp
  | .equal => some (.relation .equal)
  | .notEqual => some (.relation .notEqual)
  | .less => some (.relation .less)
  | .greater => some (.relation .greater)
  | .lessEqual => some (.relation .lessEqual)
  | .greaterEqual => some (.relation .greaterEqual)
  | _ => none

def andOp? : Symbol → Option BinaryOp
  | .and => some (.connective .and)
  | _ => none

def orOp? : Symbol → Option BinaryOp
  | .or => some (.connective .or)
  | _ => none

def productLinksOf (inner : ExprParsers) : Expr → Parse Expr :=
  links productOp? inner.signed inner.productLinks

def product (inner : ExprParsers) : Parse Expr := do
  inner.productLinksOf (← inner.signed)

def sumLinksOf (inner : ExprParsers) : Expr → Parse Expr :=
  links sumOp? inner.product inner.sumLinks

def sum (inner : ExprParsers) : Parse Expr := do
  inner.sumLinksOf (← inner.product)

/-- At most one comparison of sums: comparisons do not chain. -/
def comparison (inner : ExprParsers) : Parse Expr := do
  links relation? inner.sum pure (← inner.sum)

/-- A comparison after any `not`. -/
def negated (inner : ExprParsers) : Parse Expr := do
  if ← Parse.atSymbol .not then
    Parse.advance
    return .unary .not (← inner.negation)
  else inner.comparison

def andLinksOf (inner : ExprParsers) : Expr → Parse Expr :=
  links andOp? inner.negated inner.andLinks

def conjunction (inner : ExprParsers) : Parse Expr := do
  inner.andLinksOf (← inner.negated)

def orLinksOf (inner : ExprParsers) : Expr → Parse Expr :=
  links orOp? inner.conjunction inner.orLinks

def disjunction (inner : ExprParsers) : Parse Expr := do
  inner.orLinksOf (← inner.conjunction)

/-- A disjunction, or a conditional whose condition it is. -/
def conditional (inner : ExprParsers) : Parse Expr := do
  let condition ← inner.disjunction
  if ← Parse.atSymbol .question then
    Parse.advance
    let thenBranch ← inner.expression
    Parse.expect .colon
    let elseBranch ← inner.expression
    return .conditional condition thenBranch elseBranch
  else return condition

/-- The parsers with one unit of budget more than the given ones. -/
def deeper (inner : ExprParsers) : ExprParsers where
  expression := inner.conditional
  negation := inner.negated
  unary := inner.signed
  orLinks := inner.orLinksOf
  andLinks := inner.andLinksOf
  sumLinks := inner.sumLinksOf
  productLinks := inner.productLinksOf
  suffixes := inner.suffixesOf

def ofBudget : Nat → ExprParsers
  | 0 => tooDeep
  | budget + 1 => (ofBudget budget).deeper

end ExprParsers

namespace Parse

def expression : Parse Expr :=
  (ExprParsers.ofBudget nestingLimit).expression

def lambda : Parse Lambda := do
  let parameter ← expectName .lambdaParameter
  expect .arrow
  let body ← expression
  return ⟨parameter, body⟩

/-- An expression that makes up the rest of the script. -/
def wholeExpression : Parse Expr := do
  let expr ← expression
  expectEnd
  return expr

end Parse

/-- The expression that a text denotes. -/
def Expr.parse (text : String) : Except ParseError Expr := do
  let cursor ← Cursor.ofScript text
  let (expr, _) ← Parse.wholeExpression.run cursor
  return expr

/-- The lambda at the front of a text; what follows it is not looked at, apart from the
two tokens in view. -/
def Lambda.parse (text : String) : Except ParseError Lambda := do
  let cursor ← Cursor.ofScript text
  let (lambda, _) ← Parse.lambda.run cursor
  return lambda

end Pipeline
