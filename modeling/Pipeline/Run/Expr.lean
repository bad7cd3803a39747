import Pipeline.Run.Arithmetic
import Pipeline.Script.Chain
import Pipeline.Script.Library
import Pipeline.Text.Blank
import Pipeline.Text.Casing

/-!
# Evaluating expressions

An expression is evaluated for one element, bound to the name of the lambda parameter.
The only other thing it depends on is the cap on the length of the lists it builds.
-/

set_option autoImplicit false

namespace Pipeline

namespace Text

/-- Whether one text occurs in another. -/
def occursIn (part : List Char) : List Char → Bool
  | [] => part.isEmpty
  | c :: rest => part.isPrefixOf (c :: rest) || occursIn part rest

end Text

def Value.field (value : Value) (name : String) : Except RunError Value :=
  match value with
  | .record r =>
    match r.get? name with
    | some found => .ok (.scalar found)
    | none => .error (.type (.noField r.schema.name name))
  | other => .error (.type (.fieldOf name other.kind))

/-- The integers from one bound up to but without another. -/
def integersBetween (lower upper : Int64) : List Value :=
  (List.range (upper.toInt - lower.toInt).toNat).map fun (step : Nat) =>
    .integer (Int64.ofInt (lower.toInt + step))

/-- The list of the integers between two bounds, if it is not longer than the cap. -/
def Value.range (cap : Nat) (lower upper : Int64) : Except RunError Value :=
  if (upper.toInt - lower.toInt).toNat > cap then .error (.tooManyElements cap)
  else .ok (.list (integersBetween lower upper))

/-- The bounds that the arguments of `range` are. -/
def rangeBounds : List Value → Except RunError (Int64 × Int64)
  | [.integer lower, .integer upper] => .ok (lower, upper)
  | _ => .error (.type .rangeBounds)

def Function.apply (function : Function) (arguments : List Value) : Except RunError Value :=
  match function, arguments with
  | abs, [.number n] => n.absolute
  | min, [.number a, .number b] => .ok (.number (if a.order b = .gt then b else a))
  | max, [.number a, .number b] => .ok (.number (if a.order b = .lt then b else a))
  | _, _ => .error (.type (.function function.name (arguments.map Value.kind)))

namespace Method

/-- The result of a method where it can be applied. -/
def result? (method : Method) (object : Value) (arguments : List Value) :
    Option (Except RunError Value) :=
  match method, object, arguments with
  | upper, .text s, [] => some (.ok (.text (String.ofList (Text.upper s.toList))))
  | lower, .text s, [] => some (.ok (.text (String.ofList (Text.lower s.toList))))
  | trim, .text s, [] => some (.ok (.text (String.ofList (Text.trim s.toList))))
  | length, .text s, [] => some (.ok (.integer (Int64.ofNat s.toList.length)))
  | length, .list items, [] => some (.ok (.integer (Int64.ofNat items.length)))
  | contains, .text s, [.text part] =>
    some (.ok (.boolean (Text.occursIn part.toList s.toList)))
  | contains, .list items, [value] => some (.ok (.boolean (items.any (·.same value))))
  | startsWith, .text s, [.text part] =>
    some (.ok (.boolean (part.toList.isPrefixOf s.toList)))
  | endsWith, .text s, [.text part] =>
    some (.ok (.boolean (part.toList.reverse.isPrefixOf s.toList.reverse)))
  | abs, value, [] => some (Function.abs.apply [value])
  | _, _, _ => none

end Method

/-- The result of a method call by name. A record answers to the names of its fields when
there are no arguments. -/
def Value.callMethod (object : Value) (name : String) (arguments : List Value) :
    Except RunError Value :=
  let accessed : Option Scalar := match object, arguments with
    | .record r, [] => r.get? name
    | _, _ => none
  match accessed with
  | some found => .ok (.scalar found)
  | none =>
    match Method.ofName? name with
    | none => .error (.type (.unknownMethod name))
    | some method =>
      match method.result? object arguments with
      | some result => result
      | none => .error (.type (.method name object.kind arguments.length))

def callFunction (cap : Nat) (name : String) (arguments : List Value) : Except RunError Value :=
  match Function.ofName? name with
  | none => .error (.type (.unknownFunction name))
  | some .range => do
    let (lower, upper) ← rangeBounds arguments
    Value.range cap lower upper
  | some function => function.apply arguments

def Connective.operand (op : Connective) (value : Value) : Except RunError Bool :=
  match value.boolean? with
  | some b => .ok b
  | none => .error (.type (.connective op value.kind))

/-- Whether the left operand alone decides a connective. -/
def Connective.decidedBy (op : Connective) (left : Bool) : Bool :=
  match op with
  | and => !left
  | or => left

def UnaryOp.apply (op : UnaryOp) (value : Value) : Except RunError Value :=
  match op with
  | negate => value.negated
  | not =>
    match value.boolean? with
    | some b => .ok (.boolean !b)
    | none => .error (.type (.logicalNot value.kind))

namespace Expr

mutual

/-- The value of an expression for an element. A connective decided by its left operand
and the branch of a conditional that is not chosen are not evaluated. -/
def eval (cap : Nat) (parameter : String) (element : Value) : Expr → Except RunError Value
  | literal value => .ok (.scalar value)
  | reference name =>
    if name = parameter then .ok element else .error (.type (.unknownReference name))
  | field object name => do
    let object ← eval cap parameter element object
    object.field name
  | unary op operand => do
    let value ← eval cap parameter element operand
    op.apply value
  | binary (.connective op) left right => do
    let left ← eval cap parameter element left
    let left ← op.operand left
    if op.decidedBy left then .ok (.boolean left)
    else
      let right ← eval cap parameter element right
      let right ← op.operand right
      .ok (.boolean right)
  | binary (.relation op) left right => do
    let left ← eval cap parameter element left
    let right ← eval cap parameter element right
    (op.apply left right).map .boolean
  | binary (.arithmetic op) left right => do
    let left ← eval cap parameter element left
    let right ← eval cap parameter element right
    op.apply left right
  | conditional condition thenBranch elseBranch => do
    let value ← eval cap parameter element condition
    match value.boolean? with
    | some true => eval cap parameter element thenBranch
    | some false => eval cap parameter element elseBranch
    | none => .error (.type (.condition value.kind))
  | method object name arguments => do
    let object ← eval cap parameter element object
    let arguments ← evalAll cap parameter element arguments
    object.callMethod name arguments
  | call function arguments => do
    let arguments ← evalAll cap parameter element arguments
    callFunction cap function arguments
termination_by structural expr => expr

def evalAll (cap : Nat) (parameter : String) (element : Value) :
    List Expr → Except RunError (List Value)
  | [] => .ok []
  | expr :: rest => do
    let value ← eval cap parameter element expr
    let values ← evalAll cap parameter element rest
    .ok (value :: values)
termination_by structural exprs => exprs

end

end Expr

def Lambda.eval (cap : Nat) (lambda : Lambda) (element : Value) : Except RunError Value :=
  lambda.body.eval cap lambda.parameter element

def Selector.select (cap : Nat) (selector : Selector) (element : Value) :
    Except RunError Value :=
  match selector with
  | identity => .ok element
  | field name => element.field name
  | lambda function => function.eval cap element

end Pipeline
