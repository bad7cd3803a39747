import Pipeline.Policy.Error
import Pipeline.Script.Chain
import Pipeline.Script.Library

/-!
# Checking the structure of a script

The second layer of the policy infers the shape of every expression. Only the lambda
parameter may be referred to, only the library may be called, and where a record is
known, only its fields may be read.
-/

set_option autoImplicit false

namespace Pipeline

def Shape.field (shape : Shape) (name : String) : Except PolicyError Shape :=
  match shape with
  | record schema =>
    match schema.field? name with
    | some field => .ok (ofFieldKind field.kind)
    | none => .error (.unknownField schema.name name)
  | unknown => .ok unknown
  | scalar => .error (.fieldOnScalar name scalar)

def Shape.sum : Shape → Shape → Shape
  | text, _ => text
  | _, text => text
  | number, number => number
  | _, _ => unknown

def Method.shape : Method → Shape
  | upper => .text
  | lower => .text
  | trim => .text
  | length => .number
  | contains => .boolean
  | startsWith => .boolean
  | endsWith => .boolean
  | abs => .number

def Function.shape : Function → Shape
  | range => .unknown
  | _ => .number

def BinaryOp.shape (op : BinaryOp) (left right : Shape) : Shape :=
  match op with
  | arithmetic .add => left.sum right
  | arithmetic _ => .number
  | relation _ => .boolean
  | connective _ => .boolean

def UnaryOp.shape : UnaryOp → Shape
  | negate => .number
  | not => .boolean

/-- The shape of a method call by name, if it may be called. A record known to have a field
of that name answers with the field when there are no arguments. -/
def Shape.callMethod (object : Shape) (name : String) (arguments : Nat) :
    Except PolicyError Shape :=
  let accessed : Option Field := match object, arguments with
    | record schema, 0 => schema.field? name
    | _, _ => none
  match accessed with
  | some field => .ok (ofFieldKind field.kind)
  | none =>
    match Method.ofName? name with
    | some method => .ok method.shape
    | none => .error (.unknownMethod name)

namespace Expr

mutual

/-- The shape of an expression for an element of the given shape. -/
def shape (parameter : String) (element : Shape) : Expr → Except PolicyError Shape
  | literal value => .ok (Shape.ofFieldKind value.fieldKind)
  | reference name =>
    if name = parameter then .ok element else .error (.unknownReference name parameter)
  | field object name => do
    let object ← shape parameter element object
    object.field name
  | unary op operand => do
    let _ ← shape parameter element operand
    .ok op.shape
  | binary op left right => do
    let left ← shape parameter element left
    let right ← shape parameter element right
    .ok (op.shape left right)
  | conditional condition thenBranch elseBranch => do
    let _ ← shape parameter element condition
    let thenShape ← shape parameter element thenBranch
    let elseShape ← shape parameter element elseBranch
    .ok (thenShape.join elseShape)
  | method object name arguments => do
    let object ← shape parameter element object
    checkAll parameter element arguments
    object.callMethod name arguments.length
  | call name arguments =>
    match Function.ofName? name with
    | none => .error (.unknownFunction name)
    | some function => do
      checkAll parameter element arguments
      .ok function.shape
termination_by structural expr => expr

def checkAll (parameter : String) (element : Shape) : List Expr → Except PolicyError Unit
  | [] => .ok ()
  | expr :: rest => do
    let _ ← shape parameter element expr
    checkAll parameter element rest
termination_by structural exprs => exprs

end

end Expr

def Lambda.shape (lambda : Lambda) (element : Shape) : Except PolicyError Shape :=
  lambda.body.shape lambda.parameter element

def Selector.shape (selector : Selector) (element : Shape) : Except PolicyError Shape :=
  match selector with
  | identity => .ok element
  | field name => element.field name
  | lambda function => function.shape element

def checkKeys (element : Shape) : List SortKey → Except PolicyError Unit
  | [] => .ok ()
  | key :: rest => do
    let _ ← key.selector.shape element
    checkKeys element rest

/-- The shape of the elements that a lambda expands an element to. -/
def Lambda.expandedShape (lambda : Lambda) : Shape :=
  match lambda.body with
  | .call "range" _ => .number
  | _ => .unknown

def Stage.shape (stage : Stage) (element : Shape) : Except PolicyError Shape :=
  match stage with
  | filter selector => do
    let _ ← selector.shape element
    .ok element
  | map selector => selector.shape element
  | flatMap lambda => do
    let _ ← lambda.shape element
    .ok lambda.expandedShape
  | sorted none => .ok element
  | sorted (some comparator) => do
    checkKeys element comparator.keys
    .ok element
  | distinct => .ok element
  | max comparator => do
    checkKeys element comparator.keys
    .ok element
  | min comparator => do
    checkKeys element comparator.keys
    .ok element
  | sum selector => do
    let _ ← selector.shape element
    .ok .number
  | groupBy selector => do
    let _ ← selector.shape element
    -- Later stages work on the elements of each group.
    .ok element
  -- Nothing is known of lists.
  | collect .toList => .ok .unknown
  | collect .toSet => .ok .unknown
  | collect .counting => .ok .number
  | collect (.joining _) => .ok .text
  | collect (.summing selector) => do
    let _ ← selector.shape element
    .ok .number
  | limit _ => .ok element
  | skip _ => .ok element

def Chain.shape : Chain → Shape → Except PolicyError Shape
  | [], element => .ok element
  | stage :: rest, element => do
    let element ← stage.shape element
    Chain.shape rest element

/-- Refuses a chain that may not run over elements of the given type. -/
def Chain.check (chain : Chain) (elementType : ElementType) : Except PolicyError Unit := do
  let _ ← chain.shape (Shape.ofElementType elementType)
  .ok ()

end Pipeline
