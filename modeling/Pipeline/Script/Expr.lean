import Pipeline.Schema

/-!
# Expressions

What scripts compute for one element. An expression sees that element alone, by the
name of the lambda parameter, and cannot build records.
-/

set_option autoImplicit false

namespace Pipeline

/-- Operators between numbers. Addition also joins texts. -/
inductive Arithmetic where
  | add
  | subtract
  | multiply
  | divide
  | modulo
deriving DecidableEq

/-- Operators that compare. -/
inductive Relation where
  | equal
  | notEqual
  | less
  | greater
  | lessEqual
  | greaterEqual
deriving DecidableEq

/-- Operators between booleans. -/
inductive Connective where
  | and
  | or
deriving DecidableEq

inductive BinaryOp where
  | arithmetic (op : Arithmetic)
  | relation (op : Relation)
  | connective (op : Connective)
deriving DecidableEq

inductive UnaryOp where
  | negate
  | not
deriving DecidableEq

def Arithmetic.sign : Arithmetic → String
  | add => "+"
  | subtract => "-"
  | multiply => "*"
  | divide => "/"
  | modulo => "%"

def Relation.sign : Relation → String
  | equal => "=="
  | notEqual => "!="
  | less => "<"
  | greater => ">"
  | lessEqual => "<="
  | greaterEqual => ">="

def Connective.sign : Connective → String
  | and => "and"
  | or => "or"

def BinaryOp.sign : BinaryOp → String
  | arithmetic op => op.sign
  | relation op => op.sign
  | connective op => op.sign

def UnaryOp.sign : UnaryOp → String
  | negate => "-"
  | not => "not"

/-- An expression over one element. -/
inductive Expr where
  | literal (value : Scalar)
  | reference (name : String)
  | field (object : Expr) (name : String)
  | unary (op : UnaryOp) (operand : Expr)
  | binary (op : BinaryOp) (left right : Expr)
  /-- Only the chosen branch is evaluated. -/
  | conditional (condition thenBranch elseBranch : Expr)
  | method (object : Expr) (name : String) (arguments : List Expr)
  | call (function : String) (arguments : List Expr)

/-- An expression with the name of the element in it. -/
structure Lambda where
  parameter : String
  body : Expr

/-- What is taken from an element. -/
inductive Selector where
  /-- The element itself. -/
  | identity
  | field (name : String)
  | lambda (function : Lambda)

end Pipeline
