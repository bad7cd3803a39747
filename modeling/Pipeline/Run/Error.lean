import Pipeline.Script.Expr
import Pipeline.Value

/-!
# Failures of a run

The causes for which a chain fails on its input, and their messages.
-/

set_option autoImplicit false

namespace Pipeline

/-- Why a value is of the wrong kind for what is done with it. -/
inductive TypeFault where
  | notSequence (stage : String) (found : Kind)
  | flatMapResult (found : Kind)
  | predicate (found : Kind)
  | noNaturalOrder (record : String)
  | sumOperand (found : Kind)
  | groupKey (found : Kind)
  | joiningPart (found : Kind)
  | unknownReference (name : String)
  | negation (found : Kind)
  | logicalNot (found : Kind)
  | connective (op : Connective) (found : Kind)
  | condition (found : Kind)
  | rangeBounds
  | arithmetic (op : Arithmetic) (left right : Kind)
  | method (name : String) (object : Kind) (arguments : Nat)
  | unknownMethod (name : String)
  | function (name : String) (arguments : List Kind)
  | unknownFunction (name : String)
  | noField (record field : String)
  | fieldOf (field : String) (found : Kind)
  | comparison (left right : Kind)
deriving DecidableEq

/-- An operand of arithmetic, as a number or as the decimal that stands for one. -/
inductive Operand where
  | number (value : Number)
  | decimal (value : Decimal)
deriving DecidableEq

/-- What has no result that fits. -/
inductive Overflow where
  | sum
  | count
  | negation (operand : Int64)
  | absolute (operand : Int64)
  | operation (left : Operand) (op : Arithmetic) (right : Operand)
deriving DecidableEq

/-- The two ends of an order. -/
inductive Extreme where
  | max
  | min
deriving DecidableEq

/-- Why a run fails. -/
inductive RunError where
  | type (fault : TypeFault)
  | overflow (what : Overflow)
  | divisionByZero
  | emptyInput (stage : Extreme)
  | tooManyElements (limit : Nat)
  | cancelled
deriving DecidableEq

def TypeFault.message : TypeFault → String
  | notSequence stage found => stage ++ "() requires a sequence, got " ++ found.name
  | flatMapResult found => "flatMap() lambda must produce a list, got " ++ found.name
  | predicate found => "filter() predicate must be boolean, got " ++ found.name
  | noNaturalOrder record => record ++ " has no natural ordering; pass a comparator"
  | sumOperand found => "sum() requires numbers, got " ++ found.name
  | groupKey found => "groupBy() key must be a number, text or boolean, got " ++ found.name
  | joiningPart found => "joining() requires text, got " ++ found.name
  | unknownReference name => "unknown reference: " ++ name
  | negation found => "Cannot negate " ++ found.name
  | logicalNot found => "'not' requires boolean, got " ++ found.name
  | connective op found => "'" ++ op.sign ++ "' requires boolean operands, got " ++ found.name
  | condition found => "'?' condition must be boolean, got " ++ found.name
  | rangeBounds => "range() requires two integer arguments"
  | arithmetic op left right =>
    "Cannot apply '" ++ op.sign ++ "' to " ++ left.name ++ " and " ++ right.name
  | method name object arguments =>
    "." ++ name ++ "() cannot be applied to " ++ object.name ++ " with " ++
      toString arguments ++ " argument(s)"
  | unknownMethod name => "Unknown method: " ++ name
  | function name arguments =>
    name ++ "() cannot be applied to (" ++ ", ".intercalate (arguments.map Kind.name) ++ ")"
  | unknownFunction name => "Unknown function: " ++ name
  | noField record field => record ++ " has no field '" ++ field ++ "'"
  | fieldOf field found => "Cannot access field '" ++ field ++ "' on " ++ found.name
  | comparison left right => "Cannot compare " ++ left.name ++ " with " ++ right.name

def Operand.text : Operand → String
  | number n => n.text
  | decimal d => d.text

def Overflow.text : Overflow → String
  | sum => "sum"
  | count => "count"
  | negation n => "-(" ++ toString n.toInt ++ ")"
  | absolute n => "abs(" ++ toString n.toInt ++ ")"
  | operation left op right => left.text ++ " " ++ op.sign ++ " " ++ right.text

def Extreme.name : Extreme → String
  | max => "max"
  | min => "min"

def RunError.message : RunError → String
  | type fault => "Type error: " ++ fault.message
  | overflow what => "numeric overflow in " ++ what.text
  | divisionByZero => "Division by zero"
  | emptyInput stage => "empty input to " ++ stage.name
  | tooManyElements limit => "sequence exceeds the limit of " ++ toString limit ++ " elements"
  | cancelled => "execution cancelled"

end Pipeline
