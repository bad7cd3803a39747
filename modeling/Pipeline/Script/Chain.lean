import Pipeline.Script.Expr

/-!
# Chains of stages

A script is a chain of stages, each working on what the one before it puts out.
-/

set_option autoImplicit false

namespace Pipeline

inductive Direction where
  | ascending
  | descending
deriving DecidableEq

def Direction.reversed : Direction → Direction
  | ascending => descending
  | descending => ascending

structure SortKey where
  selector : Selector
  direction : Direction

/-- An order of elements: later keys decide where earlier ones tie. -/
structure Comparator where
  keys : List SortKey

def Comparator.natural : Comparator where
  keys := [⟨.identity, .ascending⟩]

inductive Aggregator where
  | toList
  /-- The distinct elements in natural order. -/
  | toSet
  | counting
  | joining (separator : String)
  | summing (selector : Selector)

inductive Stage where
  | filter (selector : Selector)
  | map (selector : Selector)
  | flatMap (function : Lambda)
  /-- Without a comparator, in natural order. -/
  | sorted (comparator : Option Comparator)
  | distinct
  | max (comparator : Comparator)
  | min (comparator : Comparator)
  | sum (selector : Selector)
  /-- All later stages work on each group. -/
  | groupBy (selector : Selector)
  | collect (aggregator : Aggregator)
  | limit (count : Nat)
  | skip (count : Nat)

abbrev Chain := List Stage

def Stage.name : Stage → String
  | filter _ => "filter"
  | map _ => "map"
  | flatMap _ => "flatMap"
  | sorted _ => "sorted"
  | distinct => "distinct"
  | max _ => "max"
  | min _ => "min"
  | sum _ => "sum"
  | groupBy _ => "groupBy"
  | collect _ => "collect"
  | limit _ => "limit"
  | skip _ => "skip"

/-- The names of the stages, each after a dot. -/
def Chain.describe (chain : Chain) : String :=
  String.join (chain.map fun stage => "." ++ stage.name)

end Pipeline
