import Pipeline.Run.Distinct
import Pipeline.Run.Ordering
import Pipeline.Run.Sequence

/-!
# Running chains

A chain runs stage by stage over a flow: a lazy sequence, the single value to which a
stage reduced it, or the groups into which it was divided, on each of which all later
stages work. Stages that need all elements at once take them in where they stand; what
is still a sequence at the end becomes a list.
-/

set_option autoImplicit false

namespace Pipeline

/-- What flows between stages. -/
inductive Flow where
  | sequence (elements : Sequence)
  | single (value : Value)
  | groups (parts : List (Key × Flow))

def Selector.test (cap : Nat) (selector : Selector) (element : Value) : Except RunError Bool := do
  let value ← selector.select cap element
  match value.boolean? with
  | some b => .ok b
  | none => .error (.type (.predicate value.kind))

/-- The sequence that a lambda expands an element to. A body that is a call of `range` is
not evaluated to a list, so its bounds may be any distance apart. -/
def Lambda.expand (cap : Nat) (lambda : Lambda) (element : Value) : Except RunError Sequence := do
  match lambda.body with
  | .call "range" arguments => do
    let values ← Expr.evalAll cap lambda.parameter element arguments
    let (lower, upper) ← rangeBounds values
    .ok (Sequence.consecutive lower.toInt (upper.toInt - lower.toInt).toNat)
  | _ => do
    let value ← lambda.eval cap element
    match value with
    | .list items => .ok (Sequence.ofList items)
    | other => .error (.type (.flatMapResult other.kind))

/-- Adds what a selector takes from an element to a sum. An overflow is one of the whole
sum. -/
def Selector.addTo (cap : Nat) (selector : Selector) (total element : Value) :
    Except RunError Value := do
  let value ← selector.select cap element
  if value.isNumber then
    match Arithmetic.add.apply total value with
    | .ok total => .ok total
    | .error (.overflow _) => .error (.overflow .sum)
    | .error error => .error error
  else .error (.type (.sumOperand value.kind))

/-- Groups in key order, the elements of each last one first. -/
abbrev Grouping := List (Key × List Value)

/-- Adds an element to the group of its key. -/
def Grouping.add (key : Key) (element : Value) : Grouping → Grouping
  | [] => [(key, [element])]
  | (other, elements) :: rest =>
    match key.order other with
    | .lt => (key, [element]) :: (other, elements) :: rest
    | .eq => (other, element :: elements) :: rest
    | .gt => (other, elements) :: Grouping.add key element rest

/-- Adds an element to the group of the key that a selector takes from it, and counts it.
The count is checked against the cap before the key is computed. -/
def Selector.addToGroup (cap : Nat) (selector : Selector) (state : Grouping × Nat)
    (element : Value) : Except RunError (Grouping × Nat) :=
  if cap < state.2 + 1 then .error (.tooManyElements cap)
  else do
    let value ← selector.select cap element
    match value.key? with
    | some key => .ok (Grouping.add key element state.1, state.2 + 1)
    | none => .error (.type (.groupKey value.kind))

def textsOf : List Value → Except RunError (List String)
  | [] => .ok []
  | .text s :: rest => (textsOf rest).map (s :: ·)
  | other :: _ => .error (.type (.joiningPart other.kind))

namespace Sequence

def sum (cap : Nat) (token : CancelToken) (selector : Selector) (elements : Sequence) :
    Except RunError Value :=
  elements.consume (selector.addTo cap) token (.integer 0)

def count (token : CancelToken) (elements : Sequence) : Except RunError Value :=
  (elements.consume
    (fun (size : Int64) _ =>
      match boundedInteger? (size.toInt + 1) with
      | some size => .ok size
      | none => .error (.overflow .count)) token 0).map .integer

/-- The groups of the elements by key. -/
def group (cap : Nat) (token : CancelToken) (selector : Selector) (elements : Sequence) :
    Except RunError (List (Key × Flow)) := do
  let (groups, _) ← elements.consume (selector.addToGroup cap) token ([], 0)
  .ok (groups.map fun (key, elements) => (key, .sequence (ofList elements.reverse)))

def collect (cap : Nat) (token : CancelToken) (aggregator : Aggregator) (elements : Sequence) :
    Except RunError Value := do
  match aggregator with
  | .toList => do
    let items ← elements.materialize cap token
    .ok (.list items)
  | .toSet => do
    let items ← elements.materialize cap token
    -- The first of several equal elements is the one that is sorted in.
    let sorted ← Comparator.natural.sort cap (distinctBy Mark.hashAll items)
    .ok (.list sorted)
  | .counting => elements.count token
  | .joining separator => do
    let items ← elements.materialize cap token
    let texts ← textsOf items
    .ok (.text (separator.intercalate texts))
  | .summing selector => elements.sum cap token selector

end Sequence

def Stage.onSequence (cap : Nat) (token : CancelToken) (stage : Stage) (elements : Sequence) :
    Except RunError Flow := do
  match stage with
  | .filter selector => .ok (.sequence (elements.filter (selector.test cap)))
  | .map selector => .ok (.sequence (elements.map (selector.select cap)))
  | .flatMap lambda => .ok (.sequence (elements.flatMap (lambda.expand cap)))
  | .sorted comparator => do
    let items ← elements.materialize cap token
    let sorted ← (comparator.getD .natural).sort cap items
    .ok (.sequence (Sequence.ofList sorted))
  | .distinct => do
    let items ← elements.materialize cap token
    .ok (.sequence (Sequence.ofList (distinctBy Mark.hashAll items)))
  | .max comparator => do
    let items ← elements.materialize cap token
    let value ← comparator.extreme cap .max items
    .ok (.single value)
  | .min comparator => do
    let items ← elements.materialize cap token
    let value ← comparator.extreme cap .min items
    .ok (.single value)
  | .sum selector => do
    let value ← elements.sum cap token selector
    .ok (.single value)
  | .groupBy selector => do
    let groups ← elements.group cap token selector
    .ok (.groups groups)
  | .collect aggregator => do
    let value ← elements.collect cap token aggregator
    .ok (.single value)
  | .limit count => .ok (.sequence (elements.take count))
  | .skip count => .ok (.sequence (elements.drop count))

namespace Flow

mutual

/-- What a stage makes of a flow: groups one by one in key order. -/
def apply (cap : Nat) (token : CancelToken) (stage : Stage) : Flow → Except RunError Flow
  | sequence elements => stage.onSequence cap token elements
  | single value => .error (.type (.notSequence stage.name value.kind))
  | groups parts => (applyParts cap token stage parts).map groups
termination_by structural flow => flow

def applyParts (cap : Nat) (token : CancelToken) (stage : Stage) :
    List (Key × Flow) → Except RunError (List (Key × Flow))
  | [] => .ok []
  | (key, part) :: rest => do
    let part ← apply cap token stage part
    let parts ← applyParts cap token stage rest
    .ok ((key, part) :: parts)
termination_by structural parts => parts

end

mutual

/-- The value of a flow behind the last stage. -/
def finish (cap : Nat) (token : CancelToken) : Flow → Except RunError Value
  | sequence elements => (elements.materialize cap token).map .list
  | single value => .ok value
  | groups parts => (finishParts cap token parts).map .map
termination_by structural flow => flow

def finishParts (cap : Nat) (token : CancelToken) :
    List (Key × Flow) → Except RunError (List (Key × Value))
  | [] => .ok []
  | (key, part) :: rest => do
    let value ← finish cap token part
    let values ← finishParts cap token rest
    .ok ((key, value) :: values)
termination_by structural parts => parts

end

end Flow

def Chain.through (cap : Nat) (token : CancelToken) : Chain → Flow → Except RunError Flow
  | [], flow => .ok flow
  | stage :: rest, flow => do
    let flow ← flow.apply cap token stage
    Chain.through cap token rest flow

def Chain.run (cap : Nat) (token : CancelToken) (chain : Chain) (input : List Value) :
    Except RunError Value := do
  let flow ← chain.through cap token (.sequence (Sequence.ofList input))
  flow.finish cap token

/-- The cap where none is given. -/
def defaultCap : Nat := 1000000

end Pipeline
