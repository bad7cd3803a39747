import Pipeline.Script.Chain
import Pipeline.Script.ExprParser

/-!
# Parsing chains

The stages of a script and their arguments. Several words have a meaning only in their
place, and are names everywhere else: `by`, `then` and the directions in sort keys,
`Comparator` and `Collectors` before a dot, and `orElseThrow` after a dot.
-/

set_option autoImplicit false

namespace Pipeline

namespace Parse

def selector : Parse Selector := do
  let cursor ← get
  match cursor.current, cursor.peek with
  | some (.name _), some (.symbol .arrow) => return .lambda (← lambda)
  | some (.name name), _ => do
    advance
    return .field name
  | _, _ => unexpected .selector

/-- A selector, or the element itself where nothing stands between the brackets. -/
def optionalSelector : Parse Selector := do
  if ← atSymbol .rightParen then return .identity else selector

/-- The direction that a word gives to a sort key. -/
def direction? : String → Option Direction
  | "asc" => some .ascending
  | "ascending" => some .ascending
  | "desc" => some .descending
  | "descending" => some .descending
  | _ => none

/-- The direction at the cursor, if there is one; it is passed. -/
def optionalDirection : Parse (Option Direction) := do
  match ← current with
  | some (.name word) =>
    match direction? word with
    | some direction => do
      advance
      return some direction
    | none => return none
  | _ => return none

/-- The direction after any number of `.reversed()`, at most `bound` of them. -/
def reversals (direction : Direction) : Nat → Parse Direction
  | 0 => return direction
  | bound + 1 => do
    let cursor ← get
    if cursor.current == some (.symbol .dot) && cursor.peek == some (.name "reversed") then
      advance
      advance
      expect .leftParen
      expect .rightParen
      reversals direction.reversed bound
    else return direction

/-- A sort key `Comparator.comparing(selector)`, possibly reversed, or one of the two
natural orders. The cursor is at `Comparator`. -/
def factoryKey : Parse SortKey := do
  advance
  advance
  let factory ← expectName .factory
  expect .leftParen
  if factory = "reverseOrder" then
    expect .rightParen
    return ⟨.identity, .descending⟩
  else
    let selector ←
      if ["comparing", "comparingInt", "comparingLong", "comparingDouble"].contains factory then
        selector
      else if factory = "naturalOrder" then pure .identity
      else throw (.invalidArgument (.unsupportedFactory factory))
    expect .rightParen
    return ⟨selector, ← reversals .ascending (← remaining)⟩

/-- A sort key: a factory, a direction alone, or a selector after an optional `by` and
before an optional direction. -/
def sortKey : Parse SortKey := do
  if ← atNameThen "Comparator" (.symbol .dot) then factoryKey
  else
    match ← optionalDirection with
    | some direction => return ⟨.identity, direction⟩
    | none => do
      -- Before an arrow, `by` is the parameter of a lambda.
      if (← atName "by") && !(← atNameThen "by" (.symbol .arrow)) then advance
      let selector ← selector
      let direction ← optionalDirection
      return ⟨selector, direction.getD .ascending⟩

def furtherKeys : Nat → Parse (List SortKey)
  | 0 => return []
  | bound + 1 => do
    if ← atName "then" then
      advance
      let key ← sortKey
      let keys ← furtherKeys bound
      return key :: keys
    else return []

def comparator : Parse Comparator := do
  let key ← sortKey
  let keys ← furtherKeys (← remaining)
  return ⟨key :: keys⟩

def optionalComparator : Parse (Option Comparator) := do
  if ← atSymbol .rightParen then return none else return some (← comparator)

/-- A count. It has 64 bits. -/
def count (stage : CountedStage) : Parse Nat := do
  match ← current with
  | some (.integer digits) => do
    let value := digitsValue 0 digits.toList
    if value < Nat.pow 2 64 then
      advance
      return value
    else throw (.integerOutOfRange digits)
  | found => throw (.invalidArgument (.count stage found))

/-- The separator of `joining`, which is empty if none is given. -/
def optionalText : Parse String := do
  match ← current with
  | some (.text separator) => do
    advance
    return separator
  | _ => return ""

/-- The arguments of the aggregator with the given name. -/
def aggregatorArguments : String → Parse Aggregator
  | "toList" => pure .toList
  | "toSet" => pure .toSet
  | "counting" => pure .counting
  | "joining" => .joining <$> optionalText
  | "summing" => .summing <$> selector
  | name => throw (.unknownAggregator name)

/-- An aggregator, which may stand behind `Collectors` and a dot. -/
def aggregator : Parse Aggregator := do
  if ← atNameThen "Collectors" (.symbol .dot) then
    advance
    advance
  let name ← expectName .aggregator
  expect .leftParen
  let aggregator ← aggregatorArguments name
  expect .rightParen
  return aggregator

/-- The parser for the arguments of the stage with the given name, if there is such a
stage. -/
def stageArguments? : String → Option (Parse Stage)
  | "filter" => some (.filter <$> selector)
  | "map" => some (.map <$> selector)
  | "flatMap" => some (.flatMap <$> lambda)
  | "sorted" => some (.sorted <$> optionalComparator)
  | "sort" => some (.sorted <$> optionalComparator)
  | "distinct" => some (pure .distinct)
  | "max" => some ((fun given => .max (given.getD .natural)) <$> optionalComparator)
  | "maxBy" => some ((fun given => .max (given.getD .natural)) <$> optionalComparator)
  | "min" => some ((fun given => .min (given.getD .natural)) <$> optionalComparator)
  | "minBy" => some ((fun given => .min (given.getD .natural)) <$> optionalComparator)
  | "sum" => some (.sum <$> optionalSelector)
  | "sumBy" => some (.sum <$> optionalSelector)
  | "groupBy" => some (.groupBy <$> selector)
  | "groupingBy" => some (.groupBy <$> selector)
  | "collect" => some (.collect <$> aggregator)
  | "toList" => some (pure (.collect .toList))
  | "count" => some (pure (.collect .counting))
  | "limit" => some (.limit <$> count .limit)
  | "skip" => some (.skip <$> count .skip)
  | _ => none

/-- A stage after its dot. The name is looked up before the arguments are read. -/
def stage : Parse Stage := do
  let name ← expectName .stageName
  match stageArguments? name with
  | none => throw (.unknownStage name)
  | some arguments => do
    expect .leftParen
    let stage ← arguments
    expect .rightParen
    return stage

/-- Whether a stage fails on empty input, so that `orElseThrow` adds nothing to it. -/
def failsOnEmpty : Option Stage → Bool
  | some (.max _) => true
  | some (.min _) => true
  | _ => false

/-- Passes `orElseThrow()` behind the previous stage. -/
def orElseThrow (previous : Option Stage) : Parse Unit := do
  advance
  expect .leftParen
  expect .rightParen
  if !failsOnEmpty previous then throw (.invalidArgument .misplacedThrow)

/-- The stages from the cursor on, at most `bound` of them, behind the previous one. -/
def stages (previous : Option Stage) : Nat → Parse Chain
  | 0 => return []
  | bound + 1 => do
    if ← atSymbol .dot then
      advance
      if ← atName "orElseThrow" then
        orElseThrow previous
        stages previous bound
      else
        let stage ← stage
        let rest ← stages (some stage) bound
        return stage :: rest
    else return []

/-- A chain that makes up the rest of the script. -/
def wholeChain : Parse Chain := do
  if ← atSymbol .dot then
    let chain ← stages none (← remaining)
    expectEnd
    return chain
  else throw .missingStage

end Parse

/-- The chain that a script denotes. A script that does not start with a dot is refused
before its tokens are looked at. -/
def Chain.parse (script : String) : Except ParseError Chain :=
  match Text.trimStart script.toList with
  | '.' :: _ => do
    let cursor ← Cursor.ofScript script
    let (chain, _) ← Parse.wholeChain.run cursor
    return chain
  | _ => throw .missingStage

end Pipeline
