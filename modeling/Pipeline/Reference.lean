import Pipeline.Text.Casing

/-!
# The language reference

The texts that explain scripts to those who write them, by topic.
-/

set_option autoImplicit false

namespace Pipeline

inductive Topic where
  | syntaxOfScripts
  | stages
  | comparators
  | aggregators
  | expressions
  | library
  | policy
deriving DecidableEq

/-- Lines that each end in a line break. -/
def lines (texts : List String) : String :=
  String.join (texts.map (· ++ "\n"))

namespace Topic

/-- The topic that a word names, whatever the case of its letters; a hyphen counts as an
underscore. -/
def ofName? (name : String) : Option Topic :=
  let letters := (Text.lower name.toList).map fun c => if c = '-' then '_' else c
  match String.ofList letters with
  | "syntax" => some syntaxOfScripts
  | "stages" => some stages
  | "stage" => some stages
  | "operations" => some stages
  | "comparators" => some comparators
  | "comparator" => some comparators
  | "sorting" => some comparators
  | "aggregators" => some aggregators
  | "aggregator" => some aggregators
  | "collect" => some aggregators
  | "expressions" => some expressions
  | "expression" => some expressions
  | "lambdas" => some expressions
  | "library" => some library
  | "methods" => some library
  | "functions" => some library
  | "policy" => some policy
  | "sandbox" => some policy
  | "limits" => some policy
  | _ => none

end Topic

/-- The list of topics, with a few examples. -/
def overview : String :=
  lines [
    "STREAMY DOCUMENTATION",
    "",
    "Streamy scripts are chains of collection stages applied to a fixed dataset,",
    "in the style of Java streams. Every script starts with a stage call and is",
    "checked against a policy before it runs in a time-limited sandbox.",
    "",
    "DOCUMENTATION TOPICS",
    "",
    "  syntax            Chain structure and lambda notation",
    "  stages            Every stage, its arguments and what it produces",
    "  comparators       Sort keys, directions and tie-breaking",
    "  aggregators       collect() aggregators and their shorthands",
    "  expressions       Operators, precedence and literals inside lambdas",
    "  library           Methods and functions callable from expressions",
    "  policy            What the validator rejects and the sandbox limits",
    "",
    "QUICK REFERENCE",
    "",
    "  .filter(a -> a.predator)          Keep matching elements",
    "  .map(a -> a.name.upper())         Transform each element",
    "  .sorted(by weight descending)     Order elements",
    "  .groupBy(species).max(by weight)  Reduce per group",
    "  .sum(weight)                      Add up a field",
    "",
    "Run 'streamy docs <topic>' for detailed documentation."]

/-- How chains and lambdas are written. -/
def syntaxText : String :=
  lines [
    "SYNTAX - Chain Structure",
    "",
    "CHAINS",
    "  A script is a sequence of stage calls, each introduced by a dot:",
    "",
    "    .stage(args).stage(args) ...",
    "",
    "  Whitespace and newlines between stages are ignored. A script that does",
    "  not start with '.' is rejected.",
    "",
    "LAMBDAS",
    "  Stages that evaluate something per element take a lambda:",
    "",
    "    a -> a.weight > 500",
    "",
    "  The parameter name is free; it is the only name in scope inside the body.",
    "",
    "FIELD SHORTHAND",
    "  Where a lambda selects a single field, the field name alone is enough:",
    "",
    "    .filter(predator)          same as .filter(a -> a.predator)",
    "    .sum(weight)               same as .sum(a -> a.weight)",
    "",
    "RECORD ACCESSORS",
    "  Record fields can also be read with accessor calls:",
    "",
    "    a.name()                   same as a.name",
    "",
    "LITERALS",
    "  Integers      42, 1_000_000, -9223372036854775808",
    "  Floats        2.5, -0.25",
    "  Text          \"LION\" or 'LION'",
    "  Booleans      true, false",
    "",
    "  Integer literals outside the 64-bit range are rejected when parsing."]

/-- What every stage takes and yields. -/
def stagesText : String :=
  lines [
    "STAGES - Pipeline Operations",
    "",
    "PER-ELEMENT",
    "  .filter(predicate)         Keep elements where the predicate is true",
    "  .map(selector)             Replace each element with the selected value",
    "  .flatMap(x -> list)        Replace each element with a sequence",
    "                             (range(from, to) is produced lazily)",
    "",
    "RESHAPING",
    "  .sorted()                  Natural order (records by their natural key)",
    "  .sorted(comparator)        Order by comparator; stable (alias: sort)",
    "  .distinct()                Drop repeats, keeping the first occurrence",
    "  .limit(n)                  Keep the first n elements",
    "  .skip(n)                   Drop the first n elements",
    "",
    "REDUCING",
    "  .max(comparator)           Greatest element; first wins ties (alias: maxBy)",
    "  .min(comparator)           Least element; first wins ties (alias: minBy)",
    "  .sum() / .sum(selector)    Total; overflow is an error (alias: sumBy)",
    "  .collect(aggregator)       See 'streamy docs aggregators'",
    "  .toList()                  Same as .collect(toList())",
    "  .count()                   Same as .collect(counting())",
    "",
    "  max() and min() fail on an empty sequence. A trailing .orElseThrow()",
    "  is accepted directly after them and changes nothing.",
    "",
    "GROUPING",
    "  .groupBy(selector)         Partition into a map keyed by the selector",
    "                             (alias: groupingBy)",
    "",
    "  Every stage after groupBy runs once per group:",
    "",
    "    .groupBy(species).max(by weight)       heaviest animal per species",
    "    .groupBy(predator).count()             how many of each",
    "",
    "  Only one level of grouping exists; a nested",
    "  Collectors.groupingBy(key, downstream) is not supported."]

/-- How orders are written. -/
def comparatorsText : String :=
  lines [
    "COMPARATORS - Ordering Elements",
    "",
    "KEYS",
    "  by <selector> [direction]",
    "",
    "    .sorted(by age)",
    "    .sorted(by weight descending)",
    "    .max(by a -> a.name.length())",
    "",
    "  The word 'by' is optional: .sorted(age) works too.",
    "",
    "DIRECTIONS",
    "  asc, ascending             Smallest first (default)",
    "  desc, descending           Largest first",
    "",
    "  A bare direction orders by the natural ordering:",
    "",
    "    .sorted(descending)",
    "",
    "TIE-BREAKING",
    "  Later keys break ties of earlier ones:",
    "",
    "    .sorted(by predator descending then by name)",
    "",
    "  Elements that tie on every key keep their input order.",
    "",
    "JAVA-STYLE COMPARATORS",
    "  Comparator.comparing(selector)        same as: by selector",
    "  Comparator.comparingInt(selector)     (also comparingLong, comparingDouble)",
    "  Comparator.comparing(sel).reversed()  same as: by sel descending",
    "  Comparator.naturalOrder()             same as: ascending",
    "  Comparator.reverseOrder()             same as: descending",
    "",
    "    .max(Comparator.comparing(a -> a.weight)).orElseThrow()",
    "",
    "  Method references such as Animal::getWeight are not supported; write",
    "  the lambda a -> a.weight or the field name instead.",
    "",
    "NATURAL ORDERING",
    "  Numbers, text and booleans order naturally. Records order by their",
    "  natural key field when the record type declares one; otherwise a",
    "  comparator is required."]

/-- What can be collected. -/
def aggregatorsText : String :=
  lines [
    "AGGREGATORS - collect()",
    "",
    "  toList()                   All elements as a list",
    "  toSet()                    Distinct elements in natural order",
    "  counting()                 Number of elements",
    "  joining([separator])       Concatenate text elements",
    "  summing(selector)          Total of the selected numbers",
    "",
    "  The Collectors. prefix is accepted:",
    "",
    "    .collect(Collectors.toList())",
    "    .map(name).collect(joining(\", \"))"]

/-- Operators and literals. -/
def expressionsText : String :=
  lines [
    "EXPRESSIONS - Inside Lambdas",
    "",
    "OPERATORS (lowest to highest precedence)",
    "  c ? a : b                  Conditional; only the chosen branch runs",
    "  or, ||                     Logical or (short-circuit)",
    "  and, &&                    Logical and (short-circuit)",
    "  not, !                     Logical not",
    "  == != < > <= >=            Comparison",
    "  + -                        Addition, subtraction, text concatenation",
    "  * / %                      Multiplication, division, remainder",
    "  -                          Negation",
    "  .field  .method(args)      Access and calls",
    "",
    "ARITHMETIC",
    "  Integer arithmetic is checked: overflow is an error, never wrap-around.",
    "  Division of integers truncates toward zero: 7 / 2 == 3, -7 / 2 == -3.",
    "  Divide by a float to keep the fraction: 7 / 2.0 == 3.5. Division or",
    "  remainder by zero is an error.",
    "",
    "  Mixed integer/float arithmetic is computed exactly where possible, and",
    "  an integral result stays an integer:",
    "    4 * 0.5                    2",
    "",
    "CONDITIONALS",
    "  The condition must be boolean. Conditionals nest to the right:",
    "",
    "    a.weight < 200 ? \"light\" : a.weight < 1000 ? \"medium\" : \"heavy\"",
    "",
    "COMPARISON",
    "  Numbers compare by exact value across integers and floats, so",
    "  9007199254740993 > 9007199254740992.0 holds. Text compares",
    "  lexicographically. Comparing different kinds is an error."]

/-- Methods and functions. -/
def libraryText : String :=
  lines [
    "LIBRARY - Methods and Functions",
    "",
    "TEXT METHODS",
    "  .upper()   .toUpperCase()  Upper case",
    "  .lower()   .toLowerCase()  Lower case",
    "  .trim()                    Strip surrounding whitespace",
    "  .length()                  Number of characters",
    "  .contains(s)               Substring test",
    "  .startsWith(s)             Prefix test",
    "  .endsWith(s)               Suffix test",
    "",
    "NUMBER METHODS",
    "  .abs()                     Absolute value",
    "",
    "LIST METHODS",
    "  .length()                  Number of elements",
    "  .contains(x)               Membership test",
    "",
    "FUNCTIONS",
    "  abs(n)                     Absolute value",
    "  min(a, b)  max(a, b)       Smaller / larger of two numbers",
    "  range(from, to)            Integers from 'from' up to, not including, 'to'",
    "",
    "  No other methods or functions exist."]

/-- What is refused, and the limits. -/
def policyText : String :=
  lines [
    "POLICY - Validation and Limits",
    "",
    "FORBIDDEN TOKENS",
    "  The following words are rejected anywhere outside string literals:",
    "",
    "    parallel parallelStream forEach peek new System Runtime Thread",
    "    Class getClass reflect exec spawn unsafe std env process File",
    "",
    "  Matching is by whole word, so a field named newValue is fine.",
    "",
    "STRUCTURAL CHECKS",
    "  - Only the lambda parameter may be referenced.",
    "  - Only library methods and functions may be called.",
    "  - Field access must name a field of the record type.",
    "",
    "LIMITS",
    "  --deadline-ms              Wall-clock budget per run (default 2000)",
    "  --max-elements             Elements a stage may hold (default 1000000)",
    "",
    "  Scripts that run past the deadline are abandoned and reported as a",
    "  timeout.",
    "",
    "  Expressions nest at most 64 levels deep. Parentheses, prefix",
    "  operators, each chained binary operator and each .field or .method()",
    "  suffix count as one level."]

def Topic.text : Topic → String
  | syntaxOfScripts => syntaxText
  | stages => stagesText
  | comparators => comparatorsText
  | aggregators => aggregatorsText
  | expressions => expressionsText
  | library => libraryText
  | policy => policyText

end Pipeline
