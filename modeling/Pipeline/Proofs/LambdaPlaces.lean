import Pipeline.Proofs.FactoryKeys

/-! Lambdas in every place of a script where a selector or a lambda may stand: whatever the name of
the parameter and the text of the body, the lambda that was written is read, unless it comes first
in a sort key and the parameter is called like a direction. -/

set_option autoImplicit false

namespace Pipeline

open Scan

def Script.lambda (parameter body : String) : String :=
  parameter ++ " -> " ++ body

namespace Parse

/-! ## Texts of lambdas -/

section Lambdas

variable {parameter text : String} {body : Expr} {tokens : List Token}

theorem consists_lambda (identifier : IsIdentifier parameter)
    (consists : Consists text.toList tokens) :
    Consists (Script.lambda parameter text).toList
      (.name parameter :: .symbol .arrow :: tokens) := by
  have arrow := consists.blank.next (.symbol rfl : Takes ('-' :: '>' :: _) (.symbol .arrow) _)
  have named := arrow.blank.name identifier fun c found => (severs_gap (.inl rfl) _ c found).1
  simpa [Script.lambda, String.toList_append] using named

theorem run_lambda_cons {more : List Token}
    (read : expression.run ⟨tokens, none⟩ = .ok (body, ⟨more, none⟩)) :
    lambda.run ⟨.name parameter :: .symbol .arrow :: tokens, none⟩ =
      .ok (⟨parameter, body⟩, ⟨more, none⟩) := by
  rw [lambda, run_expectName_cons_bind, run_expect_cons_bind, run_bind_ok read]
  rfl

theorem exists_tokens_lambda (identifier : IsIdentifier parameter)
    (parsed : Expr.parse text = .ok body) :
    ∃ tokens, Consists (Script.lambda parameter text).toList
        (.name parameter :: .symbol .arrow :: tokens) ∧
      ∀ more, expression.Ignores more →
        lambda.run ⟨.name parameter :: .symbol .arrow :: (tokens ++ more), none⟩ =
          .ok (⟨parameter, body⟩, ⟨more, none⟩) := by
  rw [Expr.parse_eq_whole] at parsed
  obtain ⟨tokens, consists, run⟩ := exists_tokens_of_whole expression_reaching parsed
  exact ⟨tokens, consists_lambda identifier consists, fun more ignores =>
    run_lambda_cons (run more ignores)⟩

theorem selector_parse_lambda (identifier : IsIdentifier parameter)
    (parsed : Expr.parse text = .ok body) :
    Selector.parse (Script.lambda parameter text) = .ok (.lambda ⟨parameter, body⟩) := by
  obtain ⟨tokens, consists, run⟩ := exists_tokens_lambda identifier parsed
  have read := run [] expression_local.ignores_nil
  rw [List.append_nil] at read
  exact (whole_eq_ok_iff selector_reaching).2 ⟨_, consists, run_selector_lambda read⟩

end Lambdas

/-! ## Arguments of stages -/

section Arguments

variable {name parameter : String} {make : Lambda → Stage} {arguments : Parse Stage}
  {result : Stage} {tokens rest : List Token}

theorem run_stage_arguments (found : stageArguments? name = some arguments)
    (read : arguments.run ⟨tokens, none⟩ = .ok (result, ⟨.symbol .rightParen :: rest, none⟩)) :
    stage.run ⟨.name name :: .symbol .leftParen :: tokens, none⟩ =
      .ok (result, ⟨rest, none⟩) := by
  rw [stage, run_expectName_cons_bind, found]
  dsimp only
  rw [run_expect_cons_bind, run_bind_ok read, run_expect_cons_bind]
  rfl

/-- The stages that take a lambda, most of them as a selector, by their names. -/
def lambdaStages : List (String × (Lambda → Stage)) :=
  [("filter", fun function => .filter (.lambda function)),
    ("map", fun function => .map (.lambda function)), ("flatMap", .flatMap),
    ("sum", fun function => .sum (.lambda function)),
    ("sumBy", fun function => .sum (.lambda function)),
    ("groupBy", fun function => .groupBy (.lambda function)),
    ("groupingBy", fun function => .groupBy (.lambda function))]

theorem isIdentifier_of_lambdaStages (member : (name, make) ∈ lambdaStages) :
    IsIdentifier name := by
  have each : ∀ word ∈ lambdaStages.map Prod.fst, IsIdentifier word := by decide
  exact each name (List.mem_map_of_mem member)

theorem run_lambdaStages {function : Lambda} {after : Cursor}
    (member : (name, make) ∈ lambdaStages)
    (read : lambda.run ⟨.name parameter :: .symbol .arrow :: tokens, none⟩ =
      .ok (function, after)) :
    ∃ arguments, stageArguments? name = some arguments ∧
      arguments.run ⟨.name parameter :: .symbol .arrow :: tokens, none⟩ =
        .ok (make function, after) := by
  have selected := run_selector_lambda read
  have optional : optionalSelector.run ⟨.name parameter :: .symbol .arrow :: tokens, none⟩ =
      .ok (.lambda function, after) := by
    rw [optionalSelector, run_atSymbol_ne_bind (by simp)]
    exact selected
  simp only [lambdaStages, List.mem_cons, List.not_mem_nil, or_false, Prod.mk.injEq] at member
  rcases member with ⟨rfl, rfl⟩ | ⟨rfl, rfl⟩ | ⟨rfl, rfl⟩ | ⟨rfl, rfl⟩ | ⟨rfl, rfl⟩ | ⟨rfl, rfl⟩ |
    ⟨rfl, rfl⟩
  · exact ⟨_, rfl, run_map_eq_ok.2 ⟨_, selected, rfl⟩⟩
  · exact ⟨_, rfl, run_map_eq_ok.2 ⟨_, selected, rfl⟩⟩
  · exact ⟨_, rfl, run_map_eq_ok.2 ⟨_, read, rfl⟩⟩
  · exact ⟨_, rfl, run_map_eq_ok.2 ⟨_, optional, rfl⟩⟩
  · exact ⟨_, rfl, run_map_eq_ok.2 ⟨_, optional, rfl⟩⟩
  · exact ⟨_, rfl, run_map_eq_ok.2 ⟨_, selected, rfl⟩⟩
  · exact ⟨_, rfl, run_map_eq_ok.2 ⟨_, selected, rfl⟩⟩

/-- What may stand in front of the name of an aggregator. -/
inductive Qualifier : String → List Token → Prop where
  | omitted : Qualifier "" []
  | collectors : Qualifier "Collectors." [.name "Collectors", .symbol .dot]

section Summing

variable {qualifier : String} {front : List Token} (qualified : Qualifier qualifier front)

include qualified

theorem Qualifier.run_summing :
    aggregator.run ⟨front ++ .name "summing" :: .symbol .leftParen :: tokens, none⟩ =
      (do
        let aggregator ← Aggregator.summing <$> selector
        expect .rightParen
        return aggregator : Parse Aggregator).run ⟨tokens, none⟩ := by
  cases qualified with
  | omitted | collectors => rfl

theorem Qualifier.run_summing_lambda {function : Lambda}
    (read : lambda.run ⟨.name parameter :: .symbol .arrow :: tokens, none⟩ =
      .ok (function, ⟨.symbol .rightParen :: rest, none⟩)) :
    aggregator.run ⟨front ++ .name "summing" :: .symbol .leftParen :: .name parameter ::
        .symbol .arrow :: tokens, none⟩ =
      .ok (.summing (.lambda function), ⟨rest, none⟩) := by
  have summing : (Aggregator.summing <$> selector).run
      ⟨.name parameter :: .symbol .arrow :: tokens, none⟩ =
      .ok (.summing (.lambda function), ⟨.symbol .rightParen :: rest, none⟩) :=
    run_map_eq_ok.2 ⟨_, run_selector_lambda read, rfl⟩
  rw [qualified.run_summing, run_bind_ok summing, run_expect_cons_bind]
  rfl

theorem Qualifier.consists {call : String} {word : String}
    (consists : Consists call.toList (.name word :: tokens)) :
    Consists (qualifier ++ call).toList (front ++ .name word :: tokens) := by
  cases qualified with
  | omitted => simpa using consists
  | collectors =>
      have isCollectors : IsIdentifier "Collectors" := by decide
      simpa [String.toList_append] using consists.qualified isCollectors

end Summing

end Arguments

/-! ## Sort keys -/

section Keys

variable {parameter text : String} {body : Expr}

/-- The ways to write a sort key with a selector, by its text, `bare` if nothing is in front of
the selector. -/
inductive KeyForm : Bool → (String → String) → (Selector → SortKey) → Prop where
  | bare {directionText : String} {direction : Direction} :
      DirectionText directionText direction →
      KeyForm true (fun text => text ++ directionText) (fun selector => ⟨selector, direction⟩)
  | behindBy {directionText : String} {direction : Direction} :
      DirectionText directionText direction →
      KeyForm false (fun text => "by " ++ text ++ directionText)
        (fun selector => ⟨selector, direction⟩)
  | factory {factory : String} (count : Nat) : factory ∈ selectorFactories →
      KeyForm false
        (fun text => "Comparator." ++ Script.call factory text ++ reversedText count)
        (fun selector => ⟨selector, Direction.reversed^[count] .ascending⟩)

section Arrow

variable {tokens : List Token}

theorem run_sortKey_arrow_bind : sortKey.run ⟨.name parameter :: .symbol .arrow :: tokens, none⟩ =
    (do
      match ← optionalDirection with
      | some direction => return ⟨.identity, direction⟩
      | none => do
        if (← atName "by") && !(← atNameThen "by" (.symbol .arrow)) then Parse.advance
        directedKey : Parse SortKey).run ⟨.name parameter :: .symbol .arrow :: tokens, none⟩ := by
  have noDot : ((some (Token.symbol .arrow)) == some (.symbol .dot)) = false := by decide
  rw [sortKey, run_atNameThen_bind]
  simp only [Cursor.current, Cursor.peek, List.head?_cons, List.tail_cons, noDot, Bool.and_false]
  rfl

/-- A direction is taken alone, even if an arrow follows it. -/
theorem run_sortKey_direction {direction : Direction}
    (found : direction? parameter = some direction) :
    sortKey.run ⟨.name parameter :: .symbol .arrow :: tokens, none⟩ =
      .ok (⟨.identity, direction⟩, ⟨.symbol .arrow :: tokens, none⟩) := by
  rw [run_sortKey_arrow_bind, run_bind_ok (run_optionalDirection_word found)]
  rfl

/-- A `by` in front of an arrow is a parameter, and so is `Comparator`. -/
theorem run_sortKey_arrow (noDirection : direction? parameter = none) :
    sortKey.run ⟨.name parameter :: .symbol .arrow :: tokens, none⟩ =
      directedKey.run ⟨.name parameter :: .symbol .arrow :: tokens, none⟩ := by
  rw [run_sortKey_arrow_bind, run_bind_ok (run_optionalDirection_other noDirection)]
  dsimp only
  rw [run_atName_bind, run_atNameThen_bind]
  simp only [Cursor.current, Cursor.peek, List.head?_cons, List.tail_cons, BEq.rfl, Bool.and_true,
    Bool.and_not_self]
  rfl

end Arrow

theorem KeyForm.parse_lambda {bare : Bool} {write : String → String} {make : Selector → SortKey}
    (form : KeyForm bare write make) (identifier : IsIdentifier parameter)
    (parsed : Expr.parse text = .ok body)
    (allowed : bare = true → direction? parameter = none) :
    SortKey.parse (write (Script.lambda parameter text)) =
      .ok (make (.lambda ⟨parameter, body⟩)) := by
  have selector := selector_parse_lambda identifier parsed
  obtain ⟨_, spelled, _⟩ := exists_tokens_lambda identifier parsed
  cases form with
  | bare written =>
      -- The parameter and the arrow have to be in sight, to rule out a direction alone.
      obtain ⟨tokens, further, alone, consists, run⟩ := exists_tokens_directed selector written
      obtain rfl := alone.unique spelled
      refine (SortKey.parse_of_tokens consists fun more ends => ?_).1
      exact (run_sortKey_arrow (allowed rfl)).trans (run more ends)
  | behindBy written =>
      obtain ⟨tokens, consists, run⟩ := exists_tokens_by selector written
      exact (SortKey.parse_of_tokens consists run).1
  | factory count known =>
      obtain ⟨tokens, consists, run⟩ := exists_tokens_factory selector known count
      exact (SortKey.parse_of_tokens consists run).1

theorem exists_tokens_before {key : String} {tokens : List Token}
    (consists : Consists key.toList tokens) {later : List (String × SortKey)}
    (each : ∀ other ∈ later, SortKey.parse other.1 = .ok other.2) :
    ∃ further, Consists (" then ".intercalate (key :: later.map (·.1))).toList
      (tokens ++ further) := by
  cases later with
  | nil =>
      refine ⟨[], ?_⟩
      rwa [List.map_nil, String.intercalate_singleton, List.append_nil]
  | cons other others =>
      obtain ⟨behind, consistsBehind, _⟩ := exists_tokens_of_keys (List.cons_ne_nil _ _) each
      exact ⟨.name "then" :: behind, consists_then (by simp) consists consistsBehind⟩

/-- Where a direction stands in front of an arrow the key ends, whatever was meant. -/
theorem exists_tokens_refused {direction : Direction}
    (found : direction? parameter = some direction) (identifier : IsIdentifier parameter)
    (parsed : Expr.parse text = .ok body)
    {directionText : String} {written : Direction} (directed : DirectionText directionText written)
    {earlier later : List (String × SortKey)}
    (each : ∀ key ∈ earlier ++ later, SortKey.parse key.1 = .ok key.2) :
    ∃ tokens, Consists (" then ".intercalate (earlier.map (·.1) ++
        (Script.lambda parameter text ++ directionText) :: later.map (·.1))).toList tokens ∧
      ∀ more, ∃ rest, KeysRead (tokens ++ more) (earlier.map (·.2) ++ [⟨.identity, direction⟩])
        (.symbol .arrow :: rest) := by
  obtain ⟨inner, spelled, _⟩ := exists_tokens_lambda identifier parsed
  obtain ⟨_, further, alone, consists, _⟩ :=
    exists_tokens_directed (selector_parse_lambda identifier parsed) directed
  obtain rfl := alone.unique spelled
  rw [List.forall_mem_append] at each
  obtain ⟨others, consistsAll⟩ := exists_tokens_before consists each.2
  obtain ⟨tokens, consistsKeys, reads⟩ :=
    exists_tokens_behind each.1 (List.cons_ne_nil _ _) consistsAll
  refine ⟨tokens, consistsKeys, fun more => ?_⟩
  exact ⟨_, reads more _ _ (.last (run_sortKey_direction found) (by simp))⟩

end Keys

end Parse

/-! ## Places of lambdas -/

/-- The places in a script where a lambda may stand, by the text around it, and the stage that it
becomes a part of. The place is `bare` if the lambda comes first in a sort key. -/
inductive LambdaPlace : Bool → (String → String) → (Lambda → Stage) → Prop where
  | argument {name : String} {make : Lambda → Stage} : (name, make) ∈ Parse.lambdaStages →
      LambdaPlace false (Script.call name) make
  | summing {qualifier : String} {front : List Token} : Parse.Qualifier qualifier front →
      LambdaPlace false
        (fun text => Script.call "collect" (qualifier ++ Script.call "summing" text))
        (fun function => .collect (.summing (.lambda function)))
  | key {name : String} {make : Comparator → Stage} {earlier later : List (String × SortKey)}
      {bare : Bool} {write : String → String} {key : Selector → SortKey} :
      (name, make) ∈ Parse.comparatorStages →
      (∀ other ∈ earlier ++ later, SortKey.parse other.1 = .ok other.2) →
      Parse.KeyForm bare write key →
      LambdaPlace bare
        (fun text => Script.call name
          (" then ".intercalate (earlier.map (·.1) ++ write text :: later.map (·.1))))
        (fun function => make ⟨earlier.map (·.2) ++ key (.lambda function) :: later.map (·.2)⟩)

theorem Chain.parse_direction_arrow {front back : String} {before after : Chain}
    (fronted : Chain.Part front before) (backed : Chain.Part back after) {name : String}
    {make : Comparator → Stage} (member : (name, make) ∈ Parse.comparatorStages)
    {parameter text : String} {direction written : Direction} {body : Expr} {directionText : String}
    (found : Parse.direction? parameter = some direction) (identifier : IsIdentifier parameter)
    (parsed : Expr.parse text = .ok body) (directed : Parse.DirectionText directionText written)
    {earlier later : List (String × SortKey)}
    (each : ∀ key ∈ earlier ++ later, SortKey.parse key.1 = .ok key.2) :
    Chain.parse (front ++ "." ++ Script.call name (" then ".intercalate (earlier.map (·.1) ++
        (Script.lambda parameter text ++ directionText) :: later.map (·.1))) ++ back) =
      .error (.unexpected (.symbol .rightParen) (some (.symbol .arrow))) := by
  obtain ⟨tokens, consists, reads⟩ :=
    Parse.exists_tokens_refused found identifier parsed directed each
  obtain ⟨isName, other⟩ := Parse.comparatorStages_names member
  refine Chain.parse_between_error fronted backed (consists.call isName) (getLast?_call _ _) other
    fun more => ?_
  obtain ⟨rest, read⟩ := reads (.symbol .rightParen :: more)
  simp only [List.cons_append, List.append_assoc, List.nil_append]
  rw [read.stage member]
  rfl

/-- In every place where a lambda may stand, every identifier may be its parameter and every
expression its body, whatever stands in front of the place and behind it. Only where the lambda
comes first in a sort key the directions are taken by themselves, and the arrow is refused. -/
theorem Chain.parse_lambda_place {bare : Bool} {write : String → String} {make : Lambda → Stage}
    (place : LambdaPlace bare write make) {parameter : String} (identifier : IsIdentifier parameter)
    {text : String} {body : Expr} (parsed : Expr.parse text = .ok body) {front back : String}
    {before after : Chain} (fronted : Chain.Part front before) (backed : Chain.Part back after) :
    Chain.parse (front ++ "." ++ write (Script.lambda parameter text) ++ back) =
      if bare = true ∧ (Parse.direction? parameter).isSome then
        .error (.unexpected (.symbol .rightParen) (some (.symbol .arrow)))
      else .ok (before ++ make ⟨parameter, body⟩ :: after) := by
  cases place with
  | @argument name _ member =>
      rw [if_neg (by simp)]
      obtain ⟨tokens, consists, run⟩ := Parse.exists_tokens_lambda identifier parsed
      have read := run [.symbol .rightParen] (Parse.expression_ignores (.bracket []))
      obtain ⟨arguments, found, ran⟩ := Parse.run_lambdaStages member read
      refine Chain.parse_between fronted backed
        (consists.call (Parse.isIdentifier_of_lambdaStages member)) ?_
      exact Parse.run_stage_arguments found ran
  | @summing qualifier front qualified =>
      rw [if_neg (by simp)]
      obtain ⟨tokens, consists, run⟩ := Parse.exists_tokens_lambda identifier parsed
      have isCollect : IsIdentifier "collect" := by decide
      have isSumming : IsIdentifier "summing" := by decide
      have called := (qualified.consists (consists.call isSumming)).call isCollect
      have read := run [.symbol .rightParen, .symbol .rightParen]
        (Parse.expression_ignores (.bracket _))
      have ran := qualified.run_summing_lambda read
      refine Chain.parse_between fronted backed called (Parse.run_stage_arguments rfl ?_)
      simp only [List.append_assoc, List.cons_append, List.nil_append]
      exact Parse.run_map_eq_ok.2 ⟨_, ran, rfl⟩
  | @key name make earlier later _ write key member others form =>
      by_cases refused : bare = true ∧ (Parse.direction? parameter).isSome
      · rw [if_pos refused]
        obtain ⟨direction, found⟩ := Option.isSome_iff_exists.1 refused.2
        cases form with
        | bare directed =>
            exact Chain.parse_direction_arrow fronted backed member found identifier parsed directed
              others
        | behindBy | factory => cases refused.1
      · rw [if_neg refused]
        have allowed : bare = true → Parse.direction? parameter = none := by
          simpa using refused
        have alone := form.parse_lambda identifier parsed allowed
        exact Chain.parse_key fronted backed member alone others

set_option maxRecDepth 4096 in
/-- A parameter may be called `by`, and a lambda may stand behind a direction. -/
theorem Chain.parse_lambda_place_by :
    IsIdentifier "by" ∧ Expr.parse "by.weight" = .ok (.field (.reference "by") "weight") ∧
      Chain.parse ".filter(by).sorted(asc then by -> by.weight desc).limit(2)" =
        .ok [.filter (.field "by"),
          .sorted (some ⟨[⟨.identity, .ascending⟩,
            ⟨.lambda ⟨"by", .field (.reference "by") "weight"⟩, .descending⟩]⟩), .limit 2] := by
  have others : ∀ other ∈ [("asc", (⟨.identity, .ascending⟩ : SortKey))] ++ [],
      SortKey.parse other.1 = .ok other.2 := by
    intro other member
    cases List.mem_singleton.1 member
    rfl
  have stage : ("sorted", fun comparator => Stage.sorted (some comparator)) ∈
      Parse.comparatorStages := .head _
  have descending : Parse.direction? "desc" = some .descending := rfl
  have place := LambdaPlace.key stage others (.bare (.word descending))
  have identifier : IsIdentifier "by" := by decide
  have body : Expr.parse "by.weight" = .ok (.field (.reference "by") "weight") := by rfl
  have front : Chain.Part ".filter(by)" [.filter (.field "by")] := .chain rfl
  have back : Chain.Part ".limit(2)" [.limit 2] := .chain rfl
  have law := parse_lambda_place place identifier body front back
  rw [if_neg (by decide)] at law
  exact ⟨identifier, body, by simpa [Script.call, Script.lambda] using law⟩

set_option maxRecDepth 4096 in
/-- A parameter of a sort key that is called like a direction is refused. -/
theorem Chain.parse_lambda_place_asc :
    LambdaPlace true (Script.call "sorted") (fun function =>
        .sorted (some ⟨[⟨.lambda function, .ascending⟩]⟩)) ∧
      IsIdentifier "asc" ∧ Expr.parse "asc" = .ok (.reference "asc") ∧
      "." ++ Script.call "sorted" (Script.lambda "asc" "asc") = ".sorted(asc -> asc)" ∧
      Chain.parse ".sorted(asc -> asc)" =
        .error (.unexpected (.symbol .rightParen) (some (.symbol .arrow))) := by
  have stage : ("sorted", fun comparator => Stage.sorted (some comparator)) ∈
      Parse.comparatorStages := .head _
  have alone : ∀ other ∈ ([] : List (String × SortKey)) ++ [],
      SortKey.parse other.1 = .ok other.2 := nofun
  have place := LambdaPlace.key stage alone (.bare .omitted)
  refine ⟨?_, by decide, rfl, by simp [Script.call, Script.lambda], rfl⟩
  simpa using place

end Pipeline
