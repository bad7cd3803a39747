import Pipeline.Proofs.Reparsing
import Pipeline.Proofs.Spelling

/-! A chain that is written as a script and parsed is the chain again. -/

set_option autoImplicit false

namespace Pipeline

open Grammar

namespace Parse

variable {rest : List Token}

/-! ## Selectors and sort keys -/

/-- Of all symbols, only a closing bracket may follow. -/
def Closed (rest : List Token) : Prop :=
  ∀ symbol, rest.head? = some (.symbol symbol) → symbol = .rightParen

theorem Closed.stops (closed : Closed rest) : Stops Level.conditional.rank rest := by
  intro symbol first
  cases closed symbol first
  decide

theorem closed_rightParen (rest : List Token) : Closed (.symbol .rightParen :: rest) := by
  intro symbol first
  cases first
  rfl

theorem closed_name (name : String) (rest : List Token) : Closed (.name name :: rest) :=
  fun _ first => nomatch first

theorem lambda_run (function : Lambda) (closed : Closed rest) :
    lambda.run ⟨function.tokens ++ rest, none⟩ =
      granted (function.body.nesting + 1) nestingLimit function rest := by
  rw [lambda, Lambda.tokens, List.cons_append, run_expectName_cons_bind, List.cons_append,
    run_expect_cons_bind]
  exact run_bind_granted_pure (expression_run closed.stops) rfl

theorem selector_run {given : Selector} (some : given ≠ .identity) (closed : Closed rest) :
    selector.run ⟨given.tokens ++ rest, none⟩ =
      granted given.nesting nestingLimit given rest := by
  rw [selector, run_get_bind]
  cases given with
  | identity => exact absurd rfl some
  | field name =>
      rw [Selector.tokens, List.singleton_append]
      simp only [Cursor.current, Cursor.peek, List.head?_cons, List.tail_cons]
      split
      · rename_i second
        cases closed _ second
      · rename_i same _
        cases same
        rw [run_advance_cons_bind]
        exact (granted_zero _ _ _).symm
      · rename_i noName _
        exact absurd rfl (noName name)
  | lambda function => exact run_bind_granted_pure (lambda_run function closed) rfl

theorem head?_selector {given : Selector} (some : given ≠ .identity) (rest : List Token) :
    ∃ name, (given.tokens ++ rest).head? = Option.some (.name name) := by
  cases given with
  | identity => exact absurd rfl some
  | field name => exact ⟨name, rfl⟩
  | lambda function => exact ⟨function.parameter, rfl⟩

theorem optionalSelector_run (given : Selector) :
    optionalSelector.run ⟨given.tokens ++ .symbol .rightParen :: rest, none⟩ =
      granted given.nesting nestingLimit given (.symbol .rightParen :: rest) := by
  by_cases identity : given = .identity
  · subst identity
    rw [optionalSelector, Selector.tokens, List.nil_append, run_atSymbol_cons_bind,
      Selector.nesting, granted_zero]
    rfl
  · obtain ⟨name, first⟩ := head?_selector identity (.symbol .rightParen :: rest)
    rw [optionalSelector, run_atSymbol_ne_bind (by simp [first])]
    exact selector_run identity (closed_rightParen rest)

theorem optionalDirection_run (direction : Direction) :
    optionalDirection.run ⟨.name direction.word :: rest, none⟩ =
      .ok (some direction, ⟨rest, none⟩) := by
  cases direction <;> rfl

/-- Neither a factory nor a direction starts with `by`, and no arrow follows it. -/
theorem directedKey_run {given : Selector} (some : given ≠ .identity) (direction : Direction) :
    sortKey.run ⟨.name "by" :: (given.tokens ++ .name direction.word :: rest), none⟩ =
      granted given.nesting nestingLimit ⟨given, direction⟩ rest := by
  obtain ⟨name, first⟩ := head?_selector some (.name direction.word :: rest)
  have undirected : optionalDirection.run
        ⟨.name "by" :: (given.tokens ++ .name direction.word :: rest), none⟩ =
      .ok (none, ⟨.name "by" :: (given.tokens ++ .name direction.word :: rest), none⟩) := rfl
  rw [sortKey, run_atNameThen_bind]
  change StateT.run (optionalDirection >>= _) _ = _
  rw [run_bind_ok undirected, run_atName_cons_bind, run_atNameThen_bind]
  simp only [Cursor.peek, List.tail_cons, first]
  change StateT.run (advance >>= _) _ = _
  rw [run_advance_cons_bind]
  refine run_bind_granted_pure (selector_run some (closed_name _ rest)) ?_
  rw [run_bind_ok (optionalDirection_run direction)]
  rfl

theorem sortKey_run (key : SortKey) :
    sortKey.run ⟨key.tokens ++ rest, none⟩ =
      granted key.selector.nesting nestingLimit key rest := by
  obtain ⟨selector, direction⟩ := key
  cases selector with
  | identity =>
      rw [SortKey.tokens, Selector.nesting, granted_zero]
      cases direction <;> rfl
  | field name | lambda function =>
      rw [SortKey.tokens, List.cons_append, List.append_assoc]
      · exact directedKey_run (by simp) direction
      · simp

theorem furtherKeys_run (keys : List SortKey) {bound : Nat}
    (long : (keys.flatMap fun key => .name "then" :: key.tokens).length ≤ bound)
    (ended : rest.head? ≠ some (.name "then")) :
    (furtherKeys bound).run
        ⟨(keys.flatMap fun key => .name "then" :: key.tokens) ++ rest, none⟩ =
      granted (keys.foldr (fun key deepest => max key.selector.nesting deepest) 0) nestingLimit
        keys rest := by
  induction keys generalizing bound with
  | nil =>
      rw [List.foldr_nil, granted_zero]
      cases bound with
      | zero => rfl
      | succ bound =>
          rw [furtherKeys, List.flatMap_nil, List.nil_append, run_atName_ne_bind ended]
          rfl
  | cons key keys ih =>
      rw [List.flatMap_cons] at long ⊢
      simp only [List.length_append, List.length_cons] at long
      obtain ⟨bound, rfl⟩ := Nat.exists_eq_succ_of_ne_zero (show bound ≠ 0 by omega)
      rw [furtherKeys, List.append_assoc, List.cons_append, run_atName_cons_bind, if_pos rfl,
        run_advance_cons_bind]
      refine run_bind_granted (sortKey_run key) ?_
      exact run_bind_granted_pure (ih (by omega)) rfl

theorem tokens_comparator_cons (key : SortKey) (keys : List SortKey) :
    (Comparator.mk (key :: keys)).tokens =
      key.tokens ++ keys.flatMap fun key => .name "then" :: key.tokens := by
  rw [Comparator.tokens, List.map_cons]
  induction keys generalizing key with
  | nil => rw [List.map_nil, List.intercalate_singleton, List.flatMap_nil, List.append_nil]
  | cons next keys ih =>
      rw [List.map_cons, List.intercalate_cons_cons, ih, List.flatMap_cons, List.append_assoc]
      rfl

theorem comparator_run {given : Comparator} (some : given.keys ≠ [])
    (ended : rest.head? ≠ Option.some (.name "then")) :
    comparator.run ⟨given.tokens ++ rest, none⟩ =
      granted given.nesting nestingLimit given rest := by
  obtain ⟨keys⟩ := given
  obtain ⟨key, keys, rfl⟩ := List.exists_cons_of_ne_nil some
  rw [comparator, tokens_comparator_cons, List.append_assoc]
  refine run_bind_granted (sortKey_run key) ?_
  rw [run_remaining_bind]
  refine run_bind_granted_pure (furtherKeys_run keys ?_ ended) rfl
  simp only [List.length_append]
  omega

theorem head?_sortKey (key : SortKey) (rest : List Token) :
    ∃ name, (key.tokens ++ rest).head? = some (.name name) := by
  obtain ⟨selector, direction⟩ := key
  cases selector <;> exact ⟨_, rfl⟩

theorem optionalComparator_run {given : Option Comparator}
    (some : ∀ comparator, given = some comparator → comparator.keys ≠ []) :
    optionalComparator.run ⟨given.elim [] Comparator.tokens ++ .symbol .rightParen :: rest, none⟩ =
      granted (given.elim 0 Comparator.nesting) nestingLimit given
        (.symbol .rightParen :: rest) := by
  cases given with
  | none =>
      rw [Option.elim_none, Option.elim_none, granted_zero, optionalComparator, List.nil_append,
        run_atSymbol_cons_bind]
      rfl
  | some given =>
      have keys := some given rfl
      obtain ⟨key, others, same⟩ := List.exists_cons_of_ne_nil keys
      have first : ∃ name, (given.tokens ++ .symbol .rightParen :: rest).head? =
          Option.some (.name name) := by
        obtain ⟨keys⟩ := given
        cases same
        rw [tokens_comparator_cons, List.append_assoc]
        exact head?_sortKey key _
      obtain ⟨name, first⟩ := first
      rw [Option.elim_some, Option.elim_some, optionalComparator,
        run_atSymbol_ne_bind (by simp [first])]
      exact run_bind_granted_pure (comparator_run keys (by simp)) rfl

/-! ## Stages -/

theorem count_run (stage : CountedStage) {value : Nat} (bound : value < Nat.pow 2 64) :
    (count stage).run ⟨.integer (String.ofList (Nat.toDigits 10 value)) :: rest, none⟩ =
      .ok (value, ⟨rest, none⟩) := by
  rw [count, run_current_bind]
  simp only [Cursor.current, List.head?_cons, String.toList_ofList,
    digitsValue_toDigits, if_pos bound]
  rw [run_advance_cons_bind]
  rfl

theorem aggregatorArguments_run {name : String} {parser : Parse Aggregator} {given : Aggregator}
    {tokens : List Token} {need : Nat} (named : aggregatorArguments name = parser)
    (ran : parser.run ⟨tokens ++ .symbol .rightParen :: rest, none⟩ =
      granted need nestingLimit given (.symbol .rightParen :: rest)) :
    aggregator.run ⟨.name name :: bracketed tokens ++ rest, none⟩ =
      granted need nestingLimit given rest := by
  have noCollectors : ((Cursor.mk (.name name :: bracketed tokens ++ rest) none).peek ==
      some (.symbol .dot)) = false := rfl
  rw [aggregator, run_atNameThen_bind, noCollectors, Bool.and_false]
  change StateT.run (expectName .aggregator >>= _) _ = _
  rw [List.cons_append, run_expectName_cons_bind, bracketed, List.cons_append, List.append_assoc,
    run_expect_cons_bind, named, List.singleton_append]
  refine run_bind_granted_pure ran ?_
  rw [run_expect_cons_bind]
  rfl

theorem aggregator_run {given : Aggregator} (expressible : given.Expressible) :
    aggregator.run ⟨given.tokens ++ rest, none⟩ =
      granted (Stage.collect given).nesting nestingLimit given rest := by
  cases given with
  | toList | toSet | counting => exact aggregatorArguments_run rfl (granted_zero _ _ _).symm
  | joining separator => exact aggregatorArguments_run rfl (granted_zero _ _ _).symm
  | summing selector =>
      have some : selector ≠ .identity := by
        rintro rfl
        exact expressible
      exact aggregatorArguments_run rfl
        (run_map_granted _ (selector_run some (closed_rightParen rest)))

/-- The arguments of a stage are found by its name and read up to the closing bracket. -/
theorem stageArguments_run {given : Stage} (expressible : given.Expressible) :
    ∃ arguments, stageArguments? given.name = some arguments ∧
      ∀ rest, arguments.run ⟨given.argumentTokens ++ .symbol .rightParen :: rest, none⟩ =
        granted given.nesting nestingLimit given (.symbol .rightParen :: rest) := by
  cases given with
  | filter selector | map selector | groupBy selector =>
      have some : selector ≠ .identity := by
        rintro rfl
        exact expressible
      exact ⟨_, rfl, fun rest =>
        run_map_granted _ (selector_run some (closed_rightParen rest))⟩
  | flatMap function =>
      exact ⟨_, rfl, fun rest =>
        run_map_granted _ (lambda_run function (closed_rightParen rest))⟩
  | sorted comparator =>
      have keys : ∀ given, comparator = some given → given.keys ≠ [] :=
        fun given same => (expressible given same).1
      exact ⟨_, rfl, fun rest => run_map_granted _ (optionalComparator_run keys)⟩
  | distinct => exact ⟨_, rfl, fun rest => (granted_zero _ _ _).symm⟩
  | max comparator | min comparator =>
      have keys : ∀ given, some comparator = some given → given.keys ≠ [] := by
        rintro given ⟨⟩
        exact expressible.1
      exact ⟨_, rfl, fun rest => run_map_granted _ (optionalComparator_run keys)⟩
  | sum selector =>
      exact ⟨_, rfl, fun rest => run_map_granted _ (optionalSelector_run selector)⟩
  | collect aggregator =>
      exact ⟨_, rfl, fun rest => run_map_granted _ (aggregator_run expressible)⟩
  | limit count =>
      exact ⟨_, rfl, fun rest => run_map_granted _
        ((count_run .limit expressible).trans (granted_zero _ _ _).symm)⟩
  | skip count =>
      exact ⟨_, rfl, fun rest => run_map_granted _
        ((count_run .skip expressible).trans (granted_zero _ _ _).symm)⟩

theorem stage_run {given : Stage} (expressible : given.Expressible) :
    stage.run ⟨.name given.name :: bracketed given.argumentTokens ++ rest, none⟩ =
      granted given.nesting nestingLimit given rest := by
  obtain ⟨arguments, found, ran⟩ := stageArguments_run expressible
  rw [stage, List.cons_append, run_expectName_cons_bind]
  simp only [found]
  rw [bracketed, List.cons_append, List.append_assoc, run_expect_cons_bind, List.singleton_append]
  refine run_bind_granted_pure (ran rest) ?_
  rw [run_expect_cons_bind]
  rfl

/-- No stage is called `orElseThrow`, so none is taken for a modifier of the one before. -/
theorem stages_run {chain : Chain} (expressible : ∀ stage ∈ chain, stage.Expressible)
    (previous : Option Stage) {bound : Nat} (long : chain.tokens.length ≤ bound) :
    (stages previous bound).run ⟨chain.tokens, none⟩ =
      granted chain.nesting nestingLimit chain [] := by
  induction chain generalizing previous bound with
  | nil =>
      rw [Chain.nesting, List.foldr_nil, granted_zero]
      cases bound <;> rfl
  | cons given others ih =>
      obtain ⟨first, behind⟩ := List.forall_mem_cons.1 expressible
      have other : given.name ≠ "orElseThrow" := by cases given <;> simp [Stage.name]
      rw [Chain.tokens, List.flatMap_cons, ← Chain.tokens, Stage.tokens] at long ⊢
      simp only [List.length_append, List.length_cons] at long
      obtain ⟨bound, rfl⟩ := Nat.exists_eq_succ_of_ne_zero (show bound ≠ 0 by omega)
      rw [stages, List.cons_append, run_atSymbol_cons_bind, if_pos rfl, run_advance_cons_bind,
        run_atName_ne_bind (by simp [other]), if_neg Bool.false_ne_true]
      refine run_bind_granted (stage_run first) ?_
      exact run_bind_granted_pure (ih behind (some given) (by omega)) rfl

theorem tokens_eq_cons {chain : Chain} (some : chain ≠ []) :
    ∃ tokens, chain.tokens = .symbol .dot :: tokens := by
  obtain ⟨stage, others, rfl⟩ := List.exists_cons_of_ne_nil some
  exact ⟨_, rfl⟩

theorem wholeChain_run {chain : Chain} (expressible : chain.Expressible) :
    wholeChain.run ⟨chain.tokens, none⟩ = granted chain.nesting nestingLimit chain [] := by
  obtain ⟨tokens, dotted⟩ := tokens_eq_cons expressible.1
  rw [wholeChain, dotted, run_atSymbol_cons_bind, if_pos rfl, run_remaining_bind, ← dotted]
  exact run_bind_granted_pure (stages_run expressible.2 none (Nat.le_refl _)) rfl

end Parse

/-- The tokens are read back from their spelling, and the chain from its tokens. -/
theorem Chain.parse_print (spelling : Spelling) {chain : Chain} (expressible : chain.Expressible) :
    Chain.parse (chain.print spelling) =
      if chain.nesting ≤ nestingLimit then .ok chain else .error .tooDeep := by
  have lexes := Scan.lexes_spellAll spelling expressible.spellable
  have run := Parse.wholeChain_run expressible
  obtain ⟨tokens, dotted⟩ := Parse.tokens_eq_cons expressible.1
  rw [← String.toList_ofList (l := Token.spellAll spelling chain.tokens), dotted] at lexes
  rw [dotted] at run
  rw [Chain.print, dotted, Chain.parse_of_lexes lexes rfl, run, Parse.granted]
  split <;> rfl

/-- Names that are words of the language elsewhere, and numbers behind signs. -/
def Chain.wordsAsNames : Chain :=
  [.filter (.lambda ⟨"then", .binary (.relation .less)
      (.field (.reference "then") "orElseThrow") (.literal (.number (.integer (-5))))⟩),
    .sorted (some ⟨[⟨.field "by", .descending⟩, ⟨.identity, .ascending⟩,
      ⟨.lambda ⟨"desc", .unary .negate (.literal (.number (.float ⟨0xbff8000000000000⟩)))⟩,
        .ascending⟩]⟩),
    .map (.field "Comparator"),
    .collect (.joining "\"\\\n")]

theorem Chain.parse_print_wordsAsNames :
    wordsAsNames.Expressible ∧
      wordsAsNames.print .exact =
        ".filter(then -> ((then).orElseThrow) < (-5))" ++
        ".sorted(by by desc then asc then by desc -> - (-1.5) asc)" ++
        ".map(Comparator).collect(joining(\"\\\"\\\\\\n\"))" ∧
      Chain.parse (wordsAsNames.print .exact) = .ok wordsAsNames := by
  have names : IsIdentifier "then" ∧ IsIdentifier "orElseThrow" ∧ IsIdentifier "by" ∧
      IsIdentifier "desc" ∧ IsIdentifier "Comparator" := by
    refine ⟨?_, ?_, ?_, ?_, ?_⟩
    all_goals exact isIdentifier_of_letters (by decide) (by decide) (by decide)
  have finite : (Double.mk 0xbff8000000000000).isFinite = true := by decide +kernel
  have expressible : wordsAsNames.Expressible := by
    obtain ⟨isThen, isOrElseThrow, isBy, isDesc, isComparator⟩ := names
    have keyed : Lambda.Expressible ⟨"desc",
        .unary .negate (.literal (.number (.float ⟨0xbff8000000000000⟩)))⟩ :=
      ⟨isDesc, .unary (.float finite)⟩
    refine ⟨List.cons_ne_nil _ _, ?_⟩
    simp only [wordsAsNames, List.forall_mem_cons]
    refine ⟨⟨isThen, .binary (.field (.reference isThen) isOrElseThrow) .integer⟩, ?_,
      isComparator, trivial, nofun⟩
    rintro comparator ⟨⟩
    refine ⟨List.cons_ne_nil _ _, ?_⟩
    simp only [List.forall_mem_cons]
    exact ⟨.inr isBy, .inl trivial, .inr keyed, nofun⟩
  have shallow : wordsAsNames.nesting ≤ nestingLimit := by decide
  refine ⟨expressible, by decide +kernel, ?_⟩
  rw [Chain.parse_print .exact expressible, if_pos shallow]

end Pipeline
