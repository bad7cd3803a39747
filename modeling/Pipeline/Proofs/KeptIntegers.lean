import Pipeline.Proofs.BoundedIntegers
import Pipeline.Proofs.ChainSelectors
import Pipeline.Proofs.Decimals
import Pipeline.Proofs.ParserEndings

/-! The integers of a script, which its parsers keep: whatever is accepted has an integer of the
same size for each integer among the tokens, in their order, and no other ones. -/

set_option autoImplicit false

namespace Pipeline

open Grammar

/-! ## The sizes of integers -/

namespace Token

/-- What the digits of an integer denote. -/
def size? : Token → Option Nat
  | integer digits => some (Nat.ofDigitChars 10 digits.toList 0)
  | _ => none

def sizes (tokens : List Token) : List Nat :=
  tokens.filterMap size?

@[simp]
theorem sizes_nil : sizes [] = [] :=
  rfl

@[simp]
theorem sizes_append (first second : List Token) :
    sizes (first ++ second) = sizes first ++ sizes second :=
  List.filterMap_append

@[simp]
theorem sizes_cons_integer (digits : String) (tokens : List Token) :
    sizes (.integer digits :: tokens) = Nat.ofDigitChars 10 digits.toList 0 :: sizes tokens :=
  rfl

theorem sizes_cons_of_none {token : Token} (other : token.size? = none) (tokens : List Token) :
    sizes (token :: tokens) = sizes tokens :=
  List.filterMap_cons_none other

@[simp]
theorem sizes_cons_symbol (symbol : Symbol) (tokens : List Token) :
    sizes (.symbol symbol :: tokens) = sizes tokens :=
  rfl

@[simp]
theorem sizes_cons_name (name : String) (tokens : List Token) :
    sizes (.name name :: tokens) = sizes tokens :=
  rfl

end Token

mutual

def Expr.sizes : Expr → List Nat
  | .literal (.number (.integer n)) => [n.toInt.natAbs]
  | .literal _ | .reference _ => []
  | .field object _ => sizes object
  | .unary _ operand => sizes operand
  | .binary _ left right => sizes left ++ sizes right
  | .conditional condition thenBranch elseBranch =>
    sizes condition ++ (sizes thenBranch ++ sizes elseBranch)
  | .method object _ arguments => sizes object ++ sizesOfAll arguments
  | .call _ arguments => sizesOfAll arguments
termination_by structural expr => expr

def Expr.sizesOfAll : List Expr → List Nat
  | [] => []
  | expr :: rest => sizes expr ++ sizesOfAll rest
termination_by structural exprs => exprs

end

def Selector.sizes : Selector → List Nat
  | identity | field _ => []
  | lambda function => function.body.sizes

def Comparator.sizes (comparator : Comparator) : List Nat :=
  comparator.keys.flatMap (·.selector.sizes)

def Aggregator.sizes : Aggregator → List Nat
  | summing selector => selector.sizes
  | toList | toSet | counting | joining _ => []

/-- The sizes of the integers in the arguments of a stage, counts among them. -/
def Stage.sizes : Stage → List Nat
  | filter selector | map selector | sum selector | groupBy selector => selector.sizes
  | flatMap function => function.body.sizes
  | sorted comparator => comparator.elim [] Comparator.sizes
  | max comparator | min comparator => comparator.sizes
  | collect aggregator => aggregator.sizes
  | limit count | skip count => [count]
  | distinct => []

def Chain.sizes (chain : Chain) : List Nat :=
  chain.flatMap Stage.sizes

/-! ## Expressions -/

namespace Grammar

theorem natAbs_of_integer? {negative : Bool} {digits : String} {n : Int64}
    (fits : integer? negative digits = some n) :
    n.toInt.natAbs = Nat.ofDigitChars 10 digits.toList 0 := by
  rw [← digitsValue_eq, boundedInteger?_eq_some_iff.1 fits]
  cases negative
  · exact Int.natAbs_natCast _
  · exact (Int.natAbs_neg _).trans (Int.natAbs_natCast _)

theorem Separated.sizes {arguments : List (List Token × Tree)} {written : List Token}
    (separated : Separated (arguments.map Prod.fst) written)
    (each : ∀ argument ∈ arguments, ∀ {expr : Expr}, argument.2.expr? = some expr →
      Token.sizes argument.1 = expr.sizes)
    {exprs : List Expr} (fit : Tree.exprs? (arguments.map Prod.snd) = some exprs) :
    Token.sizes written = Expr.sizesOfAll exprs := by
  induction arguments generalizing written exprs with
  | nil =>
      cases fit
      cases separated
      rfl
  | cons argument arguments ih =>
      obtain ⟨first, rest⟩ := List.forall_mem_cons.1 each
      obtain ⟨expr, exprs, fits, others, rfl⟩ := Tree.exprs?_cons_eq_some.1 fit
      rw [List.map_cons] at separated
      generalize same : arguments.map Prod.fst = list at separated
      cases separated with
      | last =>
          cases List.map_eq_nil_iff.1 same
          cases others
          rw [first fits, Expr.sizesOfAll, Expr.sizesOfAll, List.append_nil]
      | more separated =>
          rw [Token.sizes_append, Token.sizes_cons_symbol, first fits,
            ih (same ▸ separated) rest others, Expr.sizesOfAll]

/-- An expression has the integers of the tokens that it is derived from. -/
theorem Derives.sizes {level : Level} {tokens : List Token} {tree : Tree}
    (derives : Derives level tokens tree) {expr : Expr} (fits : tree.expr? = some expr) :
    Token.sizes tokens = expr.sizes := by
  induction derives generalizing expr with
  | tighter _ _ ih => exact ih fits
  | conditional _ _ _ condition thenBranch elseBranch =>
      obtain ⟨first, second, third, firstFits, secondFits, thirdFits, rfl⟩ :=
        Tree.expr?_conditional_eq_some.1 fits
      simp [Expr.sizes, condition firstFits, thenBranch secondFits, elseBranch thirdFits]
  | join _ _ _ _ left right | compare _ _ _ left right =>
      obtain ⟨first, second, firstFits, secondFits, rfl⟩ := Tree.expr?_binary_eq_some.1 fits
      simp [Expr.sizes, left firstFits, right secondFits]
  | not _ operand | negate _ _ operand =>
      obtain ⟨inner, innerFits, rfl⟩ := Option.map_eq_some_iff.1 fits
      simp [Expr.sizes, operand innerFits]
  | negativeInteger | integer =>
      obtain ⟨n, bounded, rfl⟩ := Option.map_eq_some_iff.1 fits
      simp [Expr.sizes, natAbs_of_integer? bounded]
  | negativeFloat | float | text | boolean | reference =>
      cases fits
      rfl
  | field _ _ object =>
      obtain ⟨inner, innerFits, rfl⟩ := Option.map_eq_some_iff.1 fits
      simp [Expr.sizes, object innerFits]
  | method _ _ _ separated object each =>
      obtain ⟨inner, exprs, innerFits, exprsFit, rfl⟩ := Tree.expr?_method_eq_some.1 fits
      simp [Expr.sizes, object innerFits, separated.sizes each exprsFit]
  | call _ separated each =>
      obtain ⟨exprs, exprsFit, rfl⟩ := Option.map_eq_some_iff.1 fits
      simp [Expr.sizes, separated.sizes each exprsFit]
  | parentheses _ ih => simp [ih fits]

end Grammar

/-! ## Parsers -/

namespace Parse

variable {α β : Type}

/-- Where the parser succeeds at the cursor, its result has the sizes before it and those of the
integers that it passes. -/
def CountsAt (cursor : Cursor) (parser : Parse α) (before : List Nat) (sizes : α → List Nat) :
    Prop :=
  ∀ (after : Cursor) (result : α), parser.run cursor = .ok (result, after) →
    before ++ Token.sizes cursor.tokens = sizes result ++ Token.sizes after.tokens

def Counts (parser : Parse α) (before : List Nat) (sizes : α → List Nat) : Prop :=
  ∀ cursor, CountsAt cursor parser before sizes

section Steps

variable {cursor after : Cursor} {before : List Nat} {sizes : β → List Nat}

theorem CountsAt.pure {value : β} (same : before = sizes value) :
    CountsAt cursor (pure value : Parse β) before sizes := by
  intro after result accepted
  cases accepted
  rw [same]

theorem Counts.pure {value : β} (same : before = sizes value) :
    (pure value : Parse β).Counts before sizes :=
  fun _ => .pure same

theorem CountsAt.throw (error : ParseError) :
    CountsAt cursor (throw error : Parse β) before sizes := by
  intro after result accepted
  cases accepted

theorem CountsAt.bind {first : Parse α} {next : α → Parse β} {middle : α → List Nat}
    (firstCounts : CountsAt cursor first before middle)
    (nextCounts : ∀ value, (next value).Counts (middle value) sizes) :
    CountsAt cursor (first >>= next) before sizes := by
  intro after result accepted
  obtain ⟨value, between, ran, further⟩ := run_bind_eq_ok.1 accepted
  exact (firstCounts _ _ ran).trans (nextCounts value _ _ _ further)

theorem Counts.bind {first : Parse α} {next : α → Parse β} {middle : α → List Nat}
    (firstCounts : first.Counts before middle)
    (nextCounts : ∀ value, (next value).Counts (middle value) sizes) :
    (first >>= next).Counts before sizes :=
  fun cursor => (firstCounts cursor).bind nextCounts

theorem Counts.map {parser : Parse α} {sizesBefore : α → List Nat}
    (counts : parser.Counts before sizesBefore) {image : α → β}
    (same : ∀ value, sizesBefore value = sizes (image value)) :
    (image <$> parser).Counts before sizes := by
  rw [map_eq_pure_bind]
  exact counts.bind fun value => .pure (same value)

/-! ### Steps that look at the cursor -/

theorem countsAt_get_bind {next : Cursor → Parse β} :
    CountsAt cursor (get >>= next) before sizes ↔
      CountsAt cursor (next cursor) before sizes :=
  .rfl

theorem countsAt_current_bind {next : Option Token → Parse β} :
    CountsAt cursor (current >>= next) before sizes ↔
      CountsAt cursor (next cursor.current) before sizes :=
  .rfl

theorem countsAt_atSymbol_bind {symbol : Symbol} {next : Bool → Parse β} :
    CountsAt cursor (atSymbol symbol >>= next) before sizes ↔
      CountsAt cursor (next (cursor.current == some (.symbol symbol))) before sizes :=
  .rfl

theorem countsAt_atName_bind {name : String} {next : Bool → Parse β} :
    CountsAt cursor (atName name >>= next) before sizes ↔
      CountsAt cursor (next (cursor.current == some (.name name))) before sizes :=
  .rfl

theorem countsAt_atNameThen_bind {name : String} {token : Token} {next : Bool → Parse β} :
    CountsAt cursor (atNameThen name token >>= next) before sizes ↔
      CountsAt cursor (next (cursor.current == some (.name name) && cursor.peek == some token))
        before sizes :=
  .rfl

theorem Counts.remaining_bind {next : Nat → Parse β}
    (counts : ∀ bound, (next bound).Counts before sizes) :
    (remaining >>= next).Counts before sizes :=
  fun cursor => counts cursor.tokens.length cursor

/-! ### Steps that pass a token -/

theorem sizes_of_passes {token : Token} (passes : cursor.Passes token after)
    (other : token.size? = none) : Token.sizes cursor.tokens = Token.sizes after.tokens := by
  rw [passes.1, Token.sizes_cons_of_none other]

theorem expect_counts (symbol : Symbol) : (expect symbol).Counts before fun _ => before := by
  intro cursor after result accepted
  rw [sizes_of_passes (passes_of_expect accepted) rfl]

theorem expectName_counts (expected : Expected) :
    (expectName expected).Counts before fun _ => before := by
  intro cursor after result accepted
  rw [sizes_of_passes (passes_of_expectName accepted) rfl]

/-- A name or a symbol that is in view is passed, and the token behind it comes into view. -/
theorem CountsAt.advance_bind_peek {next : Unit → Parse β} {token : Token}
    (current : cursor.current = some token) (other : token.size? = none)
    (counts : ∀ middle : Cursor, middle.current = cursor.peek →
      CountsAt middle (next ()) before sizes) :
    CountsAt cursor (advance >>= next) before sizes := by
  intro after result accepted
  obtain ⟨_, middle, advanced, accepted⟩ := run_bind_eq_ok.1 accepted
  have passes := passes_of_run_advance current advanced
  rw [sizes_of_passes passes other]
  refine counts middle ?_ _ _ accepted
  rw [Cursor.peek, passes.1]
  rfl

theorem CountsAt.advance_bind {next : Unit → Parse β} {token : Token}
    (current : cursor.current = some token) (other : token.size? = none)
    (counts : (next ()).Counts before sizes) :
    CountsAt cursor (advance >>= next) before sizes :=
  .advance_bind_peek current other fun middle _ => counts middle

end Steps

variable {before : List Nat}

theorem expression_counts : expression.Counts before fun expr => before ++ expr.sizes := by
  intro cursor after expr accepted
  obtain ⟨-, tree, fits, reads⟩ := expression_readsAs _ _ _ accepted
  obtain ⟨taken, all, derives⟩ := reads.means
  rw [all, Token.sizes_append, derives.sizes fits, List.append_assoc]

theorem lambda_counts : lambda.Counts before fun function => before ++ function.body.sizes :=
  .bind (expectName_counts _) fun _ => .bind (expect_counts _) fun _ =>
    .bind expression_counts fun _ => .pure rfl

theorem selector_counts : selector.Counts before fun selector => before ++ selector.sizes := by
  intro cursor
  rw [selector, countsAt_get_bind]
  split
  · exact (lambda_counts cursor).bind fun _ => .pure rfl
  · rename_i current _
    exact .advance_bind current rfl (.pure (List.append_nil _).symm)
  · exact .throw _

theorem optionalSelector_counts :
    optionalSelector.Counts before fun selector => before ++ selector.sizes := by
  intro cursor
  rw [optionalSelector, countsAt_atSymbol_bind]
  split
  · exact .pure (List.append_nil _).symm
  · exact selector_counts cursor

theorem optionalDirection_counts : optionalDirection.Counts before fun _ => before := by
  intro cursor
  rw [optionalDirection, countsAt_current_bind]
  split
  · rename_i current
    split
    · exact .advance_bind current rfl (.pure rfl)
    · exact .pure rfl
  · exact .pure rfl

theorem reversals_counts (direction : Direction) (bound : Nat) :
    (reversals direction bound).Counts before fun _ => before := by
  induction bound generalizing direction with
  | zero => exact .pure rfl
  | succ bound ih =>
      intro cursor
      rw [reversals, countsAt_get_bind]
      split
      · rename_i reversed
        simp only [Bool.and_eq_true, beq_iff_eq] at reversed
        refine .advance_bind_peek reversed.1 rfl fun middle next => ?_
        refine .advance_bind (next.trans reversed.2) rfl ?_
        exact .bind (expect_counts _) fun _ => .bind (expect_counts _) fun _ => ih _
      · exact .pure rfl

/-! ### Comparators -/

theorem factoryKey_counts {cursor : Cursor} (named : cursor.current = some (.name "Comparator"))
    (dotted : cursor.peek = some (.symbol .dot)) :
    CountsAt cursor factoryKey before fun key => before ++ key.selector.sizes := by
  refine .advance_bind_peek named rfl fun middle next => ?_
  refine .advance_bind (next.trans dotted) rfl ?_
  refine .bind (expectName_counts _) fun factory => .bind (expect_counts _) fun _ => ?_
  split
  · exact .bind (expect_counts _) fun _ => .pure (List.append_nil _).symm
  · have ending (selector : Selector) : (do
        expect .rightParen
        return ⟨selector, ← reversals .ascending (← remaining)⟩ : Parse SortKey).Counts
          (before ++ selector.sizes) fun key => before ++ key.selector.sizes :=
      .bind (expect_counts _) fun _ => .remaining_bind fun bound =>
        .bind (reversals_counts _ bound) fun _ => .pure rfl
    dsimp only
    split
    · exact .bind selector_counts ending
    · split
      · exact .bind (.pure (List.append_nil _).symm) ending
      · exact fun _ => .throw _

theorem directedKey_counts :
    directedKey.Counts before fun key => before ++ key.selector.sizes :=
  .bind selector_counts fun _ => .bind optionalDirection_counts fun _ => .pure rfl

theorem sortKey_counts : sortKey.Counts before fun key => before ++ key.selector.sizes := by
  intro cursor
  rw [sortKey, countsAt_atNameThen_bind]
  split
  · rename_i factory
    simp only [Bool.and_eq_true, beq_iff_eq] at factory
    exact factoryKey_counts factory.1 factory.2
  · refine (optionalDirection_counts cursor).bind fun direction => ?_
    cases direction with
    | some direction => exact .pure (List.append_nil _).symm
    | none =>
        intro cursor
        dsimp only
        rw [countsAt_atName_bind, countsAt_atNameThen_bind]
        split
        · rename_i atBy
          simp only [Bool.and_eq_true, beq_iff_eq] at atBy
          exact .advance_bind atBy.1 rfl directedKey_counts
        · exact directedKey_counts cursor

theorem furtherKeys_counts (bound : Nat) : (furtherKeys bound).Counts before fun keys =>
    before ++ keys.flatMap (·.selector.sizes) := by
  induction bound generalizing before with
  | zero => exact .pure (List.append_nil _).symm
  | succ bound ih =>
      intro cursor
      rw [furtherKeys, countsAt_atName_bind]
      split
      · rename_i atThen
        refine .advance_bind (beq_iff_eq.1 atThen) rfl ?_
        refine .bind sortKey_counts fun key => .bind ih fun keys => .pure ?_
        rw [List.flatMap_cons, List.append_assoc]
      · exact .pure (List.append_nil _).symm

theorem comparator_counts :
    comparator.Counts before fun comparator => before ++ comparator.sizes := by
  refine .bind sortKey_counts fun key => .remaining_bind fun bound =>
    .bind (furtherKeys_counts bound) fun keys => .pure ?_
  rw [Comparator.sizes, List.flatMap_cons, List.append_assoc]

theorem optionalComparator_counts :
    optionalComparator.Counts before fun given => before ++ given.elim [] Comparator.sizes := by
  intro cursor
  rw [optionalComparator, countsAt_atSymbol_bind]
  split
  · exact .pure (List.append_nil _).symm
  · exact (comparator_counts cursor).bind fun _ => .pure rfl

/-! ### Stages -/

theorem count_counts (stage : CountedStage) :
    (count stage).Counts before fun value => before ++ [value] := by
  intro cursor
  rw [count, countsAt_current_bind]
  split
  · rename_i digits current
    dsimp only
    split
    · intro after value accepted
      obtain ⟨_, middle, advanced, same⟩ := run_bind_eq_ok.1 accepted
      cases same
      have passes := passes_of_run_advance current advanced
      rw [passes.1, Token.sizes_cons_integer, digitsValue_eq, List.append_assoc,
        List.singleton_append]
    · exact .throw _
  · exact .throw _

theorem optionalText_counts : optionalText.Counts before fun _ => before := by
  intro cursor
  rw [optionalText, countsAt_current_bind]
  split
  · rename_i current
    exact .advance_bind current rfl (.pure rfl)
  · exact .pure rfl

theorem aggregatorArguments_counts (name : String) :
    (aggregatorArguments name).Counts before fun aggregator => before ++ aggregator.sizes := by
  unfold aggregatorArguments
  split
  · exact .pure (List.append_nil _).symm
  · exact .pure (List.append_nil _).symm
  · exact .pure (List.append_nil _).symm
  · exact optionalText_counts.map fun _ => (List.append_nil _).symm
  · exact selector_counts.map fun _ => rfl
  · exact fun _ => .throw _

theorem aggregator_counts :
    aggregator.Counts before fun aggregator => before ++ aggregator.sizes := by
  have named : (do
      let name ← expectName .aggregator
      expect .leftParen
      let aggregator ← aggregatorArguments name
      expect .rightParen
      return aggregator : Parse Aggregator).Counts before
        fun aggregator => before ++ aggregator.sizes :=
    .bind (expectName_counts _) fun name => .bind (expect_counts _) fun _ =>
      .bind (aggregatorArguments_counts name) fun _ => .bind (expect_counts _) fun _ => .pure rfl
  intro cursor
  rw [aggregator, countsAt_atNameThen_bind]
  dsimp only
  split
  · rename_i collectors
    simp only [Bool.and_eq_true, beq_iff_eq] at collectors
    refine .advance_bind_peek collectors.1 rfl fun middle next => ?_
    exact .advance_bind (next.trans collectors.2) rfl named
  · exact named cursor

theorem stageArguments_counts {name : String} {arguments : Parse Stage}
    (found : stageArguments? name = some arguments) :
    arguments.Counts before fun stage => before ++ stage.sizes := by
  -- The comparator that is taken where none is given has no integers.
  have natural (given : Option Comparator) : before ++ given.elim [] Comparator.sizes =
      before ++ (given.getD .natural).sizes := by
    cases given with
    | none => rfl
    | some comparator => rfl
  unfold stageArguments? at found
  split at found <;> cases found
  · exact selector_counts.map fun _ => rfl
  · exact selector_counts.map fun _ => rfl
  · exact lambda_counts.map fun _ => rfl
  · exact optionalComparator_counts.map fun _ => rfl
  · exact optionalComparator_counts.map fun _ => rfl
  · exact .pure (List.append_nil _).symm
  · exact optionalComparator_counts.map natural
  · exact optionalComparator_counts.map natural
  · exact optionalComparator_counts.map natural
  · exact optionalComparator_counts.map natural
  · exact optionalSelector_counts.map fun _ => rfl
  · exact optionalSelector_counts.map fun _ => rfl
  · exact selector_counts.map fun _ => rfl
  · exact selector_counts.map fun _ => rfl
  · exact aggregator_counts.map fun _ => rfl
  · exact .pure (List.append_nil _).symm
  · exact .pure (List.append_nil _).symm
  · exact (count_counts .limit).map fun _ => rfl
  · exact (count_counts .skip).map fun _ => rfl

theorem stage_counts : stage.Counts before fun stage => before ++ stage.sizes := by
  refine .bind (expectName_counts _) fun name => ?_
  split
  · exact fun _ => .throw _
  · rename_i arguments found
    exact .bind (expect_counts _) fun _ => .bind (stageArguments_counts found) fun _ =>
      .bind (expect_counts _) fun _ => .pure rfl

theorem orElseThrow_counts {cursor : Cursor} (previous : Option Stage)
    (named : cursor.current = some (.name "orElseThrow")) :
    CountsAt cursor (orElseThrow previous) before fun _ => before := by
  refine .advance_bind named rfl ?_
  refine .bind (expect_counts _) fun _ => .bind (expect_counts _) fun _ => ?_
  split
  · exact fun _ => .throw _
  · exact .pure rfl

theorem stages_counts (previous : Option Stage) (bound : Nat) :
    (stages previous bound).Counts before fun chain => before ++ chain.sizes := by
  induction bound generalizing previous before with
  | zero => exact .pure (List.append_nil _).symm
  | succ bound ih =>
      intro cursor
      rw [stages, countsAt_atSymbol_bind]
      split
      · rename_i dot
        refine .advance_bind (beq_iff_eq.1 dot) rfl fun middle => ?_
        rw [countsAt_atName_bind]
        split
        · rename_i thrown
          exact .bind (orElseThrow_counts previous (beq_iff_eq.1 thrown)) fun _ => ih previous
        · refine .bind (stage_counts middle) fun stage => ?_
          refine .bind (ih (some stage)) fun rest => .pure ?_
          rw [Chain.sizes, Chain.sizes, List.flatMap_cons, List.append_assoc]
      · exact .pure (List.append_nil _).symm

/-- Where nothing is left, all integers are in the result. -/
theorem CountsAt.sizes_eq {α : Type} {cursor after : Cursor} {parser : Parse α}
    {sizes : α → List Nat} (counts : CountsAt cursor parser [] sizes) {result : α}
    (accepted : (do
      let result ← parser
      expectEnd
      return result : Parse α).run cursor = .ok (result, after)) :
    sizes result = Token.sizes cursor.tokens := by
  obtain ⟨_, middle, ran, accepted⟩ := run_bind_eq_ok.1 accepted
  obtain ⟨_, _, ended, same⟩ := run_bind_eq_ok.1 accepted
  cases same
  have all := counts _ _ ran
  rw [(of_expectEnd ended).1, Token.sizes_nil, List.append_nil] at all
  exact all.symm

end Parse

/-! ## Scripts -/

/-- An expression has just the integers of the script. -/
theorem Expr.sizes_of_parse {script : String} {expr : Expr}
    (parsed : Expr.parse script = .ok expr) :
    expr.sizes = Token.sizes ((Lexed.ofScript script).tokens.map (·.2)) := by
  obtain ⟨cursor, started, parsed⟩ := bind_eq_ok.1 parsed
  obtain ⟨⟨_, after⟩, ran, same⟩ := bind_eq_ok.1 parsed
  cases same
  obtain ⟨rfl, -⟩ := Cursor.ofScript_eq_ok started
  exact (Parse.expression_counts _).sizes_eq ran

/-- A chain has just the integers of the script, as literals and as counts. -/
theorem Chain.sizes_of_parse {script : String} {chain : Chain}
    (parsed : Chain.parse script = .ok chain) :
    chain.sizes = Token.sizes ((Lexed.ofScript script).tokens.map (·.2)) := by
  unfold Chain.parse at parsed
  split at parsed
  · obtain ⟨cursor, started, parsed⟩ := bind_eq_ok.1 parsed
    obtain ⟨⟨_, after⟩, ran, same⟩ := bind_eq_ok.1 parsed
    cases same
    obtain ⟨rfl, -⟩ := Cursor.ofScript_eq_ok started
    rw [Parse.wholeChain, Parse.run_atSymbol_bind] at ran
    split at ran
    · exact (Parse.stages_counts none _ _).sizes_eq ran
    · cases ran
  · cases parsed

end Pipeline
