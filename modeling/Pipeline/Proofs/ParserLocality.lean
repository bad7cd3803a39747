import Pipeline.Proofs.ParserCompleteness

/-! A parser that has left two tokens in view, or a closing bracket, has not looked at what
stands further behind: more tokens there change nothing. -/

set_option autoImplicit false

namespace Pipeline

/-- What is in view at the front of the tokens stays in view in front of more tokens, as far as
parsers look at it: none looks behind a closing bracket. -/
def Settled (tokens : List Token) : Prop :=
  tokens.head? = some (.symbol .rightParen) ∨ 2 ≤ tokens.length

theorem Settled.cases {tokens : List Token} (settled : Settled tokens) :
    (∃ rest, tokens = .symbol .rightParen :: rest) ∨
      ∃ first second rest, tokens = first :: second :: rest := by
  rcases settled with bracket | long
  · exact .inl (List.head?_eq_some_iff.1 bracket)
  · match tokens, long with
    | first :: second :: rest, _ => exact .inr ⟨first, second, rest, rfl⟩

theorem Settled.head? {tokens : List Token} (settled : Settled tokens) (more : List Token) :
    (tokens ++ more).head? = tokens.head? := by
  rcases settled.cases with ⟨rest, rfl⟩ | ⟨first, second, rest, rfl⟩
  · rfl
  · rfl

theorem Settled.of_suffix {tokens rest : List Token} (settled : Settled rest)
    (suffix : rest <:+ tokens) : Settled tokens := by
  obtain ⟨taken, rfl⟩ := suffix
  cases taken with
  | nil => exact settled
  | cons token taken =>
      have some : 0 < rest.length := by
        rcases settled.cases with ⟨_, rfl⟩ | ⟨_, _, _, rfl⟩ <;> simp
      exact .inr (by simp only [List.length_append, List.length_cons]; omega)

namespace Parse

/-- The parser ends on a rest of the given tokens, and does the same in front of more tokens
unless it may have looked beyond the rest. -/
def Local {α : Type} (parser : Parse α) : Prop :=
  ∀ (tokens : List Token) (result : α) (after : Cursor),
    parser.run ⟨tokens, none⟩ = .ok (result, after) →
      ∃ rest, after = ⟨rest, none⟩ ∧ rest <:+ tokens ∧
        (Settled rest → ∀ more,
          parser.run ⟨tokens ++ more, none⟩ = .ok (result, ⟨rest ++ more, none⟩))

variable {α β : Type}

theorem run_bind_congr {cursor : Cursor} {first : Parse α} {next other : α → Parse β}
    (same : ∀ value middle, first.run cursor = .ok (value, middle) →
      (next value).run middle = (other value).run middle) :
    (first >>= next).run cursor = (first >>= other).run cursor := by
  rw [StateT.run_bind, StateT.run_bind]
  cases ran : first.run cursor with
  | error error => rfl
  | ok result => exact same _ _ ran

theorem of_run_advance {tokens : List Token} {result : Unit} {after : Cursor}
    (passed : advance.run ⟨tokens, none⟩ = .ok (result, after)) :
    after = ⟨tokens.tail, none⟩ := by
  rw [run_advance] at passed
  cases passed
  rfl

theorem of_run_expect {symbol : Symbol} {tokens : List Token} {result : Unit} {after : Cursor}
    (passed : (expect symbol).run ⟨tokens, none⟩ = .ok (result, after)) :
    ∃ rest, tokens = .symbol symbol :: rest ∧ after = ⟨rest, none⟩ := by
  obtain ⟨front, reaches⟩ := passes_of_expect passed
  obtain ⟨rest, fault⟩ := after
  cases reaches.fault
  exact ⟨rest, front, rfl⟩

/-! ## Ways of building local parsers -/

theorem Local.pure (value : α) : (pure value : Parse α).Local := by
  intro tokens result after accepted
  cases accepted
  exact ⟨tokens, rfl, List.suffix_refl _, fun _ _ => rfl⟩

theorem Local.throw (error : ParseError) : (throw error : Parse α).Local := by
  intro tokens result after accepted
  cases accepted

theorem Local.bind {first : Parse α} {next : α → Parse β} (firstLocal : first.Local)
    (nextLocal : ∀ value, (next value).Local) : (first >>= next).Local := by
  intro tokens result after accepted
  obtain ⟨value, _, ran, further⟩ := run_bind_eq_ok.1 accepted
  obtain ⟨middle, rfl, suffix, same⟩ := firstLocal _ _ _ ran
  obtain ⟨rest, rfl, furtherSuffix, furtherSame⟩ := nextLocal value _ _ _ further
  refine ⟨rest, rfl, furtherSuffix.trans suffix, fun settled more => ?_⟩
  exact run_bind_eq_ok.2
    ⟨_, _, same (settled.of_suffix furtherSuffix) more, furtherSame settled more⟩

theorem Local.map {parser : Parse α} (parserLocal : parser.Local) (image : α → β) :
    (image <$> parser).Local := by
  rw [map_eq_pure_bind]
  exact parserLocal.bind fun value => .pure (image value)

/-- A parser may depend on what it sees at the cursor. -/
theorem Local.look {next : Cursor → Parse β} (nextLocal : ∀ cursor, (next cursor).Local)
    (same : ∀ tokens more, Settled tokens → next ⟨tokens ++ more, none⟩ = next ⟨tokens, none⟩) :
    (get >>= next).Local := by
  intro tokens result after accepted
  rw [run_get_bind] at accepted
  obtain ⟨rest, rfl, suffix, further⟩ := nextLocal _ _ _ _ accepted
  refine ⟨rest, rfl, suffix, fun settled more => ?_⟩
  rw [run_get_bind, same tokens more (settled.of_suffix suffix)]
  exact further settled more

theorem Local.current_bind {next : Option Token → Parse β}
    (nextLocal : ∀ token, (next token).Local) : (current >>= next).Local :=
  .look (fun cursor => nextLocal cursor.current) fun _ more settled =>
    congrArg next (settled.head? more)

theorem Local.atSymbol_bind {symbol : Symbol} {next : Bool → Parse β}
    (nextLocal : ∀ found, (next found).Local) : (atSymbol symbol >>= next).Local :=
  .current_bind fun token => nextLocal (token == some (.symbol symbol))

theorem Local.atName_bind {name : String} {next : Bool → Parse β}
    (nextLocal : ∀ found, (next found).Local) : (atName name >>= next).Local :=
  .current_bind fun token => nextLocal (token == some (.name name))

theorem Local.atNameThen_bind {name : String} {token : Token} {next : Bool → Parse β}
    (nextLocal : ∀ found, (next found).Local) : (atNameThen name token >>= next).Local :=
  .look (fun _ => nextLocal _) fun _ _ settled => by
    rcases settled.cases with ⟨rest, rfl⟩ | ⟨first, second, rest, rfl⟩
    · rfl
    · rfl

/-- A loop may be bounded by the number of tokens left if a larger bound makes no difference. -/
theorem Local.remaining_bind {loop : Nat → Parse β} (loopLocal : ∀ bound, (loop bound).Local)
    (enough : ∀ (tokens : List Token) (bound : Nat), tokens.length ≤ bound →
      (loop (bound + 1)).run ⟨tokens, none⟩ = (loop bound).run ⟨tokens, none⟩) :
    (remaining >>= loop).Local := by
  intro tokens result after accepted
  rw [run_remaining_bind] at accepted
  obtain ⟨rest, rfl, suffix, _⟩ := loopLocal _ _ _ _ accepted
  refine ⟨rest, rfl, suffix, fun settled more => ?_⟩
  have larger : ∀ extra, (loop (tokens.length + extra)).run ⟨tokens, none⟩ =
      .ok (result, ⟨rest, none⟩) := by
    intro extra
    induction extra with
    | zero => exact accepted
    | succ extra ih => exact (enough tokens _ (Nat.le_add_right _ _)).trans ih
  obtain ⟨_, same, _, further⟩ := loopLocal _ _ _ _ (larger more.length)
  cases same
  rw [run_remaining_bind, List.length_append]
  exact further settled more

theorem advance_local : advance.Local := by
  intro tokens result after accepted
  rw [run_advance] at accepted
  cases accepted
  refine ⟨tokens.tail, rfl, List.tail_suffix _, fun settled more => ?_⟩
  cases tokens with
  | nil => rcases settled.cases with ⟨_, same⟩ | ⟨_, _, _, same⟩ <;> cases same
  | cons token tokens =>
      rw [run_advance]
      rfl

theorem unexpected_local (expected : Expected) : (unexpected expected : Parse α).Local :=
  .current_bind fun _ => .throw _

theorem expect_local (symbol : Symbol) : (expect symbol).Local := by
  refine .atSymbol_bind fun found => ?_
  cases found
  · exact unexpected_local _
  · exact advance_local

theorem expectName_local (expected : Expected) : (expectName expected).Local := by
  refine .current_bind fun token => ?_
  split
  · exact advance_local.bind fun _ => .pure _
  · exact unexpected_local _

end Parse

namespace ExprParsers

open Parse

/-! ## Expressions -/

/-- All parsers that an expression calls one level deeper are local. -/
structure Local (inner : ExprParsers) : Prop where
  expression : inner.expression.Local
  negation : inner.negation.Local
  unary : inner.unary.Local
  orLinks (left : Expr) : (inner.orLinks left).Local
  andLinks (left : Expr) : (inner.andLinks left).Local
  sumLinks (left : Expr) : (inner.sumLinks left).Local
  productLinks (left : Expr) : (inner.productLinks left).Local
  suffixes (expr : Expr) : (inner.suffixes expr).Local

theorem integer_local (negative : Bool) (digits : String) : (integer negative digits).Local := by
  unfold integer
  dsimp only
  split
  · exact advance_local.bind fun _ => .pure _
  · exact .throw _

theorem argumentList_local {expression : Parse Expr} (expressionLocal : expression.Local)
    (bound : Nat) : (argumentList expression bound).Local := by
  induction bound with
  | zero => exact .pure _
  | succ bound ih =>
      refine .atSymbol_bind fun closed => ?_
      cases closed
      · refine expressionLocal.bind fun argument => .atSymbol_bind fun last => ?_
        have others := ih.bind fun rest => Local.pure (argument :: rest)
        cases last
        · exact (expect_local .comma).bind fun _ => others
        · exact others
      · exact .pure _

theorem argumentList_enough {expression : Parse Expr} (expressionLocal : expression.Local)
    {bound : Nat} {tokens : List Token} (long : tokens.length < bound) :
    (argumentList expression (bound + 1)).run ⟨tokens, none⟩ =
      (argumentList expression bound).run ⟨tokens, none⟩ := by
  induction bound generalizing tokens with
  | zero => exact absurd long (Nat.not_lt_zero _)
  | succ bound ih =>
      refine run_bind_congr fun closed _ looked => ?_
      cases looked
      split
      · rfl
      · refine run_bind_congr fun argument after ran => ?_
        obtain ⟨rest, rfl, suffix, _⟩ := expressionLocal _ _ _ ran
        have shorter := suffix.length_le
        by_cases last : rest.head? = some (.symbol .rightParen)
        · obtain ⟨rest, rfl⟩ := List.head?_eq_some_iff.1 last
          rw [run_atSymbol_cons_bind, run_atSymbol_cons_bind]
          simp only [Bool.not_true, Bool.false_eq_true, if_false, StateT.run_bind,
            argumentList_closed]
        · rw [run_atSymbol_ne_bind last, run_atSymbol_ne_bind last]
          refine run_bind_congr fun _ further passed => ?_
          obtain ⟨others, rfl, rfl⟩ := of_run_expect passed
          rw [List.length_cons] at shorter
          rw [StateT.run_bind, StateT.run_bind, ih (by omega)]

theorem Local.arguments {inner : ExprParsers} (innerLocal : inner.Local) :
    inner.arguments.Local := by
  refine (expect_local .leftParen).bind fun _ => .remaining_bind (fun bound => ?_) ?_
  · exact (argumentList_local innerLocal.expression _).bind fun _ =>
      (expect_local .rightParen).bind fun _ => .pure _
  · intro tokens bound long
    rw [StateT.run_bind, StateT.run_bind,
      argumentList_enough innerLocal.expression (Nat.lt_succ_of_le long)]

theorem Local.primary {inner : ExprParsers} (innerLocal : inner.Local) : inner.primary.Local := by
  refine .current_bind fun token => ?_
  split
  · exact integer_local _ _
  · exact advance_local.bind fun _ => .pure _
  · exact advance_local.bind fun _ => .pure _
  · exact advance_local.bind fun _ => .pure _
  · refine advance_local.bind fun _ => .atSymbol_bind fun called => ?_
    cases called
    · exact .pure _
    · exact innerLocal.arguments.bind fun _ => .pure _
  · exact advance_local.bind fun _ => innerLocal.expression.bind fun _ =>
      (expect_local .rightParen).bind fun _ => .pure _
  · exact unexpected_local _

theorem Local.suffixesOf {inner : ExprParsers} (innerLocal : inner.Local) (expr : Expr) :
    (inner.suffixesOf expr).Local := by
  refine .atSymbol_bind fun dotted => ?_
  cases dotted
  · exact .pure _
  · refine advance_local.bind fun _ => (expectName_local .member).bind fun name =>
      .atSymbol_bind fun called => ?_
    cases called
    · exact innerLocal.suffixes _
    · exact innerLocal.arguments.bind fun _ => innerLocal.suffixes _

theorem Local.postfixed {inner : ExprParsers} (innerLocal : inner.Local) :
    inner.postfixed.Local :=
  innerLocal.primary.bind innerLocal.suffixesOf

theorem Local.signed {inner : ExprParsers} (innerLocal : inner.Local) : inner.signed.Local := by
  refine .atSymbol_bind fun negative => ?_
  cases negative
  · exact innerLocal.postfixed
  · refine advance_local.bind fun _ => .current_bind fun token => ?_
    split
    · exact (integer_local _ _).bind innerLocal.suffixesOf
    · exact advance_local.bind fun _ => innerLocal.suffixesOf _
    · exact innerLocal.unary.bind fun _ => .pure _

theorem links_local {operator? : Symbol → Option BinaryOp} {operand : Parse Expr}
    {further : Expr → Parse Expr} (operandLocal : operand.Local)
    (furtherLocal : ∀ left, (further left).Local) (left : Expr) :
    (links operator? operand further left).Local := by
  refine .current_bind fun token => ?_
  split
  · split
    · exact advance_local.bind fun _ => operandLocal.bind fun _ => furtherLocal _
    · exact .pure _
  · exact .pure _

section Levels

variable {inner : ExprParsers} (innerLocal : inner.Local)
include innerLocal

theorem Local.productLinksOf (left : Expr) : (inner.productLinksOf left).Local :=
  links_local innerLocal.signed innerLocal.productLinks left

theorem Local.product : inner.product.Local :=
  innerLocal.signed.bind innerLocal.productLinksOf

theorem Local.sumLinksOf (left : Expr) : (inner.sumLinksOf left).Local :=
  links_local innerLocal.product innerLocal.sumLinks left

theorem Local.sum : inner.sum.Local :=
  innerLocal.product.bind innerLocal.sumLinksOf

theorem Local.comparison : inner.comparison.Local :=
  innerLocal.sum.bind (links_local innerLocal.sum .pure)

theorem Local.negated : inner.negated.Local := by
  refine .atSymbol_bind fun negative => ?_
  cases negative
  · exact innerLocal.comparison
  · exact advance_local.bind fun _ => innerLocal.negation.bind fun _ => .pure _

theorem Local.andLinksOf (left : Expr) : (inner.andLinksOf left).Local :=
  links_local innerLocal.negated innerLocal.andLinks left

theorem Local.conjunction : inner.conjunction.Local :=
  innerLocal.negated.bind innerLocal.andLinksOf

theorem Local.orLinksOf (left : Expr) : (inner.orLinksOf left).Local :=
  links_local innerLocal.conjunction innerLocal.orLinks left

theorem Local.disjunction : inner.disjunction.Local :=
  innerLocal.conjunction.bind innerLocal.orLinksOf

theorem Local.conditional : inner.conditional.Local := by
  refine innerLocal.disjunction.bind fun condition => .atSymbol_bind fun asked => ?_
  cases asked
  · exact .pure _
  · exact advance_local.bind fun _ => innerLocal.expression.bind fun _ =>
      (expect_local .colon).bind fun _ => innerLocal.expression.bind fun _ => .pure _

theorem Local.deeper : inner.deeper.Local where
  expression := innerLocal.conditional
  negation := innerLocal.negated
  unary := innerLocal.signed
  orLinks := innerLocal.orLinksOf
  andLinks := innerLocal.andLinksOf
  sumLinks := innerLocal.sumLinksOf
  productLinks := innerLocal.productLinksOf
  suffixes := innerLocal.suffixesOf

end Levels

theorem ofBudget_local (budget : Nat) : (ofBudget budget).Local := by
  induction budget with
  | zero =>
      exact ⟨.throw _, .throw _, .throw _, fun _ => .throw _, fun _ => .throw _,
        fun _ => .throw _, fun _ => .throw _, fun _ => .throw _⟩
  | succ budget ih => exact ih.deeper

end ExprParsers

theorem Parse.expression_local : expression.Local :=
  (ExprParsers.ofBudget_local nestingLimit).expression

theorem Parse.lambda_local : lambda.Local :=
  (expectName_local _).bind fun _ => (expect_local _).bind fun _ =>
    expression_local.bind fun _ => .pure _

end Pipeline
