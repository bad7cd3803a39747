import Pipeline.Proofs.ParserSoundness
import Pipeline.Proofs.Precedence

/-! What is read is accepted by the parsers of expressions, unless the nesting budget runs out
or an integer does not fit. -/

set_option autoImplicit false

namespace Pipeline

open Grammar

/-- The parser may fail on what it should read as the trees: it nests too deeply, or one of
the integers does not fit. -/
def ParseError.Excused (trees : List Tree) (error : ParseError) : Prop :=
  error = .tooDeep ∨ ∃ negative digits, (negative, digits) ∈ Tree.integersOfAll trees ∧
    integer? negative digits = none ∧
    error = .integerOutOfRange (if negative then "-" ++ digits else digits)

theorem ParseError.Excused.mono {trees others : List Tree} {error : ParseError}
    (excused : error.Excused trees)
    (included : Tree.integersOfAll trees ⊆ Tree.integersOfAll others) : error.Excused others :=
  excused.imp_right fun ⟨negative, digits, member, rest⟩ =>
    ⟨negative, digits, included member, rest⟩

/-- What an expression goes on with keeps its integers. -/
theorem Grammar.Reads.integers_subset {task : Task} {tokens rest : List Token}
    {trees : List Tree} (reads : Reads task tokens trees rest) :
    match task with
    | .links _ left | .suffixes left => left.integers ⊆ Tree.integersOfAll trees
    | _ => True := by
  induction reads with
  | unlinked _ | bare _ => simp [Tree.integersOfAll]
  | link _ _ _ _ _ ih | field _ _ ih | method _ _ _ ih =>
      intro found member
      refine ih ?_
      simp [Tree.integers, member]
  | _ => trivial

@[simp]
theorem Grammar.Tree.integersOfAll_singleton (tree : Tree) :
    Tree.integersOfAll [tree] = tree.integers := by
  simp [Tree.integersOfAll]

attribute [simp] Tree.integers Tree.integersOfAll

namespace Parse

/-- Over the tokens, the parser yields the expression of the tree and leaves the rest. -/
def Answers (parser : Parse Expr) (tokens : List Token) (tree : Tree) (rest : List Token) :
    Prop :=
  Ensures (fun result : Expr × Cursor => tree.expr? = some result.1 ∧ result.2 = ⟨rest, none⟩)
    (ParseError.Excused [tree]) (parser.run ⟨tokens, none⟩)

variable {β : Type}

theorem run_atSymbol_cons_bind {next : Bool → Parse β} {symbol : Symbol} {tokens : List Token} :
    (atSymbol symbol >>= next).run ⟨.symbol symbol :: tokens, none⟩ =
      (next true).run ⟨.symbol symbol :: tokens, none⟩ := by
  rw [run_atSymbol_bind]
  exact congrArg (fun b => (next b).run _) (beq_self_eq_true (some (Token.symbol symbol)))

theorem run_atSymbol_ne_bind {next : Bool → Parse β} {symbol : Symbol} {tokens : List Token}
    (absent : tokens.head? ≠ some (.symbol symbol)) :
    (atSymbol symbol >>= next).run ⟨tokens, none⟩ = (next false).run ⟨tokens, none⟩ := by
  rw [run_atSymbol_bind]
  exact congrArg (fun b => (next b).run _) (beq_eq_false_iff_ne.2 absent)

theorem run_atName_cons_bind {next : Bool → Parse β} {name : String} {tokens : List Token} :
    (atName name >>= next).run ⟨.name name :: tokens, none⟩ =
      (next true).run ⟨.name name :: tokens, none⟩ := by
  rw [run_atName_bind]
  exact congrArg (fun b => (next b).run _) (beq_self_eq_true (some (Token.name name)))

theorem run_atName_ne_bind {next : Bool → Parse β} {name : String} {tokens : List Token}
    (absent : tokens.head? ≠ some (.name name)) :
    (atName name >>= next).run ⟨tokens, none⟩ = (next false).run ⟨tokens, none⟩ := by
  rw [run_atName_bind]
  exact congrArg (fun b => (next b).run _) (beq_eq_false_iff_ne.2 absent)

theorem run_advance_cons_bind {next : Unit → Parse β} {token : Token} {tokens : List Token} :
    (advance >>= next).run ⟨token :: tokens, none⟩ = (next ()).run ⟨tokens, none⟩ := by
  rw [StateT.run_bind, run_advance]
  rfl

theorem run_expect_cons_bind {next : Unit → Parse β} {symbol : Symbol} {tokens : List Token} :
    (expect symbol >>= next).run ⟨.symbol symbol :: tokens, none⟩ =
      (next ()).run ⟨tokens, none⟩ := by
  rw [StateT.run_bind, expect, run_atSymbol_cons_bind, if_pos rfl, run_advance]
  rfl

theorem run_expectName_cons_bind {next : String → Parse β} {expected : Expected} {name : String}
    {tokens : List Token} :
    (expectName expected >>= next).run ⟨.name name :: tokens, none⟩ =
      (next name).run ⟨tokens, none⟩ := by
  rw [StateT.run_bind, expectName, run_current_bind]
  simp only [Cursor.current, List.head?_cons]
  rw [run_advance_cons_bind]
  rfl

/-- A parser goes on from what another one yields. -/
theorem Answers.bind {first : Parse Expr} {next : Expr → Parse β} {tokens middle : List Token}
    {tree : Tree} {post : β × Cursor → Prop} {trees : List Tree}
    (answers : first.Answers tokens tree middle)
    (included : tree.integers ⊆ Tree.integersOfAll trees)
    (further : ∀ expr, tree.expr? = some expr →
      Ensures post (ParseError.Excused trees) ((next expr).run ⟨middle, none⟩)) :
    Ensures post (ParseError.Excused trees) ((first >>= next).run ⟨tokens, none⟩) := by
  rw [StateT.run_bind]
  refine (answers.mono (fun _ => id) fun error excused => excused.mono ?_).bind ?_
  · simpa [Tree.integersOfAll] using included
  · rintro ⟨expr, after⟩ ⟨fits, rfl⟩
    exact further expr fits

end Parse

namespace ExprParsers

variable {tokens rest : List Token} {tree : Tree}

/-- The parser of expressions of a level, with the parsers of the next deeper level. -/
def ofLevel (inner : ExprParsers) : Level → Parse Expr
  | .conditional => inner.conditional
  | .disjunction => inner.disjunction
  | .conjunction => inner.conjunction
  | .negation => inner.negated
  | .comparison => inner.comparison
  | .sum => inner.sum
  | .product => inner.product
  | .signed | .signedNumber | .postfixed => inner.signed
  | .primary => inner.primary

/-- The parser of the operators of a level that chain. -/
def linksOfLevel (inner : ExprParsers) : Level → Expr → Parse Expr
  | .disjunction => inner.orLinksOf
  | .conjunction => inner.andLinksOf
  | .sum => inner.sumLinksOf
  | .product => inner.productLinksOf
  | _ => pure

/-- A parser that goes one level deeper answers if it does so with every budget there. -/
theorem answers_deeper (parser further : ExprParsers → Parse Expr)
    (shallow : parser tooDeep = throw .tooDeep)
    (deep : ∀ inner, parser inner.deeper = further inner)
    (answers : ∀ budget, (further (ofBudget budget)).Answers tokens tree rest) (budget : Nat) :
    (parser (ofBudget budget)).Answers tokens tree rest := by
  cases budget with
  | zero =>
      rw [ofBudget, shallow]
      exact .inl rfl
  | succ budget =>
      rw [ofBudget, deep]
      exact answers budget

theorem expression_answers
    (answers : ∀ budget, (ofBudget budget).conditional.Answers tokens tree rest) (budget : Nat) :
    (ofBudget budget).expression.Answers tokens tree rest :=
  answers_deeper expression conditional rfl (fun _ => rfl) answers budget

theorem suffixes_answers {left : Expr}
    (answers : ∀ budget, ((ofBudget budget).suffixesOf left).Answers tokens tree rest)
    (budget : Nat) : ((ofBudget budget).suffixes left).Answers tokens tree rest :=
  answers_deeper (·.suffixes left) (·.suffixesOf left) rfl (fun _ => rfl) answers budget

theorem ofLevel_eq_bind (inner : ExprParsers) {level operand : Level}
    (chains : level.operand? = some operand) :
    inner.ofLevel level = inner.ofLevel operand >>= inner.linksOfLevel level := by
  cases level <;> cases chains <;> rfl

/-- How a level of operators that chain goes on from an expression. -/
theorem linksOfLevel_eq (budget : Nat) {level operand : Level}
    (chains : level.operand? = some operand) :
    ∃ (operator? : Symbol → Option BinaryOp) (further : Expr → Parse Expr),
      (∀ symbol op, operator? symbol = some op ↔
        Grammar.operator? symbol = some (level, op)) ∧
      (ofBudget budget).linksOfLevel level =
        links operator? ((ofBudget budget).ofLevel operand) further ∧
      ∀ (left : Expr) (tokens rest : List Token) (tree : Tree),
        (∀ budget, ((ofBudget budget).linksOfLevel level left).Answers tokens tree rest) →
        (further left).Answers tokens tree rest := by
  cases level <;> cases chains
  · exact ⟨_, _, orOp?_iff, rfl, fun left _ _ _ answers =>
      answers_deeper (·.orLinks left) (·.orLinksOf left) rfl (fun _ => rfl) answers budget⟩
  · exact ⟨_, _, andOp?_iff, rfl, fun left _ _ _ answers =>
      answers_deeper (·.andLinks left) (·.andLinksOf left) rfl (fun _ => rfl) answers budget⟩
  · exact ⟨_, _, sumOp?_iff, rfl, fun left _ _ _ answers =>
      answers_deeper (·.sumLinks left) (·.sumLinksOf left) rfl (fun _ => rfl) answers budget⟩
  · exact ⟨_, _, productOp?_iff, rfl, fun left _ _ _ answers =>
      answers_deeper (·.productLinks left) (·.productLinksOf left) rfl (fun _ => rfl) answers
        budget⟩

theorem links_cons {level : Level} {operator? : Symbol → Option BinaryOp}
    (table : ∀ symbol op, operator? symbol = some op ↔
      Grammar.operator? symbol = some (level, op))
    {symbol : Symbol} {op : BinaryOp} (operator : Grammar.operator? symbol = some (level, op))
    (operand : Parse Expr) (further : Expr → Parse Expr) (left : Expr) :
    (links operator? operand further left).run ⟨.symbol symbol :: tokens, none⟩ =
      (operand >>= fun right => further (.binary op left right)).run ⟨tokens, none⟩ := by
  rw [links, Parse.run_current_bind]
  simp only [Cursor.current, List.head?_cons, (table symbol op).2 operator]
  rw [Parse.run_advance_cons_bind]

theorem links_unlinked {level : Level} {operator? : Symbol → Option BinaryOp}
    (table : ∀ symbol op, operator? symbol = some op ↔
      Grammar.operator? symbol = some (level, op))
    (stops : Unlinked level tokens) (operand : Parse Expr) (further : Expr → Parse Expr)
    (left : Expr) :
    (links operator? operand further left).run ⟨tokens, none⟩ = .ok (left, ⟨tokens, none⟩) := by
  rw [links, Parse.run_current_bind]
  split
  · rename_i symbol current
    split
    · rename_i op operator
      exact absurd ((table symbol op).1 operator) (stops symbol op current)
    · rfl
  · rfl

/-- What the parsers make of what is read. They take an expression that is continued as it
stands for its tree, and a list of arguments with any bound that is large enough. -/
def Answered : Task → List Token → List Tree → List Token → Prop
  | .level level, tokens, [tree], rest =>
    ∀ budget, ((ofBudget budget).ofLevel level).Answers tokens tree rest
  | .links level left, tokens, [tree], rest => ∀ budget expr, left.expr? = some expr →
    ((ofBudget budget).linksOfLevel level expr).Answers tokens tree rest
  | .suffixes left, tokens, [tree], rest => ∀ budget expr, left.expr? = some expr →
    ((ofBudget budget).suffixesOf expr).Answers tokens tree rest
  | .arguments, tokens, trees, rest => ∀ budget bound, tokens.length < bound →
    Ensures
      (fun result : List Expr × Cursor =>
        Tree.exprs? trees = some result.1 ∧ result.2 = ⟨rest, none⟩)
      (ParseError.Excused trees)
      ((argumentList (ofBudget budget).expression bound).run ⟨tokens, none⟩)
  | _, _, _, _ => False

/-- No arguments are left before a closing bracket. -/
theorem argumentList_closed (expression : Parse Expr) (bound : Nat) :
    (argumentList expression bound).run ⟨.symbol .rightParen :: rest, none⟩ =
      .ok ([], ⟨.symbol .rightParen :: rest, none⟩) := by
  cases bound with
  | zero => rfl
  | succ bound =>
      rw [argumentList, Parse.run_atSymbol_cons_bind, if_pos rfl]
      rfl

/-- A parser goes on from the arguments of a call. -/
theorem arguments_bind {β : Type} {next : List Expr → Parse β} {trees others : List Tree}
    {post : β × Cursor → Prop}
    (answered : Answered .arguments tokens trees (.symbol .rightParen :: rest)) (budget : Nat)
    (included : Tree.integersOfAll trees ⊆ Tree.integersOfAll others)
    (further : ∀ exprs, Tree.exprs? trees = some exprs →
      Ensures post (ParseError.Excused others) ((next exprs).run ⟨rest, none⟩)) :
    Ensures post (ParseError.Excused others)
      (((ofBudget budget).arguments >>= next).run ⟨.symbol .leftParen :: tokens, none⟩) := by
  rw [arguments]
  simp only [bind_assoc, pure_bind]
  rw [Parse.run_expect_cons_bind, Parse.run_remaining_bind, StateT.run_bind]
  refine ((answered budget _ (Nat.lt_succ_self _)).mono (fun _ => id)
    fun error excused => excused.mono included).bind ?_
  rintro ⟨exprs, after⟩ ⟨fits, rfl⟩
  rw [Parse.run_expect_cons_bind]
  exact further exprs fits

/-- An integer is accepted where it fits. -/
theorem integer_answers {negative : Bool} {digits : String} {token : Token} :
    (integer negative digits).Answers (token :: rest) (.integer negative digits) rest := by
  unfold integer Parse.Answers
  dsimp only
  split
  · rename_i n fits
    rw [Parse.run_advance_cons_bind]
    refine ⟨?_, rfl⟩
    rw [Tree.expr?, integer?, fits]
    rfl
  · rename_i unfit
    exact .inr ⟨negative, digits, by simp, unfit, rfl⟩

theorem unlinked_answers {level : Level} {left : Tree} (stops : Unlinked level rest) :
    Answered (.links level left) rest [left] rest := by
  intro budget expr fits
  cases chains : level.operand? with
  | none =>
      have same : (ofBudget budget).linksOfLevel level = pure := by
        cases level <;> first | rfl | cases chains
      rw [same]
      exact ⟨fits, rfl⟩
  | some operand =>
      obtain ⟨_, _, table, same, _⟩ := linksOfLevel_eq budget chains
      rw [same, Parse.Answers, links_unlinked table stops]
      exact ⟨fits, rfl⟩

/-- An operator with its right operand makes a new left operand. -/
theorem link_answers {symbol : Symbol} {level operand : Level} {op : BinaryOp}
    {left right : Tree} {middle : List Token}
    (operator : Grammar.operator? symbol = some (level, op))
    (chains : level.operand? = some operand)
    (links : Reads (.links level (.binary op left right)) middle [tree] rest)
    (rightAnswers : Answered (.level operand) tokens [right] middle)
    (linksAnswer : Answered (.links level (.binary op left right)) middle [tree] rest) :
    Answered (.links level left) (.symbol symbol :: tokens) [tree] rest := by
  intro budget expr fits
  obtain ⟨_, further, table, same, deeper⟩ := linksOfLevel_eq budget chains
  rw [same, Parse.Answers, links_cons table operator]
  refine (rightAnswers budget).bind ?_ fun rightExpr rightFits => ?_
  · exact List.Subset.trans (List.subset_append_right left.integers _) links.integers_subset
  · exact deeper _ _ _ _ fun budget =>
      linksAnswer budget _ (by simp [Tree.expr?, fits, rightFits])

theorem last_answers (absent : tokens.head? ≠ some (.symbol .rightParen))
    (answers : Answered (.level .conditional) tokens [tree] (.symbol .rightParen :: rest)) :
    Answered .arguments tokens [tree] (.symbol .rightParen :: rest) := by
  intro budget bound length
  obtain ⟨bound, rfl⟩ := Nat.exists_eq_succ_of_ne_zero (Nat.ne_zero_of_lt length)
  rw [argumentList, Parse.run_atSymbol_ne_bind absent]
  refine (expression_answers answers budget).bind (by simp) fun argument fits => ?_
  rw [Parse.run_atSymbol_cons_bind]
  dsimp only
  rw [if_neg (by simp), StateT.run_bind, argumentList_closed]
  exact ⟨by simp [Tree.exprs?, fits], rfl⟩

/-- An argument and its comma leave fewer tokens, so the bound is large enough for the others. -/
theorem more_answers {middle : List Token} {trees : List Tree}
    (absent : tokens.head? ≠ some (.symbol .rightParen))
    (reads : Reads (.level .conditional) tokens [tree] (.symbol .comma :: middle))
    (answers : Answered (.level .conditional) tokens [tree] (.symbol .comma :: middle))
    (othersAnswer : Answered .arguments middle trees rest) :
    Answered .arguments tokens (tree :: trees) rest := by
  intro budget bound length
  obtain ⟨bound, rfl⟩ := Nat.exists_eq_succ_of_ne_zero (Nat.ne_zero_of_lt length)
  have shorter : middle.length < bound := by
    obtain ⟨taken, same, _⟩ := reads.means
    have passed := congrArg List.length same
    rw [List.length_append, List.length_cons] at passed
    omega
  rw [argumentList, Parse.run_atSymbol_ne_bind absent]
  refine (expression_answers answers budget).bind (by simp) fun expr fits => ?_
  rw [Parse.run_atSymbol_ne_bind (by simp)]
  dsimp only
  rw [if_pos (by rfl), Parse.run_expect_cons_bind, StateT.run_bind]
  refine ((othersAnswer budget bound shorter).mono (fun _ => id)
    fun error excused => excused.mono (by simp)).bind ?_
  rintro ⟨exprs, after⟩ ⟨all, rfl⟩
  exact ⟨by simp [Tree.exprs?, fits, all], rfl⟩

/-- Whatever is read is accepted, with whatever nesting budget. -/
theorem answered_of_reads {task : Task} {trees : List Tree}
    (reads : Reads task tokens trees rest) : Answered task tokens trees rest := by
  induction reads with
  | condition _ absent ih =>
      intro budget
      refine (ih budget).bind (by simp) fun expr fits => ?_
      rw [Parse.run_atSymbol_ne_bind absent]
      exact ⟨fits, rfl⟩
  | conditional _ _ _ conditionIH thenIH elseIH =>
      intro budget
      refine (conditionIH budget).bind (by simp) fun _ condition => ?_
      rw [Parse.run_atSymbol_cons_bind, if_pos rfl, Parse.run_advance_cons_bind]
      refine (expression_answers thenIH budget).bind (by simp) fun _ thenBranch => ?_
      rw [Parse.run_expect_cons_bind]
      refine (expression_answers elseIH budget).bind (by simp) fun _ elseBranch => ?_
      exact ⟨by simp [Tree.expr?, condition, thenBranch, elseBranch], rfl⟩
  | chain chains _ links firstIH linksIH =>
      intro budget
      rw [ofLevel_eq_bind _ chains]
      exact (firstIH budget).bind links.integers_subset fun expr fits => linksIH budget expr fits
  | unlinked stops => exact unlinked_answers stops
  | link operator chains _ links rightIH linksIH =>
      exact link_answers operator chains links rightIH linksIH
  | uncompared _ stops ih =>
      intro budget
      refine (ih budget).bind (by simp) fun expr fits => ?_
      rw [links_unlinked relation?_iff stops]
      exact ⟨fits, rfl⟩
  | compare operator _ _ leftIH rightIH =>
      intro budget
      refine (leftIH budget).bind (by simp) fun _ left => ?_
      rw [links_cons relation?_iff operator]
      refine (rightIH budget).bind (by simp) fun _ right => ?_
      exact ⟨by simp [Tree.expr?, left, right], rfl⟩
  | not _ ih =>
      intro budget
      change (ofBudget budget).negated.Answers _ _ _
      rw [negated, Parse.Answers, Parse.run_atSymbol_cons_bind, if_pos rfl,
        Parse.run_advance_cons_bind]
      refine (answers_deeper negation negated rfl (fun _ => rfl) ih budget).bind (by simp)
        fun operand fits => ?_
      exact ⟨by simp [Tree.expr?, fits], rfl⟩
  | affirmed absent _ ih =>
      intro budget
      change (ofBudget budget).negated.Answers _ _ _
      rw [negated, Parse.Answers, Parse.run_atSymbol_ne_bind absent]
      exact ih budget
  | negativeInteger suffixes ih =>
      intro budget
      change (ofBudget budget).signed.Answers _ _ _
      rw [signed, Parse.Answers, Parse.run_atSymbol_cons_bind, if_pos rfl,
        Parse.run_advance_cons_bind, Parse.run_current_bind]
      exact integer_answers.bind suffixes.integers_subset (ih budget)
  | negativeFloat _ ih =>
      intro budget
      change (ofBudget budget).signed.Answers _ _ _
      rw [signed, Parse.Answers, Parse.run_atSymbol_cons_bind, if_pos rfl,
        Parse.run_advance_cons_bind, Parse.run_current_bind]
      simp only [Cursor.current, List.head?_cons]
      rw [Parse.run_advance_cons_bind]
      exact ih budget _ rfl
  | negate other _ ih =>
      intro budget
      change (ofBudget budget).signed.Answers _ _ _
      rw [signed, Parse.Answers, Parse.run_atSymbol_cons_bind, if_pos rfl,
        Parse.run_advance_cons_bind, Parse.run_current_bind]
      split
      · rename_i digits first
        exact absurd .integer (other _ first)
      · rename_i value first
        exact absurd .float (other _ first)
      · refine (answers_deeper unary signed rfl (fun _ => rfl) ih budget).bind (by simp)
          fun operand fits => ?_
        exact ⟨by simp [Tree.expr?, fits], rfl⟩
  | unsigned absent _ suffixes primaryIH suffixesIH =>
      intro budget
      change (ofBudget budget).signed.Answers _ _ _
      rw [signed, Parse.Answers, Parse.run_atSymbol_ne_bind absent]
      exact (primaryIH budget).bind suffixes.integers_subset (suffixesIH budget)
  | bare absent =>
      intro budget expr fits
      rw [suffixesOf, Parse.Answers, Parse.run_atSymbol_ne_bind absent]
      exact ⟨fits, rfl⟩
  | field absent _ ih =>
      intro budget expr fits
      rw [suffixesOf, Parse.Answers, Parse.run_atSymbol_cons_bind, if_pos rfl,
        Parse.run_advance_cons_bind, Parse.run_expectName_cons_bind,
        Parse.run_atSymbol_ne_bind absent]
      exact suffixes_answers (fun budget => ih budget _ (by simp [Tree.expr?, fits])) budget
  | method _ suffixes argumentsIH suffixesIH =>
      intro budget expr fits
      rw [suffixesOf, Parse.Answers, Parse.run_atSymbol_cons_bind, if_pos rfl,
        Parse.run_advance_cons_bind, Parse.run_expectName_cons_bind,
        Parse.run_atSymbol_cons_bind, if_pos rfl]
      refine arguments_bind argumentsIH budget ?_ fun exprs all => ?_
      · exact List.Subset.trans (List.subset_append_right _ _) suffixes.integers_subset
      · exact suffixes_answers
          (fun budget => suffixesIH budget _ (by simp [Tree.expr?, fits, all])) budget
  | integer => exact fun budget => integer_answers
  | float | text | boolean =>
      intro budget
      change (ofBudget budget).primary.Answers _ _ _
      rw [primary, Parse.Answers, Parse.run_current_bind]
      simp only [Cursor.current, List.head?_cons]
      rw [Parse.run_advance_cons_bind]
      exact ⟨rfl, rfl⟩
  | reference absent =>
      intro budget
      change (ofBudget budget).primary.Answers _ _ _
      rw [primary, Parse.Answers, Parse.run_current_bind]
      simp only [Cursor.current, List.head?_cons]
      rw [Parse.run_advance_cons_bind, Parse.run_atSymbol_ne_bind absent]
      exact ⟨rfl, rfl⟩
  | call _ ih =>
      intro budget
      change (ofBudget budget).primary.Answers _ _ _
      rw [primary, Parse.Answers, Parse.run_current_bind]
      simp only [Cursor.current, List.head?_cons]
      rw [Parse.run_advance_cons_bind, Parse.run_atSymbol_cons_bind, if_pos rfl]
      refine arguments_bind ih budget (by simp) fun exprs all => ?_
      exact ⟨by simp [Tree.expr?, all], rfl⟩
  | parentheses _ ih =>
      intro budget
      change (ofBudget budget).primary.Answers _ _ _
      rw [primary, Parse.Answers, Parse.run_current_bind]
      simp only [Cursor.current, List.head?_cons]
      rw [Parse.run_advance_cons_bind]
      refine (expression_answers ih budget).bind (by simp) fun expr fits => ?_
      rw [Parse.run_expect_cons_bind]
      exact ⟨fits, rfl⟩
  | none =>
      intro budget bound _
      rw [argumentList_closed]
      exact ⟨rfl, rfl⟩
  | last absent _ ih => exact last_answers absent ih
  | more absent reads _ firstIH othersIH => exact more_answers absent reads firstIH othersIH

end ExprParsers

/-- An expression that the grammar derives from all tokens is parsed, unless it nests too
deeply or has an integer that does not fit. -/
theorem Parse.wholeExpression_answers {tokens : List Token} {tree : Tree}
    (derives : Derives .conditional tokens tree) : wholeExpression.Answers tokens tree [] := by
  have answered := ExprParsers.answered_of_reads (derives_iff_reads.1 derives)
  refine (ExprParsers.expression_answers answered nestingLimit).bind (by simp) fun expr fits => ?_
  exact ⟨fits, rfl⟩

/-- The parser of expressions accepts what the grammar derives. What it accepts is derived
from all tokens. What is derived is the only tree, and is accepted unless it nests too
deeply or one of its integers does not fit. -/
theorem Parse.wholeExpression_iff_derives (tokens : List Token) :
    (∀ expr after, wholeExpression.run ⟨tokens, none⟩ = .ok (expr, after) →
      ∃ tree, tree.expr? = some expr ∧ Derives .conditional tokens tree) ∧
    ∀ tree, Derives .conditional tokens tree →
      (∀ other, Derives .conditional tokens other → other = tree) ∧
      ((∃ expr, tree.expr? = some expr ∧
          wholeExpression.run ⟨tokens, none⟩ = .ok (expr, ⟨[], none⟩)) ∨
        wholeExpression.run ⟨tokens, none⟩ = .error .tooDeep ∨
        ∃ negative digits, (negative, digits) ∈ tree.integers ∧
          integer? negative digits = none ∧
          wholeExpression.run ⟨tokens, none⟩ =
            .error (.integerOutOfRange (if negative then "-" ++ digits else digits))) := by
  refine ⟨fun expr after accepted => wholeExpression_sound accepted, fun tree derives => ?_⟩
  refine ⟨fun other second => second.unique derives, ?_⟩
  have answers := wholeExpression_answers derives
  unfold Answers at answers
  cases ran : wholeExpression.run ⟨tokens, none⟩ with
  | ok result =>
      obtain ⟨expr, after⟩ := result
      rw [ran] at answers
      obtain ⟨fits, rfl⟩ := answers
      exact .inl ⟨expr, fits, rfl⟩
  | error error =>
      rw [ran] at answers
      rcases answers with rfl | ⟨negative, digits, member, unfit, rfl⟩
      · exact .inr (.inl rfl)
      · rw [Tree.integersOfAll_singleton] at member
        exact .inr (.inr ⟨negative, digits, member, unfit, rfl⟩)

/-- `-5 + a` is accepted, and derived with the sign taken into the integer and by no other tree. -/
theorem Parse.wholeExpression_iff_derives_sum :
    let tokens : List Token := [.symbol .minus, .integer "5", .symbol .plus, .name "a"]
    let sum : Tree := .binary (.arithmetic .add) (.integer true "5") (.reference "a")
    let expr : Expr := .binary (.arithmetic .add) (.literal (.number (.integer (-5))))
      (.reference "a")
    wholeExpression.run ⟨tokens, none⟩ = .ok (expr, ⟨[], none⟩) ∧
      (Derives .conditional tokens sum ∧
        ∀ other, Derives .conditional tokens other → other = sum) ∧
      ∃ tree, Derives .conditional tokens tree ∧ tree.expr? = some expr := by
  intro tokens sum expr
  have left : Derives .sum [.symbol .minus, .integer "5"] (.integer true "5") :=
    .tighter .product (.tighter .signed (.tighter .signedNumber .negativeInteger))
  have right : Derives .product [.name "a"] (.reference "a") :=
    .tighter .signed (.tighter .postfixed (.tighter .primary .reference))
  have joined : Derives .sum tokens sum := .join rfl rfl left right
  have derives : Derives .conditional tokens sum :=
    .tighter .disjunction
      (.tighter .conjunction (.tighter .negation (.tighter .comparison (.tighter .sum joined))))
  have accepted : wholeExpression.run ⟨tokens, none⟩ = .ok (expr, ⟨[], none⟩) := rfl
  refine ⟨accepted, ⟨derives, ((Parse.wholeExpression_iff_derives tokens).2 sum derives).1⟩, ?_⟩
  obtain ⟨tree, fits, derived⟩ := (Parse.wholeExpression_iff_derives tokens).1 _ _ accepted
  exact ⟨tree, derived, fits⟩

end Pipeline
