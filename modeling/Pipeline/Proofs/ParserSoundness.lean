import Pipeline.Proofs.ParserSteps
import Pipeline.Proofs.Reading

/-! What the parsers of expressions accept is read as the grammar reads it, with whatever
nesting budget. -/

set_option autoImplicit false

namespace Pipeline

open Grammar

/-- What the parser accepts is read from the front of the tokens. -/
def Parse.ReadsAs (parser : Parse Expr) (task : Task) : Prop :=
  ∀ (cursor after : Cursor) (expr : Expr), parser.run cursor = .ok (expr, after) →
    cursor.Reaches after ∧
      ∃ tree, tree.expr? = some expr ∧ Reads task cursor.tokens [tree] after.tokens

/-- The parsers of one nesting budget accept what is read. -/
structure ExprParsers.Sound (parsers : ExprParsers) : Prop where
  expression : parsers.expression.ReadsAs (.level .conditional)
  negation : parsers.negation.ReadsAs (.level .negation)
  unary : parsers.unary.ReadsAs (.level .signed)
  orLinks : ∀ (left : Expr) (tree : Tree), tree.expr? = some left →
    (parsers.orLinks left).ReadsAs (.links .disjunction tree)
  andLinks : ∀ (left : Expr) (tree : Tree), tree.expr? = some left →
    (parsers.andLinks left).ReadsAs (.links .conjunction tree)
  sumLinks : ∀ (left : Expr) (tree : Tree), tree.expr? = some left →
    (parsers.sumLinks left).ReadsAs (.links .sum tree)
  productLinks : ∀ (left : Expr) (tree : Tree), tree.expr? = some left →
    (parsers.productLinks left).ReadsAs (.links .product tree)
  suffixes : ∀ (left : Expr) (tree : Tree), tree.expr? = some left →
    (parsers.suffixes left).ReadsAs (.suffixes tree)

namespace ExprParsers

theorem throw_readsAs (error : ParseError) (task : Task) :
    (throw error : Parse Expr).ReadsAs task := by
  intro cursor after expr accepted
  cases accepted

theorem tooDeep_sound : tooDeep.Sound where
  expression := throw_readsAs _ _
  negation := throw_readsAs _ _
  unary := throw_readsAs _ _
  orLinks _ _ _ := throw_readsAs _ _
  andLinks _ _ _ := throw_readsAs _ _
  sumLinks _ _ _ := throw_readsAs _ _
  productLinks _ _ _ := throw_readsAs _ _
  suffixes _ _ _ := throw_readsAs _ _

theorem integer_passes {negative : Bool} {digits : String} {cursor after : Cursor} {expr : Expr}
    {token : Token} (current : cursor.current = some token)
    (accepted : (integer negative digits).run cursor = .ok (expr, after)) :
    cursor.Passes token after ∧ (Tree.integer negative digits).expr? = some expr := by
  unfold integer at accepted
  dsimp only at accepted
  split at accepted
  · rename_i n fits
    obtain ⟨_, middle, passed, same⟩ := Parse.run_bind_eq_ok.1 accepted
    cases same
    refine ⟨Parse.passes_of_run_advance current passed, ?_⟩
    rw [Tree.expr?, integer?, fits]
    rfl
  · cases accepted

variable {inner : ExprParsers}

theorem argumentList_at_rightParen {expression : Parse Expr} {bound : Nat}
    {cursor after : Cursor} {exprs : List Expr}
    (closed : cursor.current = some (.symbol .rightParen))
    (accepted : (argumentList expression bound).run cursor = .ok (exprs, after)) :
    exprs = [] ∧ after = cursor := by
  cases bound with
  | zero =>
      cases accepted
      exact ⟨rfl, rfl⟩
  | succ bound =>
      rw [argumentList, Parse.run_atSymbol_bind, closed] at accepted
      cases accepted
      exact ⟨rfl, rfl⟩

/-- A list of arguments is read where a closing bracket follows it. -/
theorem argumentList_sound (sound : inner.Sound) {bound : Nat} {cursor after : Cursor}
    {exprs : List Expr} {rest : List Token}
    (accepted : (argumentList inner.expression bound).run cursor = .ok (exprs, after))
    (closed : after.tokens = .symbol .rightParen :: rest) :
    cursor.Reaches after ∧ ∃ trees, Tree.exprs? trees = some exprs ∧
      Reads .arguments cursor.tokens trees after.tokens := by
  induction bound generalizing cursor exprs with
  | zero =>
      cases accepted
      exact ⟨.refl _, [], rfl, closed ▸ .none⟩
  | succ bound ih =>
      rw [argumentList, Parse.run_atSymbol_bind] at accepted
      split at accepted
      · cases accepted
        exact ⟨.refl _, [], rfl, closed ▸ .none⟩
      · rename_i absent
        have absent : cursor.tokens.head? ≠ some (.symbol .rightParen) :=
          fun first => absent (beq_iff_eq.2 first)
        obtain ⟨argument, middle, first, accepted⟩ := Parse.run_bind_eq_ok.1 accepted
        obtain ⟨reaches, tree, expr, reads⟩ := sound.expression _ _ _ first
        rw [Parse.run_atSymbol_bind] at accepted
        dsimp only at accepted
        split at accepted
        · obtain ⟨_, behind, comma, accepted⟩ := Parse.run_bind_eq_ok.1 accepted
          obtain ⟨others, _, list, same⟩ := Parse.run_bind_eq_ok.1 accepted
          cases same
          obtain ⟨passed, passes⟩ := Parse.passes_of_expect comma
          obtain ⟨further, trees, exprs, readsOthers⟩ := ih list
          rw [passed] at reads
          exact ⟨(reaches.trans passes).trans further, tree :: trees,
            by simp [Tree.exprs?, expr, exprs], .more absent reads readsOthers⟩
        · rename_i atEnd
          have atEnd : middle.current = some (.symbol .rightParen) := by simpa using atEnd
          obtain ⟨others, _, list, same⟩ := Parse.run_bind_eq_ok.1 accepted
          cases same
          obtain ⟨rfl, rfl⟩ := argumentList_at_rightParen atEnd list
          rw [closed] at reads ⊢
          exact ⟨reaches, [tree], by simp [Tree.exprs?, expr], .last absent reads⟩

theorem arguments_sound (sound : inner.Sound) {cursor after : Cursor} {exprs : List Expr}
    (accepted : inner.arguments.run cursor = .ok (exprs, after)) :
    ∃ tokens trees, cursor.tokens = .symbol .leftParen :: tokens ∧ cursor.Reaches after ∧
      Tree.exprs? trees = some exprs ∧
      Reads .arguments tokens trees (.symbol .rightParen :: after.tokens) := by
  obtain ⟨_, opened, leftParen, accepted⟩ := Parse.run_bind_eq_ok.1 accepted
  obtain ⟨passed, passes⟩ := Parse.passes_of_expect leftParen
  rw [Parse.run_remaining_bind] at accepted
  obtain ⟨list, closed, listed, accepted⟩ := Parse.run_bind_eq_ok.1 accepted
  obtain ⟨_, _, rightParen, same⟩ := Parse.run_bind_eq_ok.1 accepted
  cases same
  obtain ⟨ended, ends⟩ := Parse.passes_of_expect rightParen
  obtain ⟨reaches, trees, exprs, reads⟩ := argumentList_sound sound listed ended
  exact ⟨opened.tokens, trees, passed, (passes.trans reaches).trans ends, exprs, ended ▸ reads⟩

theorem primary_sound (sound : inner.Sound) : inner.primary.ReadsAs (.level .primary) := by
  intro cursor after expr accepted
  rw [primary, Parse.run_current_bind] at accepted
  split at accepted
  · rename_i digits current
    obtain ⟨⟨passed, passes⟩, literal⟩ := integer_passes current accepted
    exact ⟨passes, _, literal, passed ▸ .integer⟩
  · rename_i value current
    obtain ⟨_, _, advanced, same⟩ := Parse.run_bind_eq_ok.1 accepted
    cases same
    obtain ⟨passed, passes⟩ := Parse.passes_of_run_advance current advanced
    exact ⟨passes, .float value, rfl, passed ▸ .float⟩
  · rename_i value current
    obtain ⟨_, _, advanced, same⟩ := Parse.run_bind_eq_ok.1 accepted
    cases same
    obtain ⟨passed, passes⟩ := Parse.passes_of_run_advance current advanced
    exact ⟨passes, .text value, rfl, passed ▸ .text⟩
  · rename_i value current
    obtain ⟨_, _, advanced, same⟩ := Parse.run_bind_eq_ok.1 accepted
    cases same
    obtain ⟨passed, passes⟩ := Parse.passes_of_run_advance current advanced
    exact ⟨passes, .boolean value, rfl, passed ▸ .boolean⟩
  · rename_i name current
    obtain ⟨_, middle, advanced, accepted⟩ := Parse.run_bind_eq_ok.1 accepted
    obtain ⟨passed, passes⟩ := Parse.passes_of_run_advance current advanced
    rw [Parse.run_atSymbol_bind] at accepted
    split at accepted
    · obtain ⟨list, _, called, same⟩ := Parse.run_bind_eq_ok.1 accepted
      cases same
      obtain ⟨tokens, trees, opened, reaches, exprs, reads⟩ := arguments_sound sound called
      rw [passed, opened]
      exact ⟨passes.trans reaches, .call name trees, by simp [Tree.expr?, exprs], .call reads⟩
    · rename_i absent
      have absent : middle.tokens.head? ≠ some (.symbol .leftParen) :=
        fun first => absent (beq_iff_eq.2 first)
      cases accepted
      exact ⟨passes, .reference name, rfl, passed ▸ .reference absent⟩
  · rename_i current
    obtain ⟨_, opened, advanced, accepted⟩ := Parse.run_bind_eq_ok.1 accepted
    obtain ⟨passed, passes⟩ := Parse.passes_of_run_advance current advanced
    obtain ⟨inside, closed, expression, accepted⟩ := Parse.run_bind_eq_ok.1 accepted
    obtain ⟨_, _, rightParen, same⟩ := Parse.run_bind_eq_ok.1 accepted
    cases same
    obtain ⟨reaches, tree, expr, reads⟩ := sound.expression _ _ _ expression
    obtain ⟨ended, ends⟩ := Parse.passes_of_expect rightParen
    rw [passed]
    exact ⟨(passes.trans reaches).trans ends, tree, expr, .parentheses (ended ▸ reads)⟩
  · cases accepted

theorem suffixesOf_sound (sound : inner.Sound) {left : Expr} {tree : Tree}
    (expr : tree.expr? = some left) : (inner.suffixesOf left).ReadsAs (.suffixes tree) := by
  intro cursor after result accepted
  rw [suffixesOf, Parse.run_atSymbol_bind] at accepted
  split at accepted
  · rename_i dot
    obtain ⟨_, dotted, advanced, accepted⟩ := Parse.run_bind_eq_ok.1 accepted
    obtain ⟨passed, passes⟩ := Parse.passes_of_run_advance (beq_iff_eq.1 dot) advanced
    obtain ⟨name, named, expected, accepted⟩ := Parse.run_bind_eq_ok.1 accepted
    obtain ⟨spelled, spells⟩ := Parse.passes_of_expectName expected
    rw [Parse.run_atSymbol_bind] at accepted
    split at accepted
    · obtain ⟨list, called, arguments, accepted⟩ := Parse.run_bind_eq_ok.1 accepted
      obtain ⟨tokens, trees, opened, reaches, exprs, readsArguments⟩ :=
        arguments_sound sound arguments
      obtain ⟨further, result, final, reads⟩ := sound.suffixes _ (.method tree name trees)
        (by simp [Tree.expr?, expr, exprs]) _ _ _ accepted
      rw [passed, spelled, opened]
      exact ⟨((passes.trans spells).trans reaches).trans further, result, final,
        .method readsArguments reads⟩
    · rename_i absent
      have absent : named.tokens.head? ≠ some (.symbol .leftParen) :=
        fun first => absent (beq_iff_eq.2 first)
      obtain ⟨further, result, final, reads⟩ := sound.suffixes _ (.field tree name)
        (by simp [Tree.expr?, expr]) _ _ _ accepted
      rw [passed, spelled]
      exact ⟨(passes.trans spells).trans further, result, final, .field absent reads⟩
  · rename_i absent
    have absent : cursor.tokens.head? ≠ some (.symbol .dot) :=
      fun first => absent (beq_iff_eq.2 first)
    cases accepted
    exact ⟨.refl _, tree, expr, .bare absent⟩

theorem postfixed_sound (sound : inner.Sound) {cursor after : Cursor} {expr : Expr}
    (unsigned : cursor.tokens.head? ≠ some (.symbol .minus))
    (accepted : inner.postfixed.run cursor = .ok (expr, after)) :
    cursor.Reaches after ∧ ∃ tree, tree.expr? = some expr ∧
      Reads (.level .signed) cursor.tokens [tree] after.tokens := by
  obtain ⟨primary, middle, first, accepted⟩ := Parse.run_bind_eq_ok.1 accepted
  obtain ⟨reaches, primaryTree, primaryExpr, reads⟩ := primary_sound sound _ _ _ first
  obtain ⟨further, tree, expr, readsSuffixes⟩ :=
    suffixesOf_sound sound primaryExpr _ _ _ accepted
  exact ⟨reaches.trans further, tree, expr, .unsigned unsigned reads readsSuffixes⟩

theorem signed_sound (sound : inner.Sound) : inner.signed.ReadsAs (.level .signed) := by
  intro cursor after expr accepted
  rw [signed, Parse.run_atSymbol_bind] at accepted
  split at accepted
  · rename_i minus
    obtain ⟨_, signed, advanced, accepted⟩ := Parse.run_bind_eq_ok.1 accepted
    obtain ⟨passed, passes⟩ := Parse.passes_of_run_advance (beq_iff_eq.1 minus) advanced
    rw [Parse.run_current_bind] at accepted
    split at accepted
    · rename_i digits current
      obtain ⟨number, middle, literal, accepted⟩ := Parse.run_bind_eq_ok.1 accepted
      obtain ⟨⟨spelled, spells⟩, fits⟩ := integer_passes current literal
      obtain ⟨further, tree, expr, reads⟩ := suffixesOf_sound sound fits _ _ _ accepted
      rw [passed, spelled]
      exact ⟨(passes.trans spells).trans further, tree, expr, .negativeInteger reads⟩
    · rename_i value current
      obtain ⟨_, middle, advanced, accepted⟩ := Parse.run_bind_eq_ok.1 accepted
      obtain ⟨spelled, spells⟩ := Parse.passes_of_run_advance current advanced
      have literal :
          (Tree.float value.neg).expr? = some (.literal (.number (.float value.neg))) := rfl
      obtain ⟨further, tree, expr, reads⟩ := suffixesOf_sound sound literal _ _ _ accepted
      rw [passed, spelled]
      exact ⟨(passes.trans spells).trans further, tree, expr, .negativeFloat reads⟩
    · rename_i integer float
      obtain ⟨operand, middle, unary, same⟩ := Parse.run_bind_eq_ok.1 accepted
      cases same
      obtain ⟨further, tree, expr, reads⟩ := sound.unary _ _ _ unary
      have other : ∀ token, signed.tokens.head? = some token → ¬ IsNumber token := by
        rintro _ first (_ | _)
        · exact integer _ first
        · exact float _ first
      rw [passed]
      exact ⟨passes.trans further, .unary .negate tree, by simp [Tree.expr?, expr],
        .negate other reads⟩
  · rename_i absent
    exact postfixed_sound sound (fun first => absent (beq_iff_eq.2 first)) accepted

/-- Either no operator of the level follows an expression, or one does with its right operand.
The table of the level is that of the grammar. -/
theorem links_accepted {level inner : Level} {operator? : Symbol → Option BinaryOp}
    (table : ∀ symbol op, operator? symbol = some op ↔
      Grammar.operator? symbol = some (level, op))
    {operand : Parse Expr} (readsOperand : operand.ReadsAs (.level inner))
    {further : Expr → Parse Expr} {left result : Expr} {cursor after : Cursor}
    (accepted : (links operator? operand further left).run cursor = .ok (result, after)) :
    (Unlinked level cursor.tokens ∧ result = left ∧ after = cursor) ∨
      ∃ symbol op tokens middle right tree, cursor.tokens = .symbol symbol :: tokens ∧
        Grammar.operator? symbol = some (level, op) ∧ cursor.Reaches middle ∧
        tree.expr? = some right ∧ Reads (.level inner) tokens [tree] middle.tokens ∧
        (further (.binary op left right)).run middle = .ok (result, after) := by
  rw [links, Parse.run_current_bind] at accepted
  split at accepted
  · rename_i symbol current
    split at accepted
    · rename_i op operator
      obtain ⟨_, passedOperator, advanced, accepted⟩ := Parse.run_bind_eq_ok.1 accepted
      obtain ⟨passed, passes⟩ := Parse.passes_of_run_advance current advanced
      obtain ⟨right, middle, first, accepted⟩ := Parse.run_bind_eq_ok.1 accepted
      obtain ⟨reaches, tree, expr, reads⟩ := readsOperand _ _ _ first
      exact .inr ⟨symbol, op, _, middle, right, tree, passed, (table symbol op).1 operator,
        passes.trans reaches, expr, reads, accepted⟩
    · rename_i none
      cases accepted
      refine .inl ⟨fun other op first operator => ?_, rfl, rfl⟩
      cases current.symm.trans first
      cases none.symm.trans ((table symbol op).2 operator)
  · rename_i other
    cases accepted
    exact .inl ⟨fun symbol _ first => absurd first (other symbol), rfl, rfl⟩

/-- Operators of a level that chain, with their right operands. -/
theorem links_sound {level inner : Level} (chains : level.operand? = some inner)
    {operator? : Symbol → Option BinaryOp}
    (table : ∀ symbol op, operator? symbol = some op ↔
      Grammar.operator? symbol = some (level, op))
    {operand : Parse Expr} (readsOperand : operand.ReadsAs (.level inner))
    {further : Expr → Parse Expr}
    (readsFurther : ∀ (left : Expr) (tree : Tree), tree.expr? = some left →
      (further left).ReadsAs (.links level tree))
    {left : Expr} {tree : Tree} (expr : tree.expr? = some left) :
    (links operator? operand further left).ReadsAs (.links level tree) := by
  intro cursor after result accepted
  rcases links_accepted table readsOperand accepted with ⟨stops, rfl, rfl⟩ |
    ⟨symbol, op, tokens, middle, right, rightTree, passed, operator, reaches, fits, reads, accepted⟩
  · exact ⟨.refl _, tree, expr, .unlinked stops⟩
  · obtain ⟨behind, result, final, links⟩ := readsFurther _ (.binary op tree rightTree)
      (by simp [Tree.expr?, expr, fits]) _ _ _ accepted
    rw [passed]
    exact ⟨reaches.trans behind, result, final, .link operator chains reads links⟩

/-- A level of operators that chain: an operand and what links to it. -/
theorem chain_sound {level inner : Level} (operand : level.operand? = some inner)
    {first : Parse Expr} (readsFirst : first.ReadsAs (.level inner))
    {others : Expr → Parse Expr}
    (readsOthers : ∀ (left : Expr) (tree : Tree), tree.expr? = some left →
      (others left).ReadsAs (.links level tree)) :
    (first >>= others).ReadsAs (.level level) := by
  intro cursor after result accepted
  obtain ⟨left, middle, firstAccepted, accepted⟩ := Parse.run_bind_eq_ok.1 accepted
  obtain ⟨reaches, leftTree, leftFits, reads⟩ := readsFirst _ _ _ firstAccepted
  obtain ⟨further, tree, expr, links⟩ := readsOthers left leftTree leftFits _ _ _ accepted
  exact ⟨reaches.trans further, tree, expr, .chain operand reads links⟩

theorem productOp?_iff (symbol : Symbol) (op : BinaryOp) :
    productOp? symbol = some op ↔ Grammar.operator? symbol = some (.product, op) := by
  cases symbol <;> simp [productOp?, Grammar.operator?]

theorem sumOp?_iff (symbol : Symbol) (op : BinaryOp) :
    sumOp? symbol = some op ↔ Grammar.operator? symbol = some (.sum, op) := by
  cases symbol <;> simp [sumOp?, Grammar.operator?]

theorem relation?_iff (symbol : Symbol) (op : BinaryOp) :
    relation? symbol = some op ↔ Grammar.operator? symbol = some (.comparison, op) := by
  cases symbol <;> simp [relation?, Grammar.operator?]

theorem andOp?_iff (symbol : Symbol) (op : BinaryOp) :
    andOp? symbol = some op ↔ Grammar.operator? symbol = some (.conjunction, op) := by
  cases symbol <;> simp [andOp?, Grammar.operator?]

theorem orOp?_iff (symbol : Symbol) (op : BinaryOp) :
    orOp? symbol = some op ↔ Grammar.operator? symbol = some (.disjunction, op) := by
  cases symbol <;> simp [orOp?, Grammar.operator?]

theorem productLinksOf_sound (sound : inner.Sound) (left : Expr) (tree : Tree)
    (expr : tree.expr? = some left) :
    (inner.productLinksOf left).ReadsAs (.links .product tree) :=
  links_sound rfl productOp?_iff (signed_sound sound) sound.productLinks expr

theorem product_sound (sound : inner.Sound) : inner.product.ReadsAs (.level .product) :=
  chain_sound rfl (signed_sound sound) (productLinksOf_sound sound)

theorem sumLinksOf_sound (sound : inner.Sound) (left : Expr) (tree : Tree)
    (expr : tree.expr? = some left) : (inner.sumLinksOf left).ReadsAs (.links .sum tree) :=
  links_sound rfl sumOp?_iff (product_sound sound) sound.sumLinks expr

theorem sum_sound (sound : inner.Sound) : inner.sum.ReadsAs (.level .sum) :=
  chain_sound rfl (product_sound sound) (sumLinksOf_sound sound)

theorem comparison_sound (sound : inner.Sound) :
    inner.comparison.ReadsAs (.level .comparison) := by
  intro cursor after result accepted
  obtain ⟨left, middle, first, accepted⟩ := Parse.run_bind_eq_ok.1 accepted
  obtain ⟨reaches, tree, expr, readsLeft⟩ := sum_sound sound _ _ _ first
  rcases links_accepted relation?_iff (sum_sound sound) accepted with ⟨stops, rfl, rfl⟩ |
    ⟨symbol, op, tokens, _, right, rightTree, passed, operator, further, fits, reads, same⟩
  · exact ⟨reaches, tree, expr, .uncompared readsLeft stops⟩
  · cases same
    rw [passed] at readsLeft
    exact ⟨reaches.trans further, .binary op tree rightTree, by simp [Tree.expr?, expr, fits],
      .compare operator readsLeft reads⟩

theorem negated_sound (sound : inner.Sound) : inner.negated.ReadsAs (.level .negation) := by
  intro cursor after result accepted
  rw [negated, Parse.run_atSymbol_bind] at accepted
  split at accepted
  · rename_i not
    obtain ⟨_, _, advanced, accepted⟩ := Parse.run_bind_eq_ok.1 accepted
    obtain ⟨passed, passes⟩ := Parse.passes_of_run_advance (beq_iff_eq.1 not) advanced
    obtain ⟨operand, _, negation, same⟩ := Parse.run_bind_eq_ok.1 accepted
    cases same
    obtain ⟨further, tree, expr, reads⟩ := sound.negation _ _ _ negation
    rw [passed]
    exact ⟨passes.trans further, .unary .not tree, by simp [Tree.expr?, expr], .not reads⟩
  · rename_i absent
    obtain ⟨reaches, tree, expr, reads⟩ := comparison_sound sound _ _ _ accepted
    exact ⟨reaches, tree, expr, .affirmed (fun first => absent (beq_iff_eq.2 first)) reads⟩

theorem andLinksOf_sound (sound : inner.Sound) (left : Expr) (tree : Tree)
    (expr : tree.expr? = some left) : (inner.andLinksOf left).ReadsAs (.links .conjunction tree) :=
  links_sound rfl andOp?_iff (negated_sound sound) sound.andLinks expr

theorem conjunction_sound (sound : inner.Sound) :
    inner.conjunction.ReadsAs (.level .conjunction) :=
  chain_sound rfl (negated_sound sound) (andLinksOf_sound sound)

theorem orLinksOf_sound (sound : inner.Sound) (left : Expr) (tree : Tree)
    (expr : tree.expr? = some left) : (inner.orLinksOf left).ReadsAs (.links .disjunction tree) :=
  links_sound rfl orOp?_iff (conjunction_sound sound) sound.orLinks expr

theorem disjunction_sound (sound : inner.Sound) :
    inner.disjunction.ReadsAs (.level .disjunction) :=
  chain_sound rfl (conjunction_sound sound) (orLinksOf_sound sound)

theorem conditional_sound (sound : inner.Sound) :
    inner.conditional.ReadsAs (.level .conditional) := by
  intro cursor after result accepted
  obtain ⟨condition, asked, first, accepted⟩ := Parse.run_bind_eq_ok.1 accepted
  obtain ⟨reaches, tree, expr, reads⟩ := disjunction_sound sound _ _ _ first
  rw [Parse.run_atSymbol_bind] at accepted
  split at accepted
  · rename_i question
    obtain ⟨_, _, advanced, accepted⟩ := Parse.run_bind_eq_ok.1 accepted
    obtain ⟨passed, passes⟩ := Parse.passes_of_run_advance (beq_iff_eq.1 question) advanced
    obtain ⟨thenBranch, _, second, accepted⟩ := Parse.run_bind_eq_ok.1 accepted
    obtain ⟨thenReaches, thenTree, thenExpr, thenReads⟩ := sound.expression _ _ _ second
    obtain ⟨_, _, colon, accepted⟩ := Parse.run_bind_eq_ok.1 accepted
    obtain ⟨divided, divides⟩ := Parse.passes_of_expect colon
    obtain ⟨elseBranch, _, third, same⟩ := Parse.run_bind_eq_ok.1 accepted
    cases same
    obtain ⟨elseReaches, elseTree, elseExpr, elseReads⟩ := sound.expression _ _ _ third
    rw [passed] at reads
    rw [divided] at thenReads
    exact ⟨(((reaches.trans passes).trans thenReaches).trans divides).trans elseReaches,
      .conditional tree thenTree elseTree, by simp [Tree.expr?, expr, thenExpr, elseExpr],
      .conditional reads thenReads elseReads⟩
  · rename_i absent
    have absent : asked.tokens.head? ≠ some (.symbol .question) :=
      fun first => absent (beq_iff_eq.2 first)
    cases accepted
    exact ⟨reaches, tree, expr, .condition reads absent⟩

theorem deeper_sound (sound : inner.Sound) : inner.deeper.Sound where
  expression := conditional_sound sound
  negation := negated_sound sound
  unary := signed_sound sound
  orLinks := orLinksOf_sound sound
  andLinks := andLinksOf_sound sound
  sumLinks := sumLinksOf_sound sound
  productLinks := productLinksOf_sound sound
  suffixes _ _ expr := suffixesOf_sound sound expr

theorem ofBudget_sound (budget : Nat) : (ofBudget budget).Sound := by
  induction budget with
  | zero => exact tooDeep_sound
  | succ budget ih => exact deeper_sound ih

end ExprParsers

theorem Parse.expression_readsAs : Parse.expression.ReadsAs (.level .conditional) :=
  (ExprParsers.ofBudget_sound nestingLimit).expression

/-- An expression that makes up the rest of the script is derived from all of its tokens. -/
theorem Parse.wholeExpression_sound {cursor after : Cursor} {expr : Expr}
    (accepted : wholeExpression.run cursor = .ok (expr, after)) :
    ∃ tree, tree.expr? = some expr ∧ Derives .conditional cursor.tokens tree := by
  obtain ⟨_, _, first, accepted⟩ := Parse.run_bind_eq_ok.1 accepted
  obtain ⟨_, _, ended, same⟩ := Parse.run_bind_eq_ok.1 accepted
  cases same
  obtain ⟨none, rfl⟩ := Parse.of_expectEnd ended
  obtain ⟨_, tree, fits, reads⟩ := Parse.expression_readsAs _ _ _ first
  obtain ⟨taken, all, derives⟩ := reads.means
  rw [none, List.append_nil] at all
  exact ⟨tree, fits, all ▸ derives⟩

end Pipeline
