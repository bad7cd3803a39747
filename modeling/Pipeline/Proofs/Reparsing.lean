import Mathlib.Logic.Relation
import Pipeline.Proofs.BoundedIntegers
import Pipeline.Proofs.Decimals
import Pipeline.Proofs.ExprInduction
import Pipeline.Proofs.ParserCompleteness
import Pipeline.Proofs.Printing

/-! The parsers of expressions read back the tokens that are written for an expression, if the
nesting budget allows it, and otherwise complain of the nesting and of nothing else. -/

set_option autoImplicit false

namespace Pipeline

open Grammar

namespace Parse

variable {α β : Type}

/-- The result of a parser that takes so many units of the nesting budget. -/
def granted (need budget : Nat) (value : α) (rest : List Token) :
    Except ParseError (α × Cursor) :=
  if need ≤ budget then .ok (value, ⟨rest, none⟩) else .error .tooDeep

theorem granted_zero (budget : Nat) (value : α) (rest : List Token) :
    granted 0 budget value rest = .ok (value, ⟨rest, none⟩) :=
  if_pos (Nat.zero_le _)

theorem run_bind_granted {first : Parse α} {next : α → Parse β} {cursor : Cursor}
    {need further budget : Nat} {value : α} {result : β} {middle rest : List Token}
    (ran : first.run cursor = granted need budget value middle)
    (goes : (next value).run ⟨middle, none⟩ = granted further budget result rest) :
    (first >>= next).run cursor = granted (max need further) budget result rest := by
  by_cases within : need ≤ budget
  · rw [granted, if_pos within] at ran
    rw [run_bind_ok ran, goes, granted, granted]
    by_cases all : further ≤ budget
    · rw [if_pos all, if_pos (Nat.max_le.2 ⟨within, all⟩)]
    · rw [if_neg all, if_neg fun both => all (Nat.max_le.1 both).2]
  · rw [granted, if_neg within] at ran
    rw [StateT.run_bind, ran, granted, if_neg fun both => within (Nat.max_le.1 both).1]
    rfl

/-- What takes no budget behind a parser does not add to its need. -/
theorem run_bind_granted_pure {first : Parse α} {next : α → Parse β} {cursor : Cursor}
    {need budget : Nat} {value : α} {result : β} {middle rest : List Token}
    (ran : first.run cursor = granted need budget value middle)
    (goes : (next value).run ⟨middle, none⟩ = .ok (result, ⟨rest, none⟩)) :
    (first >>= next).run cursor = granted need budget result rest := by
  rw [← granted_zero budget] at goes
  simpa using run_bind_granted ran goes

theorem run_map_granted {first : Parse α} {cursor : Cursor} {need budget : Nat} {value : α}
    {rest : List Token} (image : α → β) (ran : first.run cursor = granted need budget value rest) :
    (image <$> first).run cursor = granted need budget (image value) rest := by
  rw [map_eq_pure_bind]
  exact run_bind_granted_pure ran rfl

end Parse

namespace ExprParsers

open Parse

variable {tokens rest : List Token} {need : Nat}

/-- A parser that goes one level deeper takes one unit more. -/
theorem granted_deeper {α : Type} {cursor : Cursor} {value : α}
    (parser further : ExprParsers → Parse α) (shallow : parser tooDeep = throw .tooDeep)
    (deep : ∀ inner, parser inner.deeper = further inner)
    (ran : ∀ budget, (further (ofBudget budget)).run cursor = granted need budget value rest)
    (budget : Nat) :
    (parser (ofBudget budget)).run cursor = granted (need + 1) budget value rest := by
  cases budget with
  | zero =>
      rw [ofBudget, shallow, granted, if_neg (Nat.not_succ_le_zero _)]
      rfl
  | succ budget =>
      rw [ofBudget, deep, ran, granted, granted]
      simp only [Nat.add_le_add_iff_right]

/-- The tokens are read as the expression at a level, wherever nothing goes on with it. -/
structure ReadsBack (level : Level) (tokens : List Token) (expr : Expr) (need : Nat) : Prop where
  starts : ∃ first others, tokens = first :: others ∧ level.StartsWith first
  runs (budget : Nat) (rest : List Token) : Stops level.rank rest →
    ((ofBudget budget).ofLevel level).run ⟨tokens ++ rest, none⟩ = granted need budget expr rest

theorem ReadsBack.head?_ne {level : Level} {expr : Expr}
    (readsBack : ReadsBack level tokens expr need) (symbol : Symbol)
    (other : ¬ level.StartsWith (.symbol symbol)) (rest : List Token) :
    (tokens ++ rest).head? ≠ some (.symbol symbol) := by
  obtain ⟨first, others, rfl, starts⟩ := readsBack.starts
  intro same
  cases same
  exact other starts

theorem rank_le_of_includes {outer inner : Level} (includes : outer.Includes inner) :
    inner.rank ≤ outer.rank := by
  cases includes <;> decide

/-- No operator of a level that chains follows. -/
theorem linksOfLevel_unlinked {level operand : Level} (chains : level.operand? = some operand)
    (stops : Unlinked level rest) (budget : Nat) (left : Expr) :
    ((ofBudget budget).linksOfLevel level left).run ⟨rest, none⟩ = .ok (left, ⟨rest, none⟩) := by
  obtain ⟨_, _, table, same, _⟩ := linksOfLevel_eq budget chains
  rw [same, links_unlinked table stops]

theorem suffixesOf_bare (inner : ExprParsers) (expr : Expr)
    (absent : rest.head? ≠ some (.symbol .dot)) :
    (inner.suffixesOf expr).run ⟨rest, none⟩ = .ok (expr, ⟨rest, none⟩) := by
  rw [suffixesOf, run_atSymbol_ne_bind absent]
  rfl

theorem ReadsBack.loosen {outer inner : Level} {expr : Expr}
    (readsBack : ReadsBack inner tokens expr need) (includes : outer.Includes inner) :
    ReadsBack outer tokens expr need := by
  obtain ⟨first, others, same, starts⟩ := readsBack.starts
  refine ⟨⟨first, others, same, includes.startsWith starts⟩, fun budget rest stops => ?_⟩
  have ran := readsBack.runs budget rest (stops.mono (rank_le_of_includes includes))
  cases includes with
  | disjunction =>
      refine run_bind_granted_pure ran ?_
      rw [run_atSymbol_ne_bind (stops.head?_ne (by decide))]
      rfl
  | conjunction | negation | product | signed =>
      rw [ofLevel_eq_bind _ rfl]
      exact run_bind_granted_pure ran (linksOfLevel_unlinked rfl stops.unlinked budget expr)
  | comparison =>
      have absent := readsBack.head?_ne .not (by simp [Level.StartsWith]) rest
      change (ofBudget budget).negated.run _ = _
      rw [negated, run_atSymbol_ne_bind absent]
      exact ran
  | sum => exact run_bind_granted_pure ran (links_unlinked relation?_iff stops.unlinked _ _ _)
  | signedNumber | postfixed => exact ran
  | primary =>
      have absent := readsBack.head?_ne .minus (by simp [Level.StartsWith]) rest
      change (ofBudget budget).signed.run _ = _
      rw [signed, run_atSymbol_ne_bind absent]
      exact run_bind_granted_pure ran (suffixesOf_bare _ _ (stops.head?_ne (by decide)))

/-- The tokens may stand wherever an expression of a looser level may. -/
theorem ReadsBack.loosen_all {outer inner : Level} {expr : Expr}
    (readsBack : ReadsBack inner tokens expr need)
    (admits : Relation.ReflTransGen Level.Includes outer inner) :
    ReadsBack outer tokens expr need := by
  induction admits with
  | refl => exact readsBack
  | tail _ includes ih => exact ih (readsBack.loosen includes)

theorem conditional_admits (level : Level) :
    Relation.ReflTransGen Level.Includes .conditional level := by
  have conditional : Relation.ReflTransGen Level.Includes .conditional .conditional := .refl
  have disjunction := conditional.tail .disjunction
  have conjunction := disjunction.tail .conjunction
  have negation := conjunction.tail .negation
  have comparison := negation.tail .comparison
  have sum := comparison.tail .sum
  have product := sum.tail .product
  have signed := product.tail .signed
  have signedNumber := signed.tail .signedNumber
  have postfixed := signed.tail .postfixed
  have primary := postfixed.tail .primary
  cases level <;> assumption

theorem admits_primary {level : Level} (other : level ≠ .signedNumber) :
    Relation.ReflTransGen Level.Includes level .primary := by
  have primary : Relation.ReflTransGen Level.Includes .primary .primary := .refl
  have postfixed := primary.head .primary
  have signed := postfixed.head .postfixed
  have product := signed.head .signed
  have sum := product.head .product
  have comparison := sum.head .sum
  have negation := comparison.head .comparison
  have conjunction := negation.head .negation
  have disjunction := conjunction.head .conjunction
  have conditional := disjunction.head .disjunction
  cases level <;> first | assumption | exact absurd rfl other

/-- An expression takes one unit more than what is read at the loosest level. -/
theorem ReadsBack.expression {expr : Expr} (readsBack : ReadsBack .conditional tokens expr need)
    (stops : Stops Level.conditional.rank rest) (budget : Nat) :
    (ofBudget budget).expression.run ⟨tokens ++ rest, none⟩ =
      granted (need + 1) budget expr rest :=
  granted_deeper (·.expression) (·.conditional) rfl (fun _ => rfl)
    (fun budget => readsBack.runs budget rest stops) budget

/-- Whatever stands in brackets, an expression of any level may start so. -/
theorem starts_bracketed (level : Level) (tokens more : List Token) :
    ∃ first others, bracketed tokens ++ more = first :: others ∧ level.StartsWith first :=
  ⟨_, _, rfl, fun _ same => by cases same; exact .inl rfl⟩

/-- In brackets an expression stands as an operand of any operator. -/
theorem ReadsBack.operand {expr : Expr} (readsBack : ReadsBack .conditional tokens expr need)
    (level : Level) (other : level ≠ .signedNumber) :
    ReadsBack level (bracketed tokens) expr (need + 1) := by
  have primary : ReadsBack .primary (bracketed tokens) expr (need + 1) := by
    refine ⟨by simpa using starts_bracketed .primary tokens [], fun budget rest _ => ?_⟩
    change (ofBudget budget).primary.run _ = _
    rw [primary, bracketed, List.cons_append, List.append_assoc, List.singleton_append,
      run_current_bind]
    simp only [Cursor.current, List.head?_cons]
    rw [run_advance_cons_bind]
    refine run_bind_granted_pure (readsBack.expression (stops_symbol (by decide)) budget) ?_
    rw [run_expect_cons_bind]
    rfl
  exact primary.loosen_all (admits_primary other)

/-! ## Literals and names -/

/-- The digits of a number's absolute value are read with its sign as the number. -/
theorem integer_run {value : Int64} {negative : Bool} (sign : negative = decide (value.toInt < 0))
    (token : Token) :
    (integer negative (String.ofList (Nat.toDigits 10 value.toInt.natAbs))).run
        ⟨token :: rest, none⟩ =
      .ok (.literal (.number (.integer value)), ⟨rest, none⟩) := by
  have size : (if negative then -(value.toInt.natAbs : Int) else value.toInt.natAbs) =
      value.toInt := by
    rw [sign]
    by_cases below : value.toInt < 0
    · rw [if_pos (decide_eq_true below)]
      omega
    · rw [if_neg (by simpa using below)]
      omega
  rw [integer]
  simp only [String.toList_ofList, digitsValue_toDigits, size, boundedInteger?_toInt]
  rw [run_advance_cons_bind]
  rfl

/-- A single token that is no symbol is read as a primary expression. -/
theorem readsBack_token {token : Token} {expr : Expr} (other : ∀ symbol, token ≠ .symbol symbol)
    (ran : ∀ inner rest, Stops 0 rest →
      (primary inner).run ⟨token :: rest, none⟩ = .ok (expr, ⟨rest, none⟩)) :
    ReadsBack .conditional [token] expr 0 := by
  have primary : ReadsBack .primary [token] expr 0 := by
    refine ⟨⟨token, [], rfl, Level.startsWith_of_not_symbol other⟩, fun budget rest stops => ?_⟩
    rw [granted_zero]
    exact ran _ rest stops
  exact primary.loosen_all (conditional_admits _)

/-- A minus sign belongs to the number behind it. -/
theorem readsBack_negative {token : Token} {expr : Expr}
    (ran : ∀ inner rest, Stops 1 rest →
      (signed inner).run ⟨.symbol .minus :: token :: rest, none⟩ = .ok (expr, ⟨rest, none⟩)) :
    ReadsBack .conditional [.symbol .minus, token] expr 0 := by
  have signed : ReadsBack .signedNumber [.symbol .minus, token] expr 0 := by
    refine ⟨⟨_, _, rfl, fun _ same => ?_⟩, fun budget rest stops => ?_⟩
    · cases same
      exact .inr (.inl (by decide))
    · rw [granted_zero]
      exact ran _ rest stops
  exact signed.loosen_all (conditional_admits _)

theorem readsBack_number (value : Number) :
    ReadsBack .conditional value.tokens (.literal (.number value)) 0 := by
  cases value with
  | integer value =>
      simp only [Number.tokens]
      split
      · rename_i negative
        refine readsBack_negative fun inner rest stops => ?_
        rw [signed, run_atSymbol_cons_bind, if_pos rfl, run_advance_cons_bind, run_current_bind]
        refine run_bind_eq_ok.2 ⟨_, _, integer_run (by simpa using negative) _, ?_⟩
        exact suffixesOf_bare _ _ (stops.head?_ne (by decide))
      · rename_i positive
        refine readsBack_token (by simp) fun inner rest _ => ?_
        rw [primary, run_current_bind]
        exact integer_run (by simpa using positive) _
  | float value =>
      simp only [Number.tokens]
      split
      · refine readsBack_negative fun inner rest stops => ?_
        rw [signed, run_atSymbol_cons_bind, if_pos rfl, run_advance_cons_bind, run_current_bind]
        simp only [Cursor.current, List.head?_cons]
        rw [run_advance_cons_bind, Double.neg_neg]
        exact suffixesOf_bare _ _ (stops.head?_ne (by decide))
      · refine readsBack_token (by simp) fun inner rest _ => ?_
        rw [primary, run_current_bind]
        simp only [Cursor.current, List.head?_cons]
        rw [run_advance_cons_bind]
        rfl

theorem readsBack_literal (value : Scalar) :
    ReadsBack .conditional value.tokens (.literal value) 0 := by
  cases value with
  | number value => exact readsBack_number value
  | text value | boolean value =>
      refine readsBack_token (by simp) fun inner rest _ => ?_
      rw [primary, run_current_bind]
      simp only [Cursor.current, List.head?_cons]
      rw [run_advance_cons_bind]
      rfl

theorem readsBack_name (name : String) :
    ReadsBack .primary [.name name] (.reference name) 0 := by
  refine ⟨⟨_, _, rfl, Level.startsWith_of_not_symbol (by simp)⟩, fun budget rest stops => ?_⟩
  change (ofBudget budget).primary.run _ = _
  rw [granted_zero, List.singleton_append, primary, run_current_bind]
  simp only [Cursor.current, List.head?_cons]
  rw [run_advance_cons_bind, run_atSymbol_ne_bind (stops.head?_ne (by decide))]
  rfl

theorem readsBack_reference (name : String) :
    ReadsBack .conditional [.name name] (.reference name) 0 :=
  (readsBack_name name).loosen_all (conditional_admits _)

/-! ## Operators -/

theorem operator?_symbol (op : BinaryOp) :
    ∃ level, Grammar.operator? op.symbol = some (level, op) ∧
      (level = .comparison ∨
        ∃ operand, level.operand? = some operand ∧ operand ≠ .signedNumber) := by
  cases op with
  | arithmetic op => cases op <;> exact ⟨_, rfl, .inr ⟨_, rfl, by decide⟩⟩
  | relation op => cases op <;> exact ⟨_, rfl, .inl rfl⟩
  | connective op => cases op <;> exact ⟨_, rfl, .inr ⟨_, rfl, by decide⟩⟩

/-- A level of operators that chain looks for a further operator one level deeper. -/
theorem linksOfLevel_further {level operand : Level} (chains : level.operand? = some operand)
    (budget : Nat) :
    ∃ (operator? : Symbol → Option BinaryOp) (further : Expr → Parse Expr),
      (∀ symbol op, operator? symbol = some op ↔
        Grammar.operator? symbol = some (level, op)) ∧
      (ofBudget budget).linksOfLevel level =
        links operator? ((ofBudget budget).ofLevel operand) further ∧
      ∀ (left result : Expr) (need : Nat) (tokens rest : List Token),
        (∀ budget, ((ofBudget budget).linksOfLevel level left).run ⟨tokens, none⟩ =
          granted need budget result rest) →
        (further left).run ⟨tokens, none⟩ = granted (need + 1) budget result rest := by
  cases level <;> cases chains
  · exact ⟨_, _, orOp?_iff, rfl, fun left _ _ _ _ ran =>
      granted_deeper (·.orLinks left) (·.orLinksOf left) rfl (fun _ => rfl) ran budget⟩
  · exact ⟨_, _, andOp?_iff, rfl, fun left _ _ _ _ ran =>
      granted_deeper (·.andLinks left) (·.andLinksOf left) rfl (fun _ => rfl) ran budget⟩
  · exact ⟨_, _, sumOp?_iff, rfl, fun left _ _ _ _ ran =>
      granted_deeper (·.sumLinks left) (·.sumLinksOf left) rfl (fun _ => rfl) ran budget⟩
  · exact ⟨_, _, productOp?_iff, rfl, fun left _ _ _ _ ran =>
      granted_deeper (·.productLinks left) (·.productLinksOf left) rfl (fun _ => rfl) ran budget⟩

/-- One link, and whatever goes on from it with one unit less. -/
theorem linksOfLevel_goes_on {level operand : Level} {op : BinaryOp} {symbol : Symbol}
    (operator : Grammar.operator? symbol = some (level, op))
    (chains : level.operand? = some operand) {left right result : Expr} {more : List Token}
    {further : Nat} (readsBack : ReadsBack operand tokens right need)
    (stops : Stops operand.rank more)
    (goes : ∀ budget, ((ofBudget budget).linksOfLevel level (.binary op left right)).run
      ⟨more, none⟩ = granted further budget result rest) (budget : Nat) :
    ((ofBudget budget).linksOfLevel level left).run ⟨.symbol symbol :: (tokens ++ more), none⟩ =
      granted (max need (further + 1)) budget result rest := by
  obtain ⟨_, next, table, same, deeper⟩ := linksOfLevel_further chains budget
  rw [same, links_cons table operator]
  exact run_bind_granted (readsBack.runs budget more stops) (deeper _ _ _ _ _ goes)

theorem linksOfLevel_link {level operand : Level} {op : BinaryOp} {symbol : Symbol}
    (operator : Grammar.operator? symbol = some (level, op))
    (chains : level.operand? = some operand) (left : Expr) {right : Expr}
    (readsBack : ReadsBack operand tokens right need) (stops : Stops level.rank rest)
    (budget : Nat) :
    ((ofBudget budget).linksOfLevel level left).run ⟨.symbol symbol :: (tokens ++ rest), none⟩ =
      granted (max need 1) budget (.binary op left right) rest := by
  have tighter := Nat.le_of_lt (Level.operand?_rank chains)
  refine linksOfLevel_goes_on operator chains readsBack (stops.mono tighter) (fun budget => ?_)
    budget
  rw [granted_zero, linksOfLevel_unlinked chains stops.unlinked]

theorem comparison_link {op : BinaryOp} {symbol : Symbol}
    (operator : Grammar.operator? symbol = some (.comparison, op)) {left right : Expr}
    (readsBack : ReadsBack .sum tokens right need) (stops : Stops Level.comparison.rank rest)
    (budget : Nat) :
    (links relation? (ofBudget budget).sum pure left).run
        ⟨.symbol symbol :: (tokens ++ rest), none⟩ =
      granted need budget (.binary op left right) rest := by
  rw [links_cons relation?_iff operator]
  exact run_bind_granted_pure (readsBack.runs budget rest (stops.mono (by decide))) rfl

theorem ReadsBack.binary {op : BinaryOp} {left right : Expr} {others : List Token}
    {further : Nat} (leftBack : ReadsBack .conditional tokens left need)
    (rightBack : ReadsBack .conditional others right further) :
    ReadsBack .conditional (bracketed tokens ++ .symbol op.symbol :: bracketed others)
      (.binary op left right) (max (need + 1) (further + 1)) := by
  obtain ⟨level, operator, comparison | ⟨operand, chains, other⟩⟩ := operator?_symbol op
  · subst comparison
    refine ReadsBack.loosen_all ⟨starts_bracketed _ _ _, fun budget rest stops => ?_⟩
      (conditional_admits .comparison)
    have behindLeft : Stops Level.sum.rank (.symbol op.symbol :: (bracketed others ++ rest)) :=
      stops_symbol (by rw [rankBehind_operator operator]; decide)
    rw [List.append_assoc, List.cons_append]
    exact run_bind_granted ((leftBack.operand .sum (by decide)).runs budget _ behindLeft)
      (comparison_link operator (rightBack.operand .sum (by decide)) stops budget)
  · refine ReadsBack.loosen_all ⟨starts_bracketed _ _ _, fun budget rest stops => ?_⟩
      (conditional_admits level)
    have behindLeft : Stops operand.rank (.symbol op.symbol :: (bracketed others ++ rest)) :=
      stops_symbol (by rw [rankBehind_operator operator]; exact Level.operand?_rank chains)
    have linked := linksOfLevel_link operator chains left (rightBack.operand operand other) stops
      budget
    rw [Nat.max_eq_left (Nat.le_add_left 1 further)] at linked
    rw [List.append_assoc, List.cons_append, ofLevel_eq_bind _ chains]
    exact run_bind_granted ((leftBack.operand operand other).runs budget _ behindLeft) linked

theorem ReadsBack.unary {op : UnaryOp} {operand : Expr}
    (readsBack : ReadsBack .conditional tokens operand need) :
    ReadsBack .conditional (.symbol op.symbol :: bracketed tokens) (.unary op operand)
      (need + 2) := by
  cases op with
  | negate =>
      refine ReadsBack.loosen_all ⟨?_, fun budget rest stops => ?_⟩ (conditional_admits .signed)
      · exact ⟨_, _, rfl, fun _ same => by cases same; exact .inr (.inl (by decide))⟩
      · change (ofBudget budget).signed.run _ = _
        rw [signed, List.cons_append, UnaryOp.symbol, run_atSymbol_cons_bind, if_pos rfl,
          run_advance_cons_bind, run_current_bind]
        -- A bracket follows the sign, so the sign is an operator.
        exact run_bind_granted_pure (granted_deeper (·.unary) (·.signed) rfl (fun _ => rfl)
          (fun budget => (readsBack.operand .signed (by decide)).runs budget rest stops) budget)
          rfl
  | not =>
      refine ReadsBack.loosen_all ⟨?_, fun budget rest stops => ?_⟩ (conditional_admits .negation)
      · exact ⟨_, _, rfl, fun _ same => by cases same; exact .inr (.inr (by decide))⟩
      · change (ofBudget budget).negated.run _ = _
        rw [negated, List.cons_append, UnaryOp.symbol, run_atSymbol_cons_bind, if_pos rfl,
          run_advance_cons_bind]
        exact run_bind_granted_pure (granted_deeper (·.negation) (·.negated) rfl (fun _ => rfl)
          (fun budget => (readsBack.operand .negation (by decide)).runs budget rest
            stops) budget) rfl

theorem ReadsBack.conditional {condition thenBranch elseBranch : Expr} {second third : List Token}
    {thenNeed elseNeed : Nat} (conditionBack : ReadsBack .conditional tokens condition need)
    (thenBack : ReadsBack .conditional second thenBranch thenNeed)
    (elseBack : ReadsBack .conditional third elseBranch elseNeed) :
    ReadsBack .conditional
      (bracketed tokens ++ .symbol .question ::
        (bracketed second ++ .symbol .colon :: bracketed third))
      (.conditional condition thenBranch elseBranch)
      (max (need + 1) (max (thenNeed + 2) (elseNeed + 2))) := by
  refine ⟨starts_bracketed _ _ _, fun budget rest stops => ?_⟩
  simp only [List.append_assoc, List.cons_append]
  refine run_bind_granted ((conditionBack.operand .disjunction (by decide)).runs
    budget _ (stops_symbol (by decide))) ?_
  rw [run_atSymbol_cons_bind, if_pos rfl, run_advance_cons_bind]
  refine run_bind_granted ((thenBack.operand .conditional (by decide)).expression
    (stops_symbol (by decide)) budget) ?_
  rw [run_expect_cons_bind]
  exact run_bind_granted_pure
    ((elseBack.operand .conditional (by decide)).expression stops budget) rfl

/-! ## Suffixes and arguments -/

theorem suffixes_bare (absent : rest.head? ≠ some (.symbol .dot)) (budget : Nat) (expr : Expr) :
    ((ofBudget budget).suffixes expr).run ⟨rest, none⟩ = granted 1 budget expr rest :=
  granted_deeper (·.suffixes expr) (·.suffixesOf expr) rfl (fun _ => rfl)
    (fun budget => by rw [granted_zero, suffixesOf_bare _ _ absent]) budget

theorem ReadsBack.suffixed {object result : Expr} {suffix : List Token} {further : Nat}
    (readsBack : ReadsBack .conditional tokens object need)
    (dotted : suffix.head? = some (.symbol .dot))
    (ran : ∀ budget rest, Stops 1 rest →
      ((ofBudget budget).suffixesOf object).run ⟨suffix ++ rest, none⟩ =
        granted further budget result rest) :
    ReadsBack .conditional (bracketed tokens ++ suffix) result (max (need + 1) further) := by
  refine ReadsBack.loosen_all ⟨starts_bracketed _ _ _, fun budget rest stops => ?_⟩
    (conditional_admits .postfixed)
  obtain ⟨others, rfl⟩ := List.head?_eq_some_iff.1 dotted
  have unsigned : (bracketed tokens ++ .symbol .dot :: others ++ rest).head? ≠
      some (.symbol .minus) := by simp [bracketed]
  have primary := (readsBack.operand .primary (by decide)).runs budget
    (.symbol .dot :: others ++ rest) (stops_symbol (by decide))
  change (ofBudget budget).signed.run _ = _
  rw [signed, run_atSymbol_ne_bind unsigned, List.append_assoc]
  exact run_bind_granted primary (ran budget rest stops)

theorem ReadsBack.field {object : Expr} (name : String)
    (readsBack : ReadsBack .conditional tokens object need) :
    ReadsBack .conditional (bracketed tokens ++ [.symbol .dot, .name name])
      (.field object name) (need + 1) := by
  rw [← Nat.max_eq_left (Nat.le_add_left 1 need)]
  refine readsBack.suffixed rfl fun budget rest stops => ?_
  rw [suffixesOf, List.cons_append, run_atSymbol_cons_bind, if_pos rfl, run_advance_cons_bind,
    List.cons_append, run_expectName_cons_bind, List.nil_append,
    run_atSymbol_ne_bind (stops.head?_ne (by decide))]
  exact suffixes_bare (stops.head?_ne (by decide)) budget (.field object name)

/-- The arguments as they are written between the brackets of a call. -/
theorem argumentList_run {arguments : List Expr}
    (each : ∀ argument ∈ arguments,
      ReadsBack .conditional argument.tokens argument argument.nesting) (budget : Nat) {bound : Nat}
    (long : ([Token.symbol .comma].intercalate (Expr.tokensOfEach arguments)).length < bound) :
    (argumentList (ofBudget budget).expression bound).run
        ⟨[Token.symbol .comma].intercalate (Expr.tokensOfEach arguments) ++
          .symbol .rightParen :: rest, none⟩ =
      granted (Expr.nestingOfAll arguments) budget arguments (.symbol .rightParen :: rest) := by
  induction arguments generalizing bound with
  | nil =>
      rw [Expr.nestingOfAll, granted_zero]
      exact argumentList_closed _ _
  | cons argument others ih =>
      obtain ⟨first, othersEach⟩ := List.forall_mem_cons.1 each
      obtain ⟨bound, rfl⟩ := Nat.exists_eq_succ_of_ne_zero (Nat.ne_zero_of_lt long)
      rw [Expr.nestingOfAll, argumentList]
      cases others with
      | nil =>
          rw [Expr.tokensOfEach, Expr.tokensOfEach, List.intercalate_singleton]
          rw [run_atSymbol_ne_bind (first.head?_ne .rightParen (by simp [Level.StartsWith]) _)]
          refine run_bind_granted (first.expression (stops_symbol (by decide)) budget) ?_
          rw [run_atSymbol_cons_bind, Expr.nestingOfAll, granted_zero]
          simp only [Bool.not_true, Bool.false_eq_true, if_false, StateT.run_bind,
            argumentList_closed]
          rfl
      | cons next others =>
          have goes := @ih othersEach bound
          rw [Expr.tokensOfEach] at goes
          rw [Expr.tokensOfEach, Expr.tokensOfEach, List.intercalate_cons_cons] at long ⊢
          simp only [List.length_append, List.length_singleton] at long
          rw [List.append_assoc, List.append_assoc, List.singleton_append]
          rw [run_atSymbol_ne_bind (first.head?_ne .rightParen (by simp [Level.StartsWith]) _)]
          refine run_bind_granted (first.expression (stops_symbol (by decide)) budget) ?_
          rw [run_atSymbol_ne_bind (by simp)]
          simp only [Bool.not_false, if_true]
          rw [run_expect_cons_bind]
          exact run_bind_granted_pure (goes (by omega)) rfl

theorem arguments_run {arguments : List Expr}
    (each : ∀ argument ∈ arguments,
      ReadsBack .conditional argument.tokens argument argument.nesting) (budget : Nat) :
    (ofBudget budget).arguments.run
        ⟨bracketed ([Token.symbol .comma].intercalate (Expr.tokensOfEach arguments)) ++ rest,
          none⟩ =
      granted (Expr.nestingOfAll arguments) budget arguments rest := by
  rw [ExprParsers.arguments, bracketed, List.cons_append, List.append_assoc,
    List.singleton_append, run_expect_cons_bind, run_remaining_bind]
  refine run_bind_granted_pure (argumentList_run each budget ?_) ?_
  · simp only [List.length_append]
    omega
  · rw [run_expect_cons_bind]
    rfl

theorem ReadsBack.method {object : Expr} {arguments : List Expr} (name : String)
    (readsBack : ReadsBack .conditional tokens object need)
    (each : ∀ argument ∈ arguments,
      ReadsBack .conditional argument.tokens argument argument.nesting) :
    ReadsBack .conditional
      (bracketed tokens ++ .symbol .dot :: .name name ::
        bracketed ([Token.symbol .comma].intercalate (Expr.tokensOfEach arguments)))
      (.method object name arguments) (max (need + 1) (Expr.nestingOfAll arguments)) := by
  have same : max (need + 1) (Expr.nestingOfAll arguments) =
      max (need + 1) (max (Expr.nestingOfAll arguments) 1) := by omega
  rw [same]
  refine readsBack.suffixed rfl fun budget rest stops => ?_
  rw [suffixesOf, List.cons_append, run_atSymbol_cons_bind, if_pos rfl, run_advance_cons_bind,
    List.cons_append, run_expectName_cons_bind]
  -- The bracket behind the name opens the arguments.
  change StateT.run (atSymbol .leftParen >>= _) ⟨.symbol .leftParen :: _, none⟩ = _
  rw [run_atSymbol_cons_bind, if_pos rfl]
  exact run_bind_granted (arguments_run each budget)
    (suffixes_bare (stops.head?_ne (by decide)) budget (.method object name arguments))

theorem readsBack_call {arguments : List Expr} (function : String)
    (each : ∀ argument ∈ arguments,
      ReadsBack .conditional argument.tokens argument argument.nesting) :
    ReadsBack .conditional
      (.name function ::
        bracketed ([Token.symbol .comma].intercalate (Expr.tokensOfEach arguments)))
      (.call function arguments) (Expr.nestingOfAll arguments) := by
  refine ReadsBack.loosen_all ⟨?_, fun budget rest _ => ?_⟩ (conditional_admits .primary)
  · exact ⟨_, _, rfl, Level.startsWith_of_not_symbol (by simp)⟩
  · change (ofBudget budget).primary.run _ = _
    rw [primary, List.cons_append, run_current_bind]
    simp only [Cursor.current, List.head?_cons]
    rw [run_advance_cons_bind]
    change StateT.run (atSymbol .leftParen >>= _) ⟨.symbol .leftParen :: _, none⟩ = _
    rw [run_atSymbol_cons_bind, if_pos rfl]
    exact run_bind_granted_pure (arguments_run each budget) rfl

/-- Every expression is read back from its tokens. -/
theorem readsBack_tokens (expr : Expr) :
    ReadsBack .conditional expr.tokens expr expr.nesting := by
  induction expr using Expr.induct with
  | literal value => exact readsBack_literal value
  | reference name => exact readsBack_reference name
  | field object name objectIH => exact objectIH.field name
  | unary op operand operandIH => exact operandIH.unary
  | binary op left right leftIH rightIH => exact leftIH.binary rightIH
  | conditional condition thenBranch elseBranch conditionIH thenIH elseIH =>
      exact conditionIH.conditional thenIH elseIH
  | method object name arguments objectIH argumentsIH => exact objectIH.method name argumentsIH
  | call function arguments argumentsIH => exact readsBack_call function argumentsIH

end ExprParsers

theorem Parse.expression_run {expr : Expr} {rest : List Token}
    (stops : Stops Level.conditional.rank rest) :
    expression.run ⟨expr.tokens ++ rest, none⟩ =
      granted (expr.nesting + 1) nestingLimit expr rest :=
  (ExprParsers.readsBack_tokens expr).expression stops nestingLimit

end Pipeline
