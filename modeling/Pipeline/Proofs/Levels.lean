import Mathlib.Data.Nat.Choose.Basic
import Pipeline.Proofs.Yielding

/-! How many operators and suffixes lie on one path through an expression. The parsers take a unit
of the budget for each link of a chain while they read what follows it. The chain has given them
back when the looser level around it starts to count, so that what five levels take of the same
budget adds up. -/

set_option autoImplicit false

namespace Pipeline

/-- Whether the operator takes a unit of the nesting budget: comparisons do not chain. -/
def BinaryOp.isLevel : BinaryOp → Bool
  | arithmetic _ | connective _ => true
  | relation _ => false

namespace Expr

/-- Whether the expression is an operator or suffix that takes a unit of the nesting budget. -/
def isLevel : Expr → Bool
  | .field .. | .unary .. | .method .. => true
  | .binary op _ _ => op.isLevel
  | .literal _ | .reference _ | .conditional .. | .call .. => false

def children : Expr → List Expr
  | .literal _ | .reference _ => []
  | .field object _ => [object]
  | .unary _ operand => [operand]
  | .binary _ left right => [left, right]
  | .conditional condition thenBranch elseBranch => [condition, thenBranch, elseBranch]
  | .method object _ arguments => object :: arguments
  | .call _ arguments => arguments

/-- The expressions from an expression down to one without children. -/
inductive Path : Expr → List Expr → Prop where
  | leaf {expr : Expr} : expr.children = [] → Path expr [expr]
  | down {expr child : Expr} {path : List Expr} :
      child ∈ expr.children → Path child path → Path expr (expr :: path)

mutual

/-- The most operators and suffixes on a path through an expression. -/
def levels : Expr → Nat
  | .literal _ | .reference _ => 0
  | .field object _ => levels object + 1
  | .unary _ operand => levels operand + 1
  | .binary op left right => max (levels left) (levels right) + op.isLevel.toNat
  | .conditional condition thenBranch elseBranch =>
    max (levels condition) (max (levels thenBranch) (levels elseBranch))
  | .method object _ arguments => max (levels object) (levelsOfAll arguments) + 1
  | .call _ arguments => levelsOfAll arguments
termination_by structural expr => expr

def levelsOfAll : List Expr → Nat
  | [] => 0
  | expr :: rest => max (levels expr) (levelsOfAll rest)
termination_by structural exprs => exprs

end

theorem levels_le_levelsOfAll {expr : Expr} {exprs : List Expr} (member : expr ∈ exprs) :
    expr.levels ≤ levelsOfAll exprs := by
  induction member with
  | head rest => exact Nat.le_max_left _ _
  | tail first _ ih => exact ih.trans (Nat.le_max_right _ _)

theorem exists_levels_eq_levelsOfAll {exprs : List Expr} (nonempty : exprs ≠ []) :
    ∃ expr ∈ exprs, expr.levels = levelsOfAll exprs := by
  induction exprs with
  | nil => exact absurd rfl nonempty
  | cons expr rest ih =>
      rw [levelsOfAll]
      by_cases first : levelsOfAll rest ≤ expr.levels
      · exact ⟨expr, List.mem_cons_self, (Nat.max_eq_left first).symm⟩
      · have others : rest ≠ [] := by
          rintro rfl
          exact first (Nat.zero_le _)
        obtain ⟨deepest, member, same⟩ := ih others
        exact ⟨deepest, List.mem_cons_of_mem _ member,
          same.trans (Nat.max_eq_right (Nat.le_of_not_le first)).symm⟩

theorem levels_eq (expr : Expr) :
    expr.levels = levelsOfAll expr.children + expr.isLevel.toNat := by
  cases expr <;> simp [levels, levelsOfAll, children, isLevel]

theorem Path.countP_le {expr : Expr} {path : List Expr} (leads : expr.Path path) :
    path.countP isLevel ≤ expr.levels := by
  induction leads with
  | @leaf expr childless =>
      rw [levels_eq, List.countP_singleton]
      cases expr.isLevel <;> simp
  | @down expr child path member _ ih =>
      have below : child.levels ≤ levelsOfAll expr.children := levels_le_levelsOfAll member
      rw [levels_eq, List.countP_cons]
      cases expr.isLevel
      · exact ih.trans below
      · exact Nat.succ_le_succ (ih.trans below)

theorem exists_path (expr : Expr) :
    ∃ path, expr.Path path ∧ path.countP isLevel = expr.levels := by
  have downward : ∀ expr : Expr, (∀ child ∈ expr.children,
      ∃ path, child.Path path ∧ path.countP isLevel = child.levels) →
      ∃ path, expr.Path path ∧ path.countP isLevel = expr.levels := by
    intro expr each
    by_cases childless : expr.children = []
    · refine ⟨[expr], .leaf childless, ?_⟩
      rw [levels_eq, childless, List.countP_singleton]
      cases expr.isLevel <;> rfl
    · obtain ⟨child, member, deepest⟩ := exists_levels_eq_levelsOfAll childless
      obtain ⟨path, leads, counted⟩ := each child member
      refine ⟨expr :: path, .down member leads, ?_⟩
      rw [levels_eq, List.countP_cons, counted, deepest]
      cases expr.isLevel <;> rfl
  induction expr using Expr.induct with
  | literal value | reference name => exact downward _ (List.forall_mem_nil _)
  | field object name ih | unary op operand ih =>
      exact downward _ (List.forall_mem_singleton.2 ih)
  | binary op left right leftIH rightIH =>
      exact downward _ (List.forall_mem_cons.2 ⟨leftIH, List.forall_mem_singleton.2 rightIH⟩)
  | conditional condition thenBranch elseBranch conditionIH thenIH elseIH =>
      exact downward _ (List.forall_mem_cons.2
        ⟨conditionIH, List.forall_mem_cons.2 ⟨thenIH, List.forall_mem_singleton.2 elseIH⟩⟩)
  | method object name arguments objectIH argumentsIH =>
      exact downward _ (List.forall_mem_cons.2 ⟨objectIH, argumentsIH⟩)
  | call function arguments ih => exact downward _ ih

end Expr

/-! ## The most that a budget allows -/

namespace ExprParsers

/-- The most operators and suffixes on a path through an expression that the budget allows: what
stands innermost has one unit less, and each of the suffixes and of the four levels of operators
that chain has all of the rest to itself. -/
def mostLevels : Nat → Nat
  | 0 => 0
  | budget + 1 => mostLevels budget + 5 * budget

/-- What the parsers of a budget yield. Those that count a unit for what they go on from have
not more than the rest of the budget for it. -/
structure LevelsBounded (parsers : ExprParsers) (budget : Nat) : Prop where
  expression : parsers.expression.Yields fun expr => expr.levels ≤ mostLevels budget
  unary : parsers.unary.Yields fun expr => expr.levels + 1 ≤ mostLevels budget + budget
  negation : parsers.negation.Yields fun expr => expr.levels + 1 ≤ mostLevels budget + 3 * budget
  suffixes (left : Expr) : (parsers.suffixes left).Yields fun expr =>
    expr.levels + 1 ≤ max left.levels (mostLevels budget) + budget
  productLinks (left : Expr) : (parsers.productLinks left).Yields fun expr =>
    expr.levels + 1 ≤ max left.levels (mostLevels budget + budget) + budget
  sumLinks (left : Expr) : (parsers.sumLinks left).Yields fun expr =>
    expr.levels + 1 ≤ max left.levels (mostLevels budget + 2 * budget) + budget
  andLinks (left : Expr) : (parsers.andLinks left).Yields fun expr =>
    expr.levels + 1 ≤ max left.levels (mostLevels budget + 3 * budget) + budget
  orLinks (left : Expr) : (parsers.orLinks left).Yields fun expr =>
    expr.levels + 1 ≤ max left.levels (mostLevels budget + 4 * budget) + budget

theorem levelsBounded_tooDeep : tooDeep.LevelsBounded 0 where
  expression := Parse.yields_throw _
  unary := Parse.yields_throw _
  negation := Parse.yields_throw _
  suffixes _ := Parse.yields_throw _
  productLinks _ := Parse.yields_throw _
  sumLinks _ := Parse.yields_throw _
  andLinks _ := Parse.yields_throw _
  orLinks _ := Parse.yields_throw _

/-- A link counts one unit, and what goes on from it counts another one for each further link. -/
theorem links_levels {operator? : Symbol → Option BinaryOp} {operand : Parse Expr}
    {further : Expr → Parse Expr} {bound budget : Nat}
    (operands : operand.Yields fun expr => expr.levels ≤ bound)
    (goes : ∀ left, (further left).Yields fun expr =>
      expr.levels + 1 ≤ max left.levels bound + budget) (left : Expr) :
    (links operator? operand further left).Yields fun expr =>
      expr.levels ≤ max left.levels bound + budget := by
  have ended : (pure left : Parse Expr).Yields fun expr =>
      expr.levels ≤ max left.levels bound + budget := Parse.yields_pure (by omega)
  refine .behind fun token => ?_
  split
  · split
    · rename_i op _
      refine .behind fun _ => operands.bind fun right within => (goes _).mono fun expr reached => ?_
      have counted : op.isLevel.toNat ≤ 1 := Bool.toNat_le _
      rw [Expr.levels] at reached
      omega
    · exact ended
  · exact ended

theorem relation_levels {operand : Parse Expr} {bound : Nat}
    (operands : operand.Yields fun expr => expr.levels ≤ bound) {left : Expr}
    (within : left.levels ≤ bound) :
    (links relation? operand pure left).Yields fun expr => expr.levels ≤ bound := by
  refine .behind fun token => ?_
  split
  · split
    · rename_i op found
      have uncounted : op.isLevel = false := by
        unfold relation? at found
        split at found <;> cases found <;> rfl
      refine .behind fun _ => operands.bind fun right rightWithin => Parse.yields_pure ?_
      rw [Expr.levels, uncounted]
      exact Nat.max_le.2 ⟨within, rightWithin⟩
    · exact Parse.yields_pure within
  · exact Parse.yields_pure within

section Deeper

variable {inner : ExprParsers} {budget : Nat}

theorem integer_levels (negative : Bool) (digits : String) :
    (integer negative digits).Yields fun expr => expr.levels = 0 := by
  unfold integer
  dsimp only
  split
  · exact .behind fun _ => Parse.yields_pure rfl
  · exact Parse.yields_throw _

theorem argumentList_levels {expression : Parse Expr} {bound : Nat}
    (each : expression.Yields fun expr => expr.levels ≤ bound) (length : Nat) :
    (argumentList expression length).Yields fun exprs => Expr.levelsOfAll exprs ≤ bound := by
  induction length with
  | zero => exact Parse.yields_pure (Nat.zero_le _)
  | succ length ih =>
      have behind : ∀ argument : Expr, argument.levels ≤ bound → (do
          let rest ← argumentList expression length
          return argument :: rest : Parse (List Expr)).Yields fun exprs =>
            Expr.levelsOfAll exprs ≤ bound := fun argument within =>
        ih.bind fun _ others => Parse.yields_pure (Nat.max_le.2 ⟨within, others⟩)
      refine .behind fun closed => ?_
      split
      · exact Parse.yields_pure (Nat.zero_le _)
      · refine each.bind fun argument within => .behind fun last => ?_
        dsimp only
        split
        · exact .behind fun _ => behind argument within
        · exact behind argument within

variable (bounded : inner.LevelsBounded budget)
include bounded

theorem arguments_levels :
    inner.arguments.Yields fun exprs => Expr.levelsOfAll exprs ≤ mostLevels budget :=
  .behind fun _ => .behind fun _ => (argumentList_levels bounded.expression _).bind
    fun _ within => .behind fun _ => Parse.yields_pure within

theorem primary_levels : inner.primary.Yields fun expr => expr.levels ≤ mostLevels budget := by
  refine .behind fun token => ?_
  split
  · exact (integer_levels _ _).mono fun _ none => none ▸ Nat.zero_le _
  · exact .behind fun _ => Parse.yields_pure (Nat.zero_le _)
  · exact .behind fun _ => Parse.yields_pure (Nat.zero_le _)
  · exact .behind fun _ => Parse.yields_pure (Nat.zero_le _)
  · refine .behind fun _ => .behind fun called => ?_
    split
    · exact (arguments_levels bounded).bind fun _ within => Parse.yields_pure within
    · exact Parse.yields_pure (Nat.zero_le _)
  · exact .behind fun _ => bounded.expression.bind fun _ within => .behind fun _ =>
      Parse.yields_pure within
  · exact Parse.yields_unexpected _

theorem suffixesOf_levels (left : Expr) : (inner.suffixesOf left).Yields fun expr =>
    expr.levels ≤ max left.levels (mostLevels budget) + budget := by
  refine .behind fun dot => ?_
  split
  · refine .behind fun _ => .behind fun name => .behind fun called => ?_
    split
    · refine (arguments_levels bounded).bind fun arguments within =>
        (bounded.suffixes _).mono fun expr reached => ?_
      rw [Expr.levels] at reached
      omega
    · refine (bounded.suffixes _).mono fun expr reached => ?_
      rw [Expr.levels] at reached
      omega
  · exact Parse.yields_pure (by omega)

theorem signed_levels :
    inner.signed.Yields fun expr => expr.levels ≤ mostLevels budget + budget := by
  have suffixed : ∀ left : Expr, left.levels ≤ mostLevels budget →
      (inner.suffixesOf left).Yields fun expr => expr.levels ≤ mostLevels budget + budget :=
    fun left within => (suffixesOf_levels bounded left).mono fun expr reached => by
      rwa [Nat.max_eq_right within] at reached
  refine .behind fun minus => ?_
  split
  · refine .behind fun _ => .behind fun token => ?_
    split
    · exact (integer_levels _ _).bind fun left none => suffixed left (none ▸ Nat.zero_le _)
    · exact .behind fun _ => suffixed _ (Nat.zero_le _)
    · exact bounded.unary.bind fun _ within => Parse.yields_pure within
  · exact (primary_levels bounded).bind suffixed

theorem product_levels :
    inner.product.Yields fun expr => expr.levels ≤ mostLevels budget + 2 * budget :=
  (signed_levels bounded).bind fun left within =>
    (links_levels (signed_levels bounded) bounded.productLinks left).mono fun expr reached => by
      omega

theorem sum_levels : inner.sum.Yields fun expr => expr.levels ≤ mostLevels budget + 3 * budget :=
  (product_levels bounded).bind fun left within =>
    (links_levels (product_levels bounded) bounded.sumLinks left).mono fun expr reached => by
      omega

theorem negated_levels :
    inner.negated.Yields fun expr => expr.levels ≤ mostLevels budget + 3 * budget := by
  refine .behind fun not => ?_
  split
  · exact .behind fun _ => bounded.negation.bind fun _ within => Parse.yields_pure within
  · exact (sum_levels bounded).bind fun left within => relation_levels (sum_levels bounded) within

theorem conjunction_levels :
    inner.conjunction.Yields fun expr => expr.levels ≤ mostLevels budget + 4 * budget :=
  (negated_levels bounded).bind fun left within =>
    (links_levels (negated_levels bounded) bounded.andLinks left).mono fun expr reached => by
      omega

theorem disjunction_levels :
    inner.disjunction.Yields fun expr => expr.levels ≤ mostLevels (budget + 1) :=
  (conjunction_levels bounded).bind fun left within =>
    (links_levels (conjunction_levels bounded) bounded.orLinks left).mono fun expr reached => by
      rw [mostLevels]
      omega

theorem conditional_levels :
    inner.conditional.Yields fun expr => expr.levels ≤ mostLevels (budget + 1) := by
  have branches : inner.expression.Yields fun expr => expr.levels ≤ mostLevels (budget + 1) :=
    bounded.expression.mono fun _ within => within.trans (Nat.le_add_right _ _)
  refine (disjunction_levels bounded).bind fun condition within => .behind fun asked => ?_
  split
  · exact .behind fun _ => branches.bind fun _ thenWithin => .behind fun _ =>
      branches.bind fun _ elseWithin => Parse.yields_pure
        (Nat.max_le.2 ⟨within, Nat.max_le.2 ⟨thenWithin, elseWithin⟩⟩)
  · exact Parse.yields_pure within

/-- One unit more for all parsers. -/
theorem LevelsBounded.deeper : inner.deeper.LevelsBounded (budget + 1) where
  expression := conditional_levels bounded
  unary := (signed_levels bounded).mono fun expr within => by
    rw [mostLevels]
    omega
  negation := (negated_levels bounded).mono fun expr within => by
    rw [mostLevels]
    omega
  suffixes left := (suffixesOf_levels bounded left).mono fun expr within => by
    rw [mostLevels]
    omega
  productLinks left :=
    (links_levels (signed_levels bounded) bounded.productLinks left).mono fun expr within => by
      rw [mostLevels]
      omega
  sumLinks left :=
    (links_levels (product_levels bounded) bounded.sumLinks left).mono fun expr within => by
      rw [mostLevels]
      omega
  andLinks left :=
    (links_levels (negated_levels bounded) bounded.andLinks left).mono fun expr within => by
      rw [mostLevels]
      omega
  orLinks left :=
    (links_levels (conjunction_levels bounded) bounded.orLinks left).mono fun expr within => by
      rw [mostLevels]
      omega

end Deeper

theorem levelsBounded_ofBudget (budget : Nat) : (ofBudget budget).LevelsBounded budget := by
  induction budget with
  | zero => exact levelsBounded_tooDeep
  | succ budget ih => exact ih.deeper

end ExprParsers

theorem ExprParsers.mostLevels_eq (budget : Nat) : mostLevels budget = 5 * budget.choose 2 := by
  induction budget with
  | zero => rfl
  | succ budget ih =>
      have pairs : (budget + 1).choose 2 = budget + budget.choose 2 := by
        rw [Nat.choose_succ_succ', Nat.choose_one_right]
      rw [mostLevels, ih, pairs]
      omega

/-- The expression is what the parsers read somewhere with so many units of the nesting budget. -/
def Expr.ReadWithin (units : Nat) (expr : Expr) : Prop :=
  ∃ cursor after, (ExprParsers.ofBudget units).expression.run cursor = .ok (expr, after)

theorem Expr.ReadWithin.countP_le {units : Nat} {expr : Expr} (read : expr.ReadWithin units)
    {path : List Expr} (leads : expr.Path path) :
    path.countP isLevel ≤ 5 * units.choose 2 := by
  obtain ⟨cursor, after, ran⟩ := read
  rw [← ExprParsers.mostLevels_eq]
  exact leads.countP_le.trans
    ((ExprParsers.levelsBounded_ofBudget units).expression cursor after expr ran)

theorem Chain.parse_readWithin {script : String} {chain : Chain}
    (accepted : Chain.parse script = .ok chain) {stage : Stage} (member : stage ∈ chain)
    {function : Lambda} (among : Selector.lambda function ∈ stage.selectors) :
    function.body.ReadWithin nestingLimit :=
  have each : Parse.expression.Yields (Expr.ReadWithin nestingLimit) :=
    fun cursor after _ ran => ⟨cursor, after, ran⟩
  Chain.parse_bodies each accepted stage member _ among

/-- What all of the nesting budget allows is the most for every lambda in a script. -/
theorem Chain.countP_isLevel_le {script : String} {chain : Chain}
    (accepted : Chain.parse script = .ok chain) {stage : Stage} (member : stage ∈ chain)
    {function : Lambda} (among : Selector.lambda function ∈ stage.selectors)
    {path : List Expr} (leads : function.body.Path path) :
    path.countP Expr.isLevel ≤ 10080 :=
  (Chain.parse_readWithin accepted member among).countP_le leads

end Pipeline
