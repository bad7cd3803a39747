import Pipeline.Proofs.ExprInduction
import Pipeline.Proofs.Grammar

/-! The names that chains mention, and the place of names in the tokens of an expression: none
stands directly behind a number. -/

set_option autoImplicit false

namespace Pipeline

mutual

/-- The names in an expression, in the order of the script. -/
def Expr.names : Expr → List String
  | .literal _ => []
  | .reference name => [name]
  | .field object name => names object ++ [name]
  | .unary _ operand => names operand
  | .binary _ left right => names left ++ names right
  | .conditional condition thenBranch elseBranch =>
    names condition ++ (names thenBranch ++ names elseBranch)
  | .method object name arguments => names object ++ name :: namesOfAll arguments
  | .call function arguments => function :: namesOfAll arguments
termination_by structural expr => expr

def Expr.namesOfAll : List Expr → List String
  | [] => []
  | expr :: rest => names expr ++ namesOfAll rest
termination_by structural exprs => exprs

end

/-- The parameter of a lambda and the names in its body. -/
def Lambda.names (lambda : Lambda) : List String :=
  lambda.parameter :: lambda.body.names

def Selector.names : Selector → List String
  | identity => []
  | field name => [name]
  | lambda function => function.names

def Comparator.names (comparator : Comparator) : List String :=
  comparator.keys.flatMap (·.selector.names)

def Aggregator.names : Aggregator → List String
  | summing selector => selector.names
  | toList | toSet | counting | joining _ => []

def Stage.names : Stage → List String
  | filter selector | map selector | sum selector | groupBy selector => selector.names
  | flatMap function => function.names
  | sorted comparator => (comparator.elim [] Comparator.names)
  | max comparator | min comparator => comparator.names
  | collect aggregator => aggregator.names
  | distinct | limit _ | skip _ => []

/-- The names that a chain mentions. -/
def Chain.names (chain : Chain) : List String :=
  chain.flatMap Stage.names

theorem Stage.names_eq (stage : Stage) :
    stage.names = stage.selectors.flatMap Selector.names := by
  cases stage with
  | filter selector | map selector | sum selector | groupBy selector =>
      exact (List.flatMap_singleton _ _).symm
  | flatMap function => exact (List.append_nil _).symm
  | sorted comparator =>
      cases comparator with
      | none => rfl
      | some comparator => exact (List.flatMap_map ..).symm
  | max comparator | min comparator => exact (List.flatMap_map ..).symm
  | collect aggregator =>
      cases aggregator with
      | summing selector => exact (List.append_nil _).symm
      | toList | toSet | counting | joining => rfl
  | distinct | limit | skip => rfl

theorem Chain.mem_names {chain : Chain} {name : String} : name ∈ chain.names ↔
    ∃ stage ∈ chain, ∃ selector ∈ stage.selectors, name ∈ selector.names := by
  simp [Chain.names, Stage.names_eq]

namespace Grammar

/-- A name is among the tokens, and not directly behind a number. -/
def Cites (tokens : List Token) (name : String) : Prop :=
  ∃ before behind, tokens = before ++ .name name :: behind ∧
    ∀ token, before.getLast? = some token → ¬ IsNumber token

theorem Cites.head (name : String) (behind : List Token) : Cites (.name name :: behind) name :=
  ⟨[], behind, rfl, fun _ none => by cases none⟩

theorem Cites.append {first : List Token} {name : String} (cited : Cites first name)
    (second : List Token) : Cites (first ++ second) name := by
  obtain ⟨before, behind, rfl, noNumber⟩ := cited
  exact ⟨before, behind ++ second, by simp, noNumber⟩

/-- Behind a token that is no number, every citation stays one. -/
theorem Cites.behind {second : List Token} {name : String} (cited : Cites second name)
    {token : Token} (noNumber : ¬ IsNumber token) (first : List Token) :
    Cites (first ++ token :: second) name := by
  obtain ⟨before, behind, rfl, others⟩ := cited
  refine ⟨first ++ token :: before, behind, by simp, fun last found => ?_⟩
  cases before with
  | nil =>
      rw [List.getLast?_append, List.getLast?_singleton] at found
      cases found
      exact noNumber
  | cons next before =>
      apply others last
      rw [← found, List.getLast?_append, List.getLast?_cons_cons]
      cases h : (next :: before).getLast? <;> simp_all

theorem not_isNumber_symbol (symbol : Symbol) : ¬ IsNumber (.symbol symbol) := by
  rintro (_ | _)

theorem not_isNumber_name (spelling : String) : ¬ IsNumber (.name spelling) := by
  rintro (_ | _)

theorem Cites.behind_symbol {second : List Token} {name : String} (cited : Cites second name)
    (symbol : Symbol) (first : List Token) : Cites (first ++ .symbol symbol :: second) name :=
  cited.behind (not_isNumber_symbol symbol) first

theorem Separated.cites {arguments : List (List Token × Tree)} {written : List Token}
    (separated : Separated (arguments.map Prod.fst) written) {name : String}
    (each : ∀ argument ∈ arguments, ∀ {expr : Expr}, argument.2.expr? = some expr →
      name ∈ expr.names → Cites argument.1 name)
    {exprs : List Expr} (fit : Tree.exprs? (arguments.map Prod.snd) = some exprs)
    (mentioned : name ∈ Expr.namesOfAll exprs) : Cites written name := by
  induction arguments generalizing written exprs with
  | nil =>
      cases fit
      simp [Expr.namesOfAll] at mentioned
  | cons argument arguments ih =>
      obtain ⟨first, rest⟩ := List.forall_mem_cons.1 each
      obtain ⟨expr, exprs, fits, others, rfl⟩ := Tree.exprs?_cons_eq_some.1 fit
      rw [Expr.namesOfAll, List.mem_append] at mentioned
      rw [List.map_cons] at separated
      generalize same : arguments.map Prod.fst = list at separated
      cases separated with
      | last =>
          cases List.map_eq_nil_iff.1 same
          cases others
          rcases mentioned with inFirst | inRest
          · exact first fits inFirst
          · simp [Expr.namesOfAll] at inRest
      | more separated =>
          rcases mentioned with inFirst | inRest
          · exact (first fits inFirst).append _
          · exact (ih (same ▸ separated) rest others inRest).behind_symbol .comma _

/-- The names of an expression are cited by the tokens that it is derived from. -/
theorem Derives.cites {level : Level} {tokens : List Token} {tree : Tree}
    (derives : Derives level tokens tree) {expr : Expr} (fits : tree.expr? = some expr)
    {name : String} (mentioned : name ∈ expr.names) : Cites tokens name := by
  induction derives generalizing expr with
  | tighter _ _ ih => exact ih fits mentioned
  | conditional _ _ _ condition thenBranch elseBranch =>
      obtain ⟨first, second, third, firstFits, secondFits, thirdFits, rfl⟩ :=
        Tree.expr?_conditional_eq_some.1 fits
      simp only [Expr.names, List.mem_append] at mentioned
      rcases mentioned with inFirst | inSecond | inThird
      · exact (condition firstFits inFirst).append _
      · exact ((thenBranch secondFits inSecond).append _).behind_symbol .question _
      · exact ((elseBranch thirdFits inThird).behind_symbol .colon _).behind_symbol .question _
  | join _ _ _ _ left right =>
      obtain ⟨first, second, firstFits, secondFits, rfl⟩ := Tree.expr?_binary_eq_some.1 fits
      simp only [Expr.names, List.mem_append] at mentioned
      rcases mentioned with inFirst | inSecond
      · exact (left firstFits inFirst).append _
      · exact (right secondFits inSecond).behind_symbol _ _
  | compare _ _ _ left right =>
      obtain ⟨first, second, firstFits, secondFits, rfl⟩ := Tree.expr?_binary_eq_some.1 fits
      simp only [Expr.names, List.mem_append] at mentioned
      rcases mentioned with inFirst | inSecond
      · exact (left firstFits inFirst).append _
      · exact (right secondFits inSecond).behind_symbol _ _
  | not _ operand =>
      obtain ⟨inner, innerFits, rfl⟩ := Option.map_eq_some_iff.1 fits
      exact (operand innerFits mentioned).behind_symbol .not []
  | negate _ _ operand =>
      obtain ⟨inner, innerFits, rfl⟩ := Option.map_eq_some_iff.1 fits
      exact (operand innerFits mentioned).behind_symbol .minus []
  | negativeInteger | integer =>
      obtain ⟨_, _, rfl⟩ := Option.map_eq_some_iff.1 fits
      simp [Expr.names] at mentioned
  | negativeFloat | float | text | boolean =>
      cases fits
      simp [Expr.names] at mentioned
  | field _ _ object =>
      obtain ⟨inner, innerFits, rfl⟩ := Option.map_eq_some_iff.1 fits
      rw [Expr.names, List.mem_append, List.mem_singleton] at mentioned
      rcases mentioned with inObject | rfl
      · exact (object innerFits inObject).append _
      · exact (Cites.head _ _).behind_symbol .dot _
  | @method _ tokens _ _ method _ _ _ _ separated object each =>
      obtain ⟨inner, exprs, innerFits, exprsFit, rfl⟩ := Tree.expr?_method_eq_some.1 fits
      rw [Expr.names, List.mem_append, List.mem_cons] at mentioned
      rcases mentioned with inObject | rfl | inArguments
      · exact (object innerFits inObject).append _
      · exact (Cites.head _ _).behind_symbol .dot _
      · have cited := separated.cites each exprsFit inArguments
        have behind := (cited.append [.symbol .rightParen]).behind_symbol .leftParen
          (tokens ++ [.symbol .dot, .name method])
        rw [List.append_assoc] at behind
        exact behind
  | reference =>
      cases fits
      cases List.mem_singleton.1 mentioned
      exact Cites.head _ _
  | call _ separated each =>
      obtain ⟨exprs, exprsFit, rfl⟩ := Option.map_eq_some_iff.1 fits
      rw [Expr.names, List.mem_cons] at mentioned
      rcases mentioned with rfl | inArguments
      · exact Cites.head _ _
      · have cited := separated.cites each exprsFit inArguments
        exact (cited.append _).behind_symbol .leftParen [_]
  | parentheses _ ih => exact ((ih fits mentioned).append _).behind_symbol .leftParen []

end Grammar

end Pipeline
