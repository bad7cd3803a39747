import Pipeline.Proofs.ChainSelectors
import Pipeline.Proofs.Lookup
import Pipeline.Proofs.Overflow

/-! The doubles that a chain is written with are those among the tokens of its script, as they are
or with the other sign. They are infinite where the digits denote too much. -/

set_option autoImplicit false

namespace Pipeline

/-- The scalar is no infinity, and no double that is no number. -/
def Scalar.IsFinite : Scalar → Prop
  | number n => n.IsFinite
  | text _ | boolean _ => True

/-- The token is no double, or a finite one. -/
def Token.isFinite : Token → Bool
  | .float x => x.isFinite
  | _ => true

/-- The scanner does not refuse digits for which there is no double: from the bound of the finite
doubles on it takes them for an infinity. -/
theorem Scan.isFinite_readNumber_iff {text rest : List Char} {x : Double}
    (read : readNumber text = (.float x, rest)) :
    x.isFinite = true ↔
      digitsValue 0 ((readDigits text).1 ++ (readDigits (readDigits text).2.tail).1) <
        Double.overflow * 10 ^ (readDigits (readDigits text).2.tail).1.length := by
  unfold readNumber at read
  generalize readDigits text = parts at read
  obtain ⟨whole, behind⟩ := parts
  dsimp only at read
  split at read
  · split at read
    · cases read
      rw [Double.isFinite_ofDecimal_iff, Int.toNat_neg_natCast, Int.neg_neg, Int.toNat_natCast,
        Nat.pow_zero, Nat.mul_one]
      rfl
    · cases read
  · cases read

namespace Grammar

theorem Tree.forall₂_of_exprs? {trees : List Tree} {exprs : List Expr}
    (fit : Tree.exprs? trees = some exprs) :
    List.Forall₂ (fun tree expr => tree.expr? = some expr) trees exprs := by
  induction trees generalizing exprs with
  | nil =>
      cases fit
      exact .nil
  | cons tree trees ih =>
      obtain ⟨expr, others, first, rest, rfl⟩ := Tree.exprs?_cons_eq_some.1 fit
      exact .cons first (ih rest)

theorem Separated.subset {parts : List (List Token)} {written : List Token}
    (separated : Separated parts written) : ∀ tokens ∈ parts, tokens ⊆ written := by
  induction separated with
  | none => exact List.forall_mem_nil _
  | last => exact List.forall_mem_singleton.2 (List.Subset.refl _)
  | more _ ih =>
      refine List.forall_mem_cons.2
        ⟨List.subset_append_left _ _, fun tokens member token inside => ?_⟩
      exact List.mem_append_right _ (.tail _ (ih tokens member inside))

/-- The arguments of a call are built on literals that each of them is built on. -/
theorem Separated.literals {good : Scalar → Prop} {arguments : List (List Token × Tree)}
    {written : List Token} (separated : Separated (arguments.map Prod.fst) written)
    {holds : Token → Prop} (all : ∀ token ∈ written, holds token)
    (each : ∀ argument ∈ arguments, ∀ {expr : Expr}, argument.2.expr? = some expr →
      (∀ token ∈ argument.1, holds token) → expr.Literals good)
    {exprs : List Expr} (fit : Tree.exprs? (arguments.map Prod.snd) = some exprs) :
    ∀ expr ∈ exprs, expr.Literals good := by
  intro expr member
  obtain ⟨tree, among, fits⟩ := exists_of_forall₂ (Tree.forall₂_of_exprs? fit) expr member
  obtain ⟨argument, given, rfl⟩ := List.mem_map.1 among
  have inside := separated.subset argument.1 (List.mem_map_of_mem given)
  exact each argument given fits fun token within => all token (inside within)

/-- An expression has the literals of the tokens that it is derived from. -/
theorem Derives.literals {level : Level} {tokens : List Token} {tree : Tree}
    (derives : Derives level tokens tree) {expr : Expr} (fits : tree.expr? = some expr)
    (finite : ∀ token ∈ tokens, token.isFinite = true) : expr.Literals Scalar.IsFinite := by
  induction derives generalizing expr with
  | tighter _ _ ih => exact ih fits finite
  | conditional _ _ _ condition thenBranch elseBranch =>
      obtain ⟨first, second, third, firstFits, secondFits, thirdFits, rfl⟩ :=
        Tree.expr?_conditional_eq_some.1 fits
      simp only [List.forall_mem_append, List.forall_mem_cons] at finite
      obtain ⟨inFirst, -, inSecond, -, inThird⟩ := finite
      exact .conditional (condition firstFits inFirst) (thenBranch secondFits inSecond)
        (elseBranch thirdFits inThird)
  | join _ _ _ _ left right =>
      obtain ⟨first, second, firstFits, secondFits, rfl⟩ := Tree.expr?_binary_eq_some.1 fits
      simp only [List.forall_mem_append, List.forall_mem_cons] at finite
      exact .binary (left firstFits finite.1) (right secondFits finite.2.2)
  | compare _ _ _ left right =>
      obtain ⟨first, second, firstFits, secondFits, rfl⟩ := Tree.expr?_binary_eq_some.1 fits
      simp only [List.forall_mem_append, List.forall_mem_cons] at finite
      exact .binary (left firstFits finite.1) (right secondFits finite.2.2)
  | not _ operand =>
      obtain ⟨inner, innerFits, rfl⟩ := Option.map_eq_some_iff.1 fits
      exact .unary (operand innerFits (List.forall_mem_cons.1 finite).2)
  | negate _ _ operand =>
      obtain ⟨inner, innerFits, rfl⟩ := Option.map_eq_some_iff.1 fits
      exact .unary (operand innerFits (List.forall_mem_cons.1 finite).2)
  | negativeInteger | integer =>
      obtain ⟨_, _, rfl⟩ := Option.map_eq_some_iff.1 fits
      exact .literal trivial
  | @negativeFloat value =>
      cases fits
      have own : value.isFinite = true := finite _ (.tail _ (.head _))
      exact .literal (value.isFinite_neg.trans own)
  | float =>
      cases fits
      exact .literal (finite _ (.head _))
  | text | boolean =>
      cases fits
      exact .literal trivial
  | field _ _ object =>
      obtain ⟨inner, innerFits, rfl⟩ := Option.map_eq_some_iff.1 fits
      exact .field (object innerFits (List.forall_mem_append.1 finite).1)
  | method _ _ _ separated object each =>
      obtain ⟨inner, exprs, innerFits, exprsFit, rfl⟩ := Tree.expr?_method_eq_some.1 fits
      simp only [List.forall_mem_append, List.forall_mem_cons] at finite
      obtain ⟨inObject, -, -, -, inArguments, -⟩ := finite
      exact .method (object innerFits inObject) (separated.literals inArguments each exprsFit)
  | reference =>
      cases fits
      exact .reference
  | call _ separated each =>
      obtain ⟨exprs, exprsFit, rfl⟩ := Option.map_eq_some_iff.1 fits
      simp only [List.forall_mem_append, List.forall_mem_cons] at finite
      exact .call (separated.literals finite.2.2.1 each exprsFit)
  | parentheses _ ih => exact ih fits (List.forall_mem_append.1 (List.forall_mem_cons.1 finite).2).1

theorem Writes.literals {tokens : List Token} {selector : Selector}
    (written : Writes tokens selector) (finite : ∀ token ∈ tokens, token.isFinite = true) :
    selector.Literals Scalar.IsFinite := by
  induction written with
  | identity | field => trivial
  | lambda derives fits =>
      simp only [List.forall_mem_append, List.forall_mem_cons] at finite
      exact derives.literals fits finite.2.2.1
  | behind _ _ first ih =>
      exact ih (List.forall_mem_cons.1 (List.forall_mem_append.1 finite).2).2

end Grammar

/-- A script without infinite literals has a chain without them. -/
theorem Chain.parse_literals {script : String} {chain : Chain}
    (accepted : Chain.parse script = .ok chain)
    (finite : ∀ entry ∈ (Lexed.ofScript script).tokens, entry.2.isFinite = true) :
    ∀ stage ∈ chain, ∀ selector ∈ stage.selectors, selector.Literals Scalar.IsFinite := by
  intro stage member selector among
  refine ((Chain.parse_writes accepted).2 stage member selector among).literals ?_
  intro token found
  obtain ⟨entry, listed, rfl⟩ := List.mem_map.1 found
  exact finite entry listed

end Pipeline
