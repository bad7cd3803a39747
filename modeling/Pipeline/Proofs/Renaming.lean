import Pipeline.Proofs.Composition
import Pipeline.Proofs.Evaluation
import Pipeline.Proofs.Exchange
import Pipeline.Proofs.NameResolution

/-! The parameter of a lambda under another name. Fields, methods and functions that share the name
of the parameter keep it. -/

set_option autoImplicit false

namespace Pipeline

namespace Expr

mutual

/-- The names of the variables in an expression. -/
def references : Expr → List String
  | literal _ => []
  | reference name => [name]
  | field object _ => references object
  | unary _ operand => references operand
  | binary _ left right => references left ++ references right
  | conditional condition thenBranch elseBranch =>
    references condition ++ (references thenBranch ++ references elseBranch)
  | method object _ arguments => references object ++ referencesOfAll arguments
  | call _ arguments => referencesOfAll arguments
termination_by structural expr => expr

def referencesOfAll : List Expr → List String
  | [] => []
  | expr :: rest => references expr ++ referencesOfAll rest
termination_by structural exprs => exprs

end

mutual

/-- The expression with one variable under a new name. -/
def rename (old new : String) : Expr → Expr
  | literal value => literal value
  | reference name => reference (if name = old then new else name)
  | field object name => field (rename old new object) name
  | unary op operand => unary op (rename old new operand)
  | binary op left right => binary op (rename old new left) (rename old new right)
  | conditional condition thenBranch elseBranch =>
    conditional (rename old new condition) (rename old new thenBranch) (rename old new elseBranch)
  | method object name arguments =>
    method (rename old new object) name (renameAll old new arguments)
  | call function arguments => call function (renameAll old new arguments)
termination_by structural expr => expr

def renameAll (old new : String) : List Expr → List Expr
  | [] => []
  | expr :: rest => rename old new expr :: renameAll old new rest
termination_by structural exprs => exprs

end

variable {old new : String}

theorem referencesOfAll_eq (exprs : List Expr) :
    referencesOfAll exprs = exprs.flatMap references := by
  induction exprs with
  | nil => rfl
  | cons expr rest ih => simp only [referencesOfAll, List.flatMap_cons, ih]

theorem renameAll_eq (exprs : List Expr) :
    renameAll old new exprs = exprs.map (rename old new) := by
  induction exprs with
  | nil => rfl
  | cons expr rest ih => simp only [renameAll, List.map_cons, ih]

theorem fresh_of_mem {exprs : List Expr} (fresh : new ∉ referencesOfAll exprs) {expr : Expr}
    (member : expr ∈ exprs) : new ∉ expr.references := by
  intro found
  rw [referencesOfAll_eq] at fresh
  exact fresh (List.mem_flatMap.2 ⟨expr, member, found⟩)

/-- A variable is the parameter under the new name exactly if it was under the old one. -/
theorem rename_parameter {name : String} (fresh : new ≠ name) :
    (if name = old then new else name) = new ↔ name = old := by
  split
  · simp [*]
  · simp [*, fresh.symm]

/-! ## Values -/

theorem evalAll_rename {cap : Nat} {value : Value} {exprs : List Expr}
    (same : ∀ expr ∈ exprs, (expr.rename old new).eval cap new value = expr.eval cap old value) :
    evalAll cap new value (renameAll old new exprs) = evalAll cap old value exprs := by
  induction exprs with
  | nil => rfl
  | cons expr rest ih =>
      obtain ⟨first, others⟩ := List.forall_mem_cons.1 same
      simp only [renameAll, evalAll, first, ih others]

theorem eval_rename (cap : Nat) (value : Value) {expr : Expr} (fresh : new ∉ expr.references) :
    (expr.rename old new).eval cap new value = expr.eval cap old value := by
  induction expr using Expr.induct with
  | literal value => rfl
  | reference name =>
      have other : new ≠ name := by simpa [references] using fresh
      simp only [rename, eval, rename_parameter other]
      split
      · rfl
      · rfl
  | field object name ih => simp only [rename, eval, ih fresh]
  | unary op operand ih => simp only [rename, eval, ih fresh]
  | binary op left right leftIH rightIH =>
      obtain ⟨inLeft, inRight⟩ := not_or.1 (mt List.mem_append.2 fresh)
      cases op with
      | arithmetic op | relation op | connective op =>
          simp only [rename, eval, leftIH inLeft, rightIH inRight]
  | conditional condition thenBranch elseBranch conditionIH thenIH elseIH =>
      obtain ⟨inCondition, inBranches⟩ := not_or.1 (mt List.mem_append.2 fresh)
      obtain ⟨inThen, inElse⟩ := not_or.1 (mt List.mem_append.2 inBranches)
      simp only [rename, eval, conditionIH inCondition, thenIH inThen, elseIH inElse]
  | method object name arguments objectIH argumentsIH =>
      obtain ⟨inObject, inArguments⟩ := not_or.1 (mt List.mem_append.2 fresh)
      have all := evalAll_rename fun argument member =>
        argumentsIH argument member (fresh_of_mem inArguments member)
      simp only [rename, eval, objectIH inObject, all]
  | call function arguments ih =>
      have all := evalAll_rename fun argument member =>
        ih argument member (fresh_of_mem fresh member)
      simp only [rename, eval, all]

/-! ## Shapes -/

theorem checkAll_rename {element : Shape} {exprs : List Expr}
    (same : ∀ expr ∈ exprs, ∀ shape, (expr.rename old new).shape new element = .ok shape ↔
      expr.shape old element = .ok shape) :
    checkAll new element (renameAll old new exprs) = .ok () ↔
      checkAll old element exprs = .ok () := by
  rw [checkAll_iff, checkAll_iff, renameAll_eq, List.forall_mem_map]
  exact forall₂_congr fun expr member => exists_congr (same expr member)

/-- Only the failures may differ, as they name the parameter. -/
theorem shape_rename (element : Shape) {expr : Expr} (fresh : new ∉ expr.references)
    (shape : Shape) : (expr.rename old new).shape new element = .ok shape ↔
      expr.shape old element = .ok shape := by
  induction expr using Expr.induct generalizing shape with
  | literal value => rfl
  | reference name =>
      have other : new ≠ name := by simpa [references] using fresh
      simp only [rename, Expr.shape, rename_parameter other]
      split
      · rfl
      · simp
  | field object name ih => simp only [rename, Expr.shape, bind_eq_ok, ih fresh]
  | unary op operand ih => simp only [rename, Expr.shape, bind_eq_ok, ih fresh]
  | binary op left right leftIH rightIH =>
      obtain ⟨inLeft, inRight⟩ := not_or.1 (mt List.mem_append.2 fresh)
      simp only [rename, Expr.shape, bind_eq_ok, leftIH inLeft, rightIH inRight]
  | conditional condition thenBranch elseBranch conditionIH thenIH elseIH =>
      obtain ⟨inCondition, inBranches⟩ := not_or.1 (mt List.mem_append.2 fresh)
      obtain ⟨inThen, inElse⟩ := not_or.1 (mt List.mem_append.2 inBranches)
      simp only [rename, Expr.shape, bind_eq_ok, conditionIH inCondition, thenIH inThen,
        elseIH inElse]
  | method object name arguments objectIH argumentsIH =>
      obtain ⟨inObject, inArguments⟩ := not_or.1 (mt List.mem_append.2 fresh)
      have all := checkAll_rename fun argument member =>
        argumentsIH argument member (fresh_of_mem inArguments member)
      have length : (renameAll old new arguments).length = arguments.length := by
        rw [renameAll_eq, List.length_map]
      simp only [rename, Expr.shape, bind_eq_ok, objectIH inObject, all, length]
  | call function arguments ih =>
      have all := checkAll_rename fun argument member =>
        ih argument member (fresh_of_mem fresh member)
      simp only [rename, Expr.shape]
      split
      · simp
      · simp only [bind_eq_ok, all]

/-- What stands inside an expression has no other variables. -/
theorem Within.fresh {inner outer : Expr} (within : inner.Within outer)
    (fresh : new ∉ outer.references) : new ∉ inner.references := by
  induction within with
  | self => exact fresh
  | field _ ih | unary _ ih => exact ih fresh
  | left _ ih | condition _ ih | object _ ih =>
      exact ih fun found => fresh (List.mem_append_left _ found)
  | right _ ih => exact ih fun found => fresh (List.mem_append_right _ found)
  | thenBranch _ ih =>
      exact ih fun found => fresh (List.mem_append_right _ (List.mem_append_left _ found))
  | elseBranch _ ih =>
      exact ih fun found => fresh (List.mem_append_right _ (List.mem_append_right _ found))
  | methodArgument member _ ih =>
      exact ih (fresh_of_mem (fun found => fresh (List.mem_append_right _ found)) member)
  | callArgument member _ ih => exact ih (fresh_of_mem fresh member)

end Expr

/-! ## Lambdas -/

/-- The lambda with its parameter under a new name. -/
def Lambda.rename (lambda : Lambda) (new : String) : Lambda where
  parameter := new
  body := lambda.body.rename lambda.parameter new

namespace Lambda

variable {lambda : Lambda} {new : String} (fresh : new ∉ lambda.body.references)
include fresh

theorem select_rename (cap : Nat) (value : Value) :
    (Selector.lambda (lambda.rename new)).select cap value =
      (Selector.lambda lambda).select cap value :=
  Expr.eval_rename cap value fresh

theorem shape_rename (element shape : Shape) :
    (lambda.rename new).shape element = .ok shape ↔ lambda.shape element = .ok shape :=
  Expr.shape_rename element fresh shape

omit fresh in
theorem body_rename {function : String} :
    (∃ arguments, (lambda.rename new).body = .call function arguments) ↔
      ∃ arguments, lambda.body = .call function arguments := by
  simp only [Lambda.rename]
  cases lambda.body <;> simp [Expr.rename]

omit fresh in
theorem expandedShape_rename : (lambda.rename new).expandedShape = lambda.expandedShape :=
  expandedShape_congr body_rename

theorem expand_rename (cap : Nat) (value : Value) :
    (lambda.rename new).expand cap value = lambda.expand cap value := by
  refine expand_congr (select_rename fresh cap value) ?_ body_rename.1
  intro arguments body
  rw [body] at fresh
  exact ⟨_, by simp only [rename, body, Expr.rename], Expr.evalAll_rename fun argument member =>
    Expr.eval_rename cap value (Expr.fresh_of_mem fresh member)⟩

end Lambda

/-! ## Stages -/

/-- The places of a stage at which a lambda can stand. -/
inductive Stage.Frame : (Lambda → Stage) → Prop where
  | filter : Frame fun lambda => .filter (.lambda lambda)
  | map : Frame fun lambda => .map (.lambda lambda)
  | flatMap : Frame .flatMap
  | sorted (before : List SortKey) (direction : Direction) (after : List SortKey) :
      Frame fun lambda => .sorted (some ⟨before ++ ⟨.lambda lambda, direction⟩ :: after⟩)
  | max (before : List SortKey) (direction : Direction) (after : List SortKey) :
      Frame fun lambda => .max ⟨before ++ ⟨.lambda lambda, direction⟩ :: after⟩
  | min (before : List SortKey) (direction : Direction) (after : List SortKey) :
      Frame fun lambda => .min ⟨before ++ ⟨.lambda lambda, direction⟩ :: after⟩
  | sum : Frame fun lambda => .sum (.lambda lambda)
  | groupBy : Frame fun lambda => .groupBy (.lambda lambda)
  | summing : Frame fun lambda => .collect (.summing (.lambda lambda))

namespace Stage

theorem exists_key_of_mem {comparator : Comparator} {lambda : Lambda}
    (member : Selector.lambda lambda ∈ comparator.keys.map SortKey.selector) :
    ∃ before direction after, comparator = ⟨before ++ ⟨.lambda lambda, direction⟩ :: after⟩ := by
  obtain ⟨⟨selector, direction⟩, within, same⟩ := List.mem_map.1 member
  cases same
  obtain ⟨before, after, keys⟩ := List.append_of_mem within
  exact ⟨before, direction, after, congrArg Comparator.mk keys⟩

/-- Every lambda of a stage stands in one of the frames. -/
theorem exists_frame {stage : Stage} {lambda : Lambda}
    (member : .lambda lambda ∈ stage.selectors) :
    ∃ frame, Frame frame ∧ stage = frame lambda := by
  cases stage with
  | filter selector =>
      cases List.mem_singleton.1 member
      exact ⟨_, .filter, rfl⟩
  | map selector =>
      cases List.mem_singleton.1 member
      exact ⟨_, .map, rfl⟩
  | flatMap own =>
      cases List.mem_singleton.1 member
      exact ⟨_, .flatMap, rfl⟩
  | sorted comparator =>
      cases comparator with
      | none => cases member
      | some comparator =>
          obtain ⟨before, direction, after, rfl⟩ := exists_key_of_mem member
          exact ⟨_, .sorted before direction after, rfl⟩
  | max comparator =>
      obtain ⟨before, direction, after, rfl⟩ := exists_key_of_mem member
      exact ⟨_, .max before direction after, rfl⟩
  | min comparator =>
      obtain ⟨before, direction, after, rfl⟩ := exists_key_of_mem member
      exact ⟨_, .min before direction after, rfl⟩
  | sum selector =>
      cases List.mem_singleton.1 member
      exact ⟨_, .sum, rfl⟩
  | groupBy selector =>
      cases List.mem_singleton.1 member
      exact ⟨_, .groupBy, rfl⟩
  | collect aggregator =>
      cases aggregator with
      | summing selector =>
          cases List.mem_singleton.1 member
          exact ⟨_, .summing, rfl⟩
      | toList | toSet | counting | joining => cases member
  | distinct | limit | skip => cases member

namespace Frame

variable {frame : Lambda → Stage} (framed : Frame frame) {lambda other : Lambda}
include framed

theorem agrees {cap : Nat} {good : Value → Prop}
    (selects : (Selector.lambda lambda).Agrees cap good (.lambda other))
    (expands : lambda.Agrees cap good other) : (frame lambda).Agrees cap good (frame other) := by
  have keys (before : List SortKey) (direction : Direction) (after : List SortKey) :
      Comparator.Agrees cap good ⟨before ++ ⟨.lambda lambda, direction⟩ :: after⟩
        ⟨before ++ ⟨.lambda other, direction⟩ :: after⟩ := by
    have key := SortKey.agrees_of_selector direction selects nofun nofun
    exact List.rel_append (List.forall₂_same.2 fun key _ => .refl key)
      (.cons key (List.forall₂_same.2 fun key _ => .refl key))
  cases framed with
  | filter => exact .filter selects
  | map => exact .map selects
  | flatMap => exact .flatMap expands
  | sorted before direction after => exact .sorted (keys before direction after)
  | max before direction after => exact .max (keys before direction after)
  | min before direction after => exact .min (keys before direction after)
  | sum => exact .sum selects
  | groupBy => exact .groupBy selects
  | summing => exact .summing selects

theorem shape_iff {element : Shape}
    (shapes : ∀ shape, other.shape element = .ok shape ↔ lambda.shape element = .ok shape)
    (expanded : other.expandedShape = lambda.expandedShape) (next : Shape) :
    (frame other).shape element = .ok next ↔ (frame lambda).shape element = .ok next := by
  have keys (before : List SortKey) (direction : Direction) (after : List SortKey) :
      checkKeys element (before ++ ⟨.lambda other, direction⟩ :: after) = .ok () ↔
        checkKeys element (before ++ ⟨.lambda lambda, direction⟩ :: after) = .ok () := by
    simp only [checkKeys_iff, List.forall_mem_append, List.forall_mem_cons, Selector.shape, shapes]
  cases framed with
  | filter | map | flatMap | sum | groupBy | summing =>
      simp only [Stage.shape, Selector.shape, bind_eq_ok, shapes, expanded]
  | sorted | max | min => simp only [Stage.shape, bind_eq_ok, keys]

end Frame

end Stage

/-! ## Chains -/

namespace Chain

/-- Stages of the same shapes make chains of the same shapes. -/
theorem shape_iff_of_stages {chain other : Chain}
    (stages : List.Forall₂ (fun stage other => ∀ element next,
      Stage.shape other element = .ok next ↔ Stage.shape stage element = .ok next) chain other)
    (element last : Shape) : other.shape element = .ok last ↔ chain.shape element = .ok last := by
  induction stages generalizing element with
  | nil => rfl
  | cons first _ ih => simp only [Chain.shape, bind_eq_ok, first, ih]

/-- The parameter of any one lambda in a chain may be given any name that is no variable of its
body. Whatever the cap, the token and the input, the chain comes to the same end; it is accepted
for the same element types; and the shapes of the elements behind each stage, and of everything
inside the lambda, stay what they were. -/
theorem run_rename {frame : Lambda → Stage} (framed : Stage.Frame frame) (before after : Chain)
    {lambda : Lambda} {new : String} (fresh : new ∉ lambda.body.references) :
    let chain := before ++ frame lambda :: after
    let renamed := before ++ frame (lambda.rename new) :: after
    (∀ cap token input, renamed.run cap token input = chain.run cap token input) ∧
    (∀ elementType, renamed.check elementType = .ok () ↔ chain.check elementType = .ok ()) ∧
    (∀ element count shape, Chain.shape (renamed.take count) element = .ok shape ↔
      Chain.shape (chain.take count) element = .ok shape) ∧
    ∀ element, ∀ inner : Expr, inner.Within lambda.body → ∀ shape,
      (inner.rename lambda.parameter new).shape new element = .ok shape ↔
        inner.shape lambda.parameter element = .ok shape := by
  intro chain renamed
  have stages : List.Forall₂ (fun stage other => ∀ element next,
      Stage.shape other element = .ok next ↔ Stage.shape stage element = .ok next)
      chain renamed := by
    have same (element : Shape) := framed.shape_iff (lambda.shape_rename fresh element)
      lambda.expandedShape_rename
    exact List.rel_append (List.forall₂_same.2 fun _ _ _ _ => Iff.rfl)
      (.cons same (List.forall₂_same.2 fun _ _ _ _ => Iff.rfl))
  refine ⟨fun cap token input => ?_, fun elementType => ?_, fun element count shape => ?_,
    fun element inner within shape => inner.shape_rename element (within.fresh fresh) shape⟩
  · have agrees : (frame lambda).Agrees cap (fun _ => True) (frame (lambda.rename new)) :=
      framed.agrees (fun value _ => lambda.select_rename fresh cap value)
        fun value _ => lambda.expand_rename fresh cap value
    have behind : Chain.outcome cap token (frame (lambda.rename new) :: after) =
        Chain.outcome cap token (frame lambda :: after) := by
      funext flow
      rw [outcome_cons, outcome_cons, agrees.apply flow.guarded_true]
    simp only [chain, renamed, run_eq_outcome, outcome_append, behind]
  · simp only [check_iff, shape_iff_of_stages stages]
  · exact shape_iff_of_stages (List.forall₂_take count stages) element shape

/-- In a sort key, `x -> x.abs() % 10` becomes `abs -> abs.abs() % 10`, and the method stays. -/
theorem run_rename_abs :
    let lambda (name : String) : Lambda := ⟨name, .binary (.arithmetic .modulo)
      (.method (.reference name) "abs" []) (.literal (.number (.integer 10)))⟩
    let sorted (name : String) : Chain :=
      [.sorted (some ⟨[⟨.lambda (lambda name), .descending⟩, ⟨.identity, .ascending⟩]⟩), .limit 2]
    "abs" ∉ (lambda "x").body.references ∧ (lambda "x").rename "abs" = lambda "abs" ∧
      (sorted "x").run 100 .never [.integer 21, .integer (-9), .integer 2] =
        .ok (.list [.integer (-9), .integer 2]) ∧
      (sorted "abs").run 100 .never [.integer 21, .integer (-9), .integer 2] =
        .ok (.list [.integer (-9), .integer 2]) ∧
      (sorted "abs").check .number = .ok () := by
  intro lambda sorted
  have fresh : "abs" ∉ (lambda "x").body.references := by decide
  have same : (lambda "x").rename "abs" = lambda "abs" := by rfl
  have ran : (sorted "x").run 100 .never [.integer 21, .integer (-9), .integer 2] =
      .ok (.list [.integer (-9), .integer 2]) := by rfl
  have accepted : (sorted "x").check .number = .ok () := by rfl
  have renamed := run_rename (.sorted [] .descending [⟨.identity, .ascending⟩]) [] [.limit 2] fresh
  rw [same] at renamed
  exact ⟨fresh, same, ran, (renamed.1 100 .never _).trans ran, (renamed.2.1 .number).2 accepted⟩

end Chain

end Pipeline
