import Pipeline.Proofs.Shape

/-! Expressions that the policy lets through, evaluated. Every name in them is found, except
for fields of objects of which nothing is known; records are what they are inferred to be. -/

set_option autoImplicit false

namespace Pipeline

variable {cap : Nat} {parameter : String} {element : Shape} {value : Value}

/-! ## Expressions inside others -/

theorem checkAll_iff {exprs : List Expr} :
    Expr.checkAll parameter element exprs = .ok () ↔
      ∀ expr ∈ exprs, ∃ shape, expr.shape parameter element = .ok shape := by
  induction exprs with
  | nil => exact ⟨fun _ => List.forall_mem_nil _, fun _ => rfl⟩
  | cons expr rest ih =>
      rw [Expr.checkAll, bind_eq_ok, List.forall_mem_cons, ← ih]
      constructor
      · rintro ⟨shape, first, others⟩
        exact ⟨⟨shape, first⟩, others⟩
      · rintro ⟨⟨shape, first⟩, others⟩
        exact ⟨shape, first, others⟩

/-- What stands inside an expression that is let through is let through. -/
theorem Expr.Within.shape {inner outer : Expr} (within : inner.Within outer) {shape : Shape}
    (inferred : outer.shape parameter element = .ok shape) :
    ∃ shape, inner.shape parameter element = .ok shape := by
  induction within generalizing shape with
  | self => exact ⟨shape, inferred⟩
  | field _ ih =>
      obtain ⟨object, first, _⟩ := bind_eq_ok.1 inferred
      exact ih first
  | unary _ ih =>
      obtain ⟨operand, first, _⟩ := bind_eq_ok.1 inferred
      exact ih first
  | left _ ih =>
      obtain ⟨left, first, _⟩ := bind_eq_ok.1 inferred
      exact ih first
  | right _ ih =>
      obtain ⟨_, _, inferred⟩ := bind_eq_ok.1 inferred
      obtain ⟨right, second, _⟩ := bind_eq_ok.1 inferred
      exact ih second
  | condition _ ih =>
      obtain ⟨condition, first, _⟩ := bind_eq_ok.1 inferred
      exact ih first
  | thenBranch _ ih =>
      obtain ⟨_, _, inferred⟩ := bind_eq_ok.1 inferred
      obtain ⟨thenShape, second, _⟩ := bind_eq_ok.1 inferred
      exact ih second
  | elseBranch _ ih =>
      obtain ⟨_, _, inferred⟩ := bind_eq_ok.1 inferred
      obtain ⟨_, _, inferred⟩ := bind_eq_ok.1 inferred
      obtain ⟨elseShape, third, _⟩ := bind_eq_ok.1 inferred
      exact ih third
  | object _ ih =>
      obtain ⟨object, first, _⟩ := bind_eq_ok.1 inferred
      exact ih first
  | methodArgument member _ ih =>
      obtain ⟨_, _, inferred⟩ := bind_eq_ok.1 inferred
      obtain ⟨_, others, _⟩ := bind_eq_ok.1 inferred
      obtain ⟨argument, found⟩ := checkAll_iff.1 others _ member
      exact ih found
  | callArgument member _ ih =>
      rw [Expr.shape] at inferred
      split at inferred
      · cases inferred
      · obtain ⟨_, others, _⟩ := bind_eq_ok.1 inferred
        obtain ⟨argument, found⟩ := checkAll_iff.1 others _ member
        exact ih found

/-- A field is read inside the expression where the object is inferred to be of the given
shape, and the object that is there when it runs does not have the field. -/
def Expr.RaisesAt (cap : Nat) (parameter : String) (element : Shape) (value : Value)
    (expr : Expr) (object : Shape) (fault : TypeFault) : Prop :=
  ∃ inner name found, (Expr.field inner name).Within expr ∧
    inner.shape parameter element = .ok object ∧ inner.eval cap parameter value = .ok found ∧
    found.field name = .error (.type fault)

theorem Expr.RaisesAt.mono {inner outer : Expr} {object : Shape} {fault : TypeFault}
    (raises : inner.RaisesAt cap parameter element value object fault)
    (included : ∀ expr : Expr, expr.Within inner → expr.Within outer) :
    outer.RaisesAt cap parameter element value object fault := by
  obtain ⟨expr, name, found, within, rest⟩ := raises
  exact ⟨expr, name, found, included _ within, rest⟩

/-! ## Evaluation -/

variable {allowed : RunError → Prop}

theorem evalAll_ensures {exprs : List Expr}
    (evaluates : ∀ expr ∈ exprs, Ensures (fun _ => True) allowed (expr.eval cap parameter value)) :
    Ensures (fun values => values.length = exprs.length) allowed
      (Expr.evalAll cap parameter value exprs) := by
  induction exprs with
  | nil => rfl
  | cons expr rest ih =>
      rw [List.forall_mem_cons] at evaluates
      rw [Expr.evalAll]
      exact evaluates.1.bind fun _ _ => (ih evaluates.2).bind fun _ same => congrArg (· + 1) same

/-- Arguments that the policy checked are evaluated to as many values. -/
theorem evalAll_covers {arguments : List Expr}
    (checked : Expr.checkAll parameter element arguments = .ok ())
    (covers : ∀ argument ∈ arguments, ∀ shape, argument.shape parameter element = .ok shape →
      Ensures shape.Covers allowed (argument.eval cap parameter value)) :
    Ensures (fun values => values.length = arguments.length) allowed
      (Expr.evalAll cap parameter value arguments) := by
  refine evalAll_ensures fun argument member => ?_
  obtain ⟨shape, inferred⟩ := checkAll_iff.1 checked argument member
  exact (covers argument member shape inferred).mono (fun _ _ => trivial) fun _ => id

/-- An operator covers its shape where its operands cover theirs. -/
theorem Expr.binary_covers (ordinary : ∀ error : RunError, error.IsOrdinary → allowed error)
    {op : BinaryOp} {left right : Expr} {leftShape rightShape : Shape}
    (leftEnsures : Ensures leftShape.Covers allowed (left.eval cap parameter value))
    (rightEnsures : Ensures rightShape.Covers allowed (right.eval cap parameter value)) :
    Ensures (op.shape leftShape rightShape).Covers allowed
      ((Expr.binary op left right).eval cap parameter value) := by
  cases op with
  | arithmetic op =>
      exact leftEnsures.bind fun left _ => rightEnsures.bind fun right _ =>
        (op.apply_covers leftShape rightShape left right).mono (fun _ => id) ordinary
  | relation op =>
      exact leftEnsures.bind fun left _ => rightEnsures.bind fun right _ =>
        ((op.apply_ensures left right).mono (fun _ => id) ordinary).map fun b _ => ⟨_, rfl⟩
  | connective op =>
      refine leftEnsures.bind fun left _ =>
        ((op.operand_ensures left).mono (fun _ => id) ordinary).bind fun b _ => ?_
      split
      · exact ⟨_, rfl⟩
      · exact rightEnsures.bind fun right _ =>
          ((op.operand_ensures right).mono (fun _ => id) ordinary).bind fun b _ => ⟨_, rfl⟩

/-- An expression evaluates to a value of its shape, as far as records go. It only fails to
find a name where it reads a field of an object of unknown shape. -/
theorem Expr.eval_ensures (ordinary : ∀ error : RunError, error.IsOrdinary → allowed error)
    (covers : element.Covers value) {expr : Expr} {shape : Shape}
    (inferred : expr.shape parameter element = .ok shape)
    (sites : ∀ fault, expr.RaisesAt cap parameter element value .unknown fault →
      allowed (.type fault)) :
    Ensures shape.Covers allowed (expr.eval cap parameter value) := by
  induction expr using Expr.induct generalizing shape with
  | literal found =>
      cases inferred
      exact Shape.ofFieldKind_covers _ found
  | reference name =>
      rw [Expr.shape] at inferred
      split at inferred
      · rename_i same
        cases inferred
        rw [Expr.eval, if_pos same]
        exact covers
      · cases inferred
  | field object name ih =>
      obtain ⟨objectShape, first, accessed⟩ := bind_eq_ok.1 inferred
      have objectSites := fun fault raises => sites fault (RaisesAt.mono raises fun _ => .field)
      refine (ih first objectSites).and_result.bind fun found ⟨covers, evaluated⟩ => ?_
      rcases covers.field accessed with ⟨result, same, admits⟩ | rfl
      · rw [same]
        exact admits.covers
      · cases accessed
        cases result : found.field name with
        | ok _ => trivial
        | error error =>
            obtain ⟨fault, rfl, _⟩ := Value.field_error result
            exact sites fault ⟨object, name, found, .self, first, evaluated, result⟩
  | unary op operand ih =>
      obtain ⟨_, first, same⟩ := bind_eq_ok.1 inferred
      cases same
      have operandSites := fun fault raises => sites fault (RaisesAt.mono raises fun _ => .unary)
      exact (ih first operandSites).bind fun found _ =>
        (op.apply_ensures found).mono (fun _ admits => admits.covers) ordinary
  | binary op left right leftIH rightIH =>
      obtain ⟨leftShape, first, inferred⟩ := bind_eq_ok.1 inferred
      obtain ⟨rightShape, second, same⟩ := bind_eq_ok.1 inferred
      cases same
      have leftEnsures := leftIH first fun fault raises =>
        sites fault (RaisesAt.mono raises fun _ => .left)
      have rightEnsures := rightIH second fun fault raises =>
        sites fault (RaisesAt.mono raises fun _ => .right)
      exact binary_covers ordinary leftEnsures rightEnsures
  | conditional condition thenBranch elseBranch conditionIH thenIH elseIH =>
      obtain ⟨_, first, inferred⟩ := bind_eq_ok.1 inferred
      obtain ⟨thenShape, second, inferred⟩ := bind_eq_ok.1 inferred
      obtain ⟨elseShape, third, same⟩ := bind_eq_ok.1 inferred
      cases same
      have conditionEnsures := conditionIH first fun fault raises =>
        sites fault (RaisesAt.mono raises fun _ => .condition)
      refine conditionEnsures.bind fun found _ => ?_
      split
      · exact (thenIH second fun fault raises =>
          sites fault (RaisesAt.mono raises fun _ => .thenBranch)).mono
            (fun _ covers => Shape.join_covers (.inl covers)) fun _ => id
      · exact (elseIH third fun fault raises =>
          sites fault (RaisesAt.mono raises fun _ => .elseBranch)).mono
            (fun _ covers => Shape.join_covers (.inr covers)) fun _ => id
      · exact ordinary _ id
  | method object name arguments objectIH argumentsIH =>
      obtain ⟨objectShape, first, inferred⟩ := bind_eq_ok.1 inferred
      obtain ⟨_, others, called⟩ := bind_eq_ok.1 inferred
      have objectEnsures := objectIH first fun fault raises =>
        sites fault (RaisesAt.mono raises fun _ => .object)
      have argumentsEnsures := evalAll_covers others fun argument member _ inferred =>
        argumentsIH argument member inferred fun fault raises =>
          sites fault (RaisesAt.mono raises fun _ => .methodArgument member)
      refine objectEnsures.bind fun found covers => argumentsEnsures.bind fun values same => ?_
      rw [← same] at called
      exact (covers.callMethod_covers called).mono (fun _ => id) ordinary
  | call name arguments ih =>
      rw [Expr.shape] at inferred
      split at inferred
      · cases inferred
      · rename_i function known
        obtain ⟨_, others, same⟩ := bind_eq_ok.1 inferred
        cases same
        have argumentsEnsures := evalAll_covers others fun argument member _ inferred =>
          ih argument member inferred fun fault raises =>
            sites fault (RaisesAt.mono raises fun _ => .callArgument member)
        exact argumentsEnsures.bind fun values _ =>
          (callFunction_ensures known values).mono (fun _ admits => admits.covers) ordinary

theorem Expr.eval_covers (covers : element.Covers value) {expr : Expr} {shape : Shape}
    (inferred : expr.shape parameter element = .ok shape) {result : Value}
    (evaluated : expr.eval cap parameter value = .ok result) : shape.Covers result := by
  have ensures : Ensures shape.Covers (fun _ => True) (expr.eval cap parameter value) :=
    expr.eval_ensures (fun _ _ => trivial) covers inferred fun _ _ => trivial
  rwa [evaluated] at ensures

/-- A record never lacks a field that the policy lets be read. -/
theorem Expr.not_raisesAt_record (covers : element.Covers value) {expr : Expr} {shape : Shape}
    (inferred : expr.shape parameter element = .ok shape) (schema : Schema) (fault : TypeFault) :
    ¬ expr.RaisesAt cap parameter element value (.record schema) fault := by
  rintro ⟨inner, name, found, within, object, evaluated, failed⟩
  obtain ⟨field, accepted⟩ := within.shape inferred
  rw [Expr.shape, object] at accepted
  rcases (inner.eval_covers covers object evaluated).field accepted with ⟨_, same, _⟩ | unknown
  · cases same.symm.trans failed
  · cases unknown

/-! ## Selectors -/

/-- A field is read by the selector, or inside its lambda, where the object is inferred to
be of the given shape, and the object that is there when it runs does not have the field. -/
def Selector.RaisesAt (cap : Nat) (element : Shape) (value : Value) (selector : Selector)
    (object : Shape) (fault : TypeFault) : Prop :=
  match selector with
  | .identity => False
  | .field name => object = element ∧ value.field name = .error (.type fault)
  | .lambda function => function.body.RaisesAt cap function.parameter element value object fault

theorem Selector.select_ensures
    (ordinary : ∀ error : RunError, error.IsOrdinary → allowed error)
    (covers : element.Covers value) {selector : Selector} {shape : Shape}
    (inferred : selector.shape element = .ok shape)
    (sites : ∀ fault, selector.RaisesAt cap element value .unknown fault →
      allowed (.type fault)) :
    Ensures shape.Covers allowed (selector.select cap value) := by
  cases selector with
  | identity =>
      cases inferred
      exact covers
  | field name =>
      change Ensures _ _ (value.field name)
      rcases covers.field inferred with ⟨result, same, admits⟩ | rfl
      · rw [same]
        exact admits.covers
      · cases inferred
        cases result : value.field name with
        | ok _ => trivial
        | error error =>
            obtain ⟨fault, rfl, _⟩ := Value.field_error result
            exact sites fault ⟨rfl, result⟩
  | lambda function => exact Expr.eval_ensures ordinary covers inferred sites

theorem Selector.not_raisesAt_record (covers : element.Covers value) {selector : Selector}
    {shape : Shape} (inferred : selector.shape element = .ok shape) (schema : Schema)
    (fault : TypeFault) : ¬ selector.RaisesAt cap element value (.record schema) fault := by
  cases selector with
  | identity => exact id
  | field name =>
      rintro ⟨rfl, failed⟩
      rcases Shape.Covers.field covers inferred with ⟨_, same, _⟩ | unknown
      · cases same.symm.trans failed
      · cases unknown
  | lambda function => exact Expr.not_raisesAt_record covers inferred schema fault

theorem Expr.RaisesAt.field_fault {expr : Expr} {object : Shape} {fault : TypeFault}
    (raises : expr.RaisesAt cap parameter element value object fault) :
    ∃ name, (∃ schema, fault = .noField schema name) ∨ ∃ kind, fault = .fieldOf name kind := by
  obtain ⟨_, name, _, _, _, _, failed⟩ := raises
  obtain ⟨_, same, form⟩ := Value.field_error failed
  cases same
  exact ⟨name, form⟩

theorem Selector.RaisesAt.field_fault {selector : Selector} {object : Shape} {fault : TypeFault}
    (raises : selector.RaisesAt cap element value object fault) :
    ∃ name, (∃ schema, fault = .noField schema name) ∨ ∃ kind, fault = .fieldOf name kind := by
  cases selector with
  | identity => exact raises.elim
  | field name =>
      obtain ⟨_, same, form⟩ := Value.field_error raises.2
      cases same
      exact ⟨name, form⟩
  | lambda function => exact Expr.RaisesAt.field_fault raises

end Pipeline
