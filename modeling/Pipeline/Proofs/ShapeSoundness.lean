import Pipeline.Proofs.NameResolution

/-! Whether values have the shapes that are inferred for them. They do, but for one kind of
call: where nothing is known of an object, a method of the library is taken for itself,
although a record answers with its own field of that name. -/

set_option autoImplicit false

namespace Pipeline

/-- The value of an expression is of the shape that is inferred for it. -/
def Expr.KeepsShape (cap : Nat) (parameter : String) (element : Shape) (value : Value)
    (expr : Expr) : Prop :=
  ∀ shape result, expr.shape parameter element = .ok shape →
    expr.eval cap parameter value = .ok result → shape.Admits result

/-- A method of the library is called, without arguments, on an object of unknown shape that
turns out to be a record with a field of that name and of another kind. -/
def Expr.Clashes (cap : Nat) (parameter : String) (element : Shape) (value : Value)
    (expr : Expr) : Prop :=
  ∃ object name method r found, expr = .method object name [] ∧
    object.shape parameter element = .ok .unknown ∧
    object.eval cap parameter value = .ok (.record r) ∧ r.get? name = some found ∧
    Method.ofName? name = some method ∧ method.shape ≠ Shape.ofFieldKind found.fieldKind

/-- The shape of an expression is put together from those of its sources: itself, the chosen
branch of a conditional and both operands of a sum. -/
inductive Expr.Source (cap : Nat) (parameter : String) (value : Value) (source : Expr) :
    Expr → Prop where
  | self : Source cap parameter value source source
  | thenBranch {condition thenBranch elseBranch : Expr} :
      condition.eval cap parameter value = .ok (.boolean true) →
      Source cap parameter value source thenBranch →
      Source cap parameter value source (.conditional condition thenBranch elseBranch)
  | elseBranch {condition thenBranch elseBranch : Expr} :
      condition.eval cap parameter value = .ok (.boolean false) →
      Source cap parameter value source elseBranch →
      Source cap parameter value source (.conditional condition thenBranch elseBranch)
  | left {left right : Expr} : Source cap parameter value source left →
      Source cap parameter value source (.binary (.arithmetic .add) left right)
  | right {left right : Expr} : Source cap parameter value source right →
      Source cap parameter value source (.binary (.arithmetic .add) left right)

variable {cap : Nat} {parameter : String} {element : Shape} {value : Value}

theorem Expr.Source.trans {inner middle outer : Expr}
    (first : inner.Source cap parameter value middle)
    (second : middle.Source cap parameter value outer) :
    inner.Source cap parameter value outer := by
  induction second with
  | self => exact first
  | thenBranch chosen _ ih => exact .thenBranch chosen ih
  | elseBranch chosen _ ih => exact .elseBranch chosen ih
  | left _ ih => exact .left ih
  | right _ ih => exact .right ih

theorem Shape.ofFieldKind_of_admits {kind : FieldKind} {found : Scalar}
    (admits : (ofFieldKind kind).Admits (.scalar found)) : found.fieldKind = kind := by
  cases kind <;> obtain ⟨_, same⟩ := admits <;> cases same <;> rfl

theorem Method.shape_eq_ofFieldKind (method : Method) :
    ∃ kind, method.shape = Shape.ofFieldKind kind := by
  cases method with
  | upper | lower | trim => exact ⟨.text, rfl⟩
  | length | abs => exact ⟨.number, rfl⟩
  | contains | startsWith | endsWith => exact ⟨.boolean, rfl⟩

/-- Such a call does not have its shape: it yields the field. -/
theorem Expr.Clashes.not_keepsShape {expr : Expr}
    (clashes : expr.Clashes cap parameter element value) :
    ¬ expr.KeepsShape cap parameter element value := by
  obtain ⟨object, name, method, r, found, rfl, unknown, evaluated, field, known, other⟩ := clashes
  intro keeps
  have inferred : (Expr.method object name []).shape parameter element = .ok method.shape := by
    simp [Expr.shape, unknown, bind_eq_ok, Expr.checkAll, Shape.callMethod, known]
  have result : (Expr.method object name []).eval cap parameter value = .ok (.scalar found) := by
    simp [Expr.eval, evaluated, bind_eq_ok, Expr.evalAll, Value.callMethod, field]
  have admits := keeps _ _ inferred result
  obtain ⟨kind, same⟩ := method.shape_eq_ofFieldKind
  rw [same] at admits other
  exact other (Shape.ofFieldKind_of_admits admits ▸ rfl)

theorem checkAll_length {arguments : List Expr} {values : List Value}
    (evaluated : Expr.evalAll cap parameter value arguments = .ok values) :
    values.length = arguments.length := by
  have ensures : Ensures (fun values : List Value => values.length = arguments.length)
      (fun _ => True) (Expr.evalAll cap parameter value arguments) :=
    evalAll_ensures fun expr _ => ensures_iff.2 ⟨fun _ _ => trivial, fun _ _ => trivial⟩
  exact (ensures_iff.1 ensures).1 values evaluated

/-- A method call has its shape unless it clashes. -/
theorem Expr.method_keepsShape (covers : element.Covers value) {object : Expr} {name : String}
    {arguments : List Expr}
    (clear : ¬ (Expr.method object name arguments).Clashes cap parameter element value) :
    (Expr.method object name arguments).KeepsShape cap parameter element value := by
  intro shape result inferred evaluated
  obtain ⟨objectShape, first, inferred⟩ := bind_eq_ok.1 inferred
  obtain ⟨_, _, called⟩ := bind_eq_ok.1 inferred
  obtain ⟨found, objectEvaluated, evaluated⟩ := bind_eq_ok.1 evaluated
  obtain ⟨values, argumentsEvaluated, answered⟩ := bind_eq_ok.1 evaluated
  have same := checkAll_length argumentsEvaluated
  rw [← same] at called
  rcases (object.eval_covers covers first objectEvaluated).callMethod called with
    ensures | ⟨rfl, rfl, method, r, field, known, rfl, rfl, accessed⟩
  · exact (ensures_iff.1 ensures).1 result answered
  · cases List.length_eq_zero_iff.1 same.symm
    simp only [Value.callMethod, accessed] at answered
    cases answered
    have shapes : method.shape = Shape.ofFieldKind field.fieldKind :=
      Decidable.byContradiction fun other =>
        clear ⟨object, name, method, r, field, rfl, first, objectEvaluated, accessed, known, other⟩
    exact shapes ▸ Shape.ofFieldKind_admits field

/-- An operator yields its shape; for a sum, its operands need to have theirs. -/
theorem Expr.binary_keepsShape {op : BinaryOp} {left right : Expr}
    (operands : op = .arithmetic .add → left.KeepsShape cap parameter element value ∧
      right.KeepsShape cap parameter element value) :
    (Expr.binary op left right).KeepsShape cap parameter element value := by
  intro shape result inferred evaluated
  obtain ⟨leftShape, leftInferred, inferred⟩ := bind_eq_ok.1 inferred
  obtain ⟨rightShape, rightInferred, same⟩ := bind_eq_ok.1 inferred
  cases same
  cases op with
  | arithmetic op =>
      obtain ⟨leftValue, leftEvaluated, evaluated⟩ := bind_eq_ok.1 evaluated
      obtain ⟨rightValue, rightEvaluated, applied⟩ := bind_eq_ok.1 evaluated
      by_cases sum : op = .add
      · subst sum
        have leftAdmits := (operands rfl).1 _ _ leftInferred leftEvaluated
        have rightAdmits := (operands rfl).2 _ _ rightInferred rightEvaluated
        exact (ensures_iff.1 (Arithmetic.add_admits leftAdmits rightAdmits)).1 result applied
      · have number := (ensures_iff.1 (Arithmetic.apply_isNumber sum leftValue rightValue)).1
          result applied
        cases op with
        | add => exact absurd rfl sum
        | subtract | multiply | divide | modulo => exact number
  | relation op =>
      obtain ⟨leftValue, _, evaluated⟩ := bind_eq_ok.1 evaluated
      obtain ⟨rightValue, _, compared⟩ := bind_eq_ok.1 evaluated
      obtain ⟨b, _, rfl⟩ := map_eq_ok.1 compared
      exact ⟨b, rfl⟩
  | connective op =>
      obtain ⟨_, _, evaluated⟩ := bind_eq_ok.1 evaluated
      obtain ⟨b, _, decided⟩ := bind_eq_ok.1 evaluated
      split at decided
      · cases decided
        exact ⟨b, rfl⟩
      · obtain ⟨_, _, decided⟩ := bind_eq_ok.1 decided
        obtain ⟨c, _, same⟩ := bind_eq_ok.1 decided
        cases same
        exact ⟨c, rfl⟩

/-- Where no source of an expression clashes, the value of the expression is of its shape. -/
theorem Expr.keepsShape_of_clear (admits : element.Admits value) {expr : Expr}
    (clear : ∀ source : Expr, source.Source cap parameter value expr →
      ¬ source.Clashes cap parameter element value) :
    expr.KeepsShape cap parameter element value := by
  induction expr using Expr.induct with
  | literal found =>
      intro shape result inferred evaluated
      cases inferred
      cases evaluated
      exact Shape.ofFieldKind_admits found
  | reference name =>
      intro shape result inferred evaluated
      by_cases same : name = parameter
      · rw [Expr.shape, if_pos same] at inferred
        rw [Expr.eval, if_pos same] at evaluated
        cases inferred
        cases evaluated
        exact admits
      · rw [Expr.shape, if_neg same] at inferred
        cases inferred
  | field object name _ =>
      intro shape result inferred evaluated
      obtain ⟨objectShape, first, accessed⟩ := bind_eq_ok.1 inferred
      obtain ⟨found, objectEvaluated, read⟩ := bind_eq_ok.1 evaluated
      rcases (object.eval_covers admits.covers first objectEvaluated).field accessed with
        ⟨_, same, admits⟩ | rfl
      · cases same.symm.trans read
        exact admits
      · cases accessed
        trivial
  | unary op operand _ =>
      intro shape result inferred evaluated
      obtain ⟨_, _, same⟩ := bind_eq_ok.1 inferred
      obtain ⟨found, _, applied⟩ := bind_eq_ok.1 evaluated
      cases same
      exact (ensures_iff.1 (op.apply_ensures found)).1 result applied
  | binary op left right leftIH rightIH =>
      refine binary_keepsShape fun sum => ?_
      subst sum
      exact ⟨leftIH fun source within => clear source (.left within),
        rightIH fun source within => clear source (.right within)⟩
  | conditional condition thenBranch elseBranch _ thenIH elseIH =>
      intro shape result inferred evaluated
      obtain ⟨_, _, inferred⟩ := bind_eq_ok.1 inferred
      obtain ⟨thenShape, second, inferred⟩ := bind_eq_ok.1 inferred
      obtain ⟨elseShape, third, same⟩ := bind_eq_ok.1 inferred
      cases same
      obtain ⟨found, decided, chosen⟩ := bind_eq_ok.1 evaluated
      split at chosen
      · rename_i isTrue
        have decided := decided.trans (congrArg _ (Value.boolean?_eq_some isTrue))
        have keeps := thenIH fun source within => clear source (.thenBranch decided within)
        exact Shape.join_admits (.inl (keeps _ _ second chosen))
      · rename_i isFalse
        have decided := decided.trans (congrArg _ (Value.boolean?_eq_some isFalse))
        have keeps := elseIH fun source within => clear source (.elseBranch decided within)
        exact Shape.join_admits (.inr (keeps _ _ third chosen))
      · cases chosen
  | method object name arguments _ _ =>
      exact method_keepsShape admits.covers (clear _ .self)
  | call name arguments _ =>
      intro shape result inferred evaluated
      rw [Expr.shape] at inferred
      split at inferred
      · cases inferred
      · rename_i function known
        obtain ⟨_, _, same⟩ := bind_eq_ok.1 inferred
        cases same
        obtain ⟨values, _, called⟩ := bind_eq_ok.1 evaluated
        exact (ensures_iff.1 (callFunction_ensures known values)).1 result called

/-- The sources of an expression have their shapes exactly if none of them clashes. -/
theorem Expr.sources_keepShape_iff (admits : element.Admits value) (expr : Expr) :
    (∀ source : Expr, source.Source cap parameter value expr →
      source.KeepsShape cap parameter element value) ↔
    ∀ source : Expr, source.Source cap parameter value expr →
      ¬ source.Clashes cap parameter element value := by
  constructor
  · exact fun keep source within clashes => clashes.not_keepsShape (keep source within)
  · exact fun clear source within => source.keepsShape_of_clear admits
      fun inner innerWithin => clear inner (innerWithin.trans within)

/-! ## Chains -/

/-- Some element comes to a stage that maps it by a lambda with a source that clashes. -/
def Chain.Clashes (cap : Nat) (token : CancelToken) (elementType : ElementType)
    (input : List Value) (chain : Chain) : Prop :=
  ∃ function shape element, chain.Reaches cap token (.map (.lambda function)) shape element
      (Shape.ofElementType elementType) (.sequence (Sequence.ofList input)) ∧
    ∃ source : Expr, source.Source cap function.parameter element function.body ∧
      source.Clashes cap function.parameter shape element

/-- Behind every stage the elements have the shape that is inferred there, and so do the
sources of the lambdas that map them. -/
structure Chain.KeepsShapes (cap : Nat) (token : CancelToken) (elementType : ElementType)
    (input : List Value) (chain : Chain) : Prop where
  elements : ∀ before after, chain = before ++ after → ∀ shape flow,
    Chain.shape before (Shape.ofElementType elementType) = .ok shape →
    Chain.through cap token before (.sequence (Sequence.ofList input)) = .ok flow →
    ∀ element, flow.Carries element → shape.Admits element
  sources : ∀ function shape element, chain.Reaches cap token (.map (.lambda function)) shape
      element (Shape.ofElementType elementType) (.sequence (Sequence.ofList input)) →
    ∀ source : Expr, source.Source cap function.parameter element function.body →
      source.KeepsShape cap function.parameter shape element

variable {token : CancelToken} {elementType : ElementType} {input : List Value}

/-- Where the lambdas of a stage that maps do not clash, it puts out what is inferred. -/
theorem Stage.sends_admits {good : Value → Prop} {stage : Stage} {shape next : Shape}
    (inferred : stage.shape shape = .ok next) (holds : ∀ value, good value → shape.Admits value)
    (clear : ∀ function, stage = .map (.lambda function) → ∀ value, good value →
      ∀ source : Expr, source.Source cap function.parameter value function.body →
        ¬ source.Clashes cap function.parameter shape value) :
    stage.Sends cap good next.Admits fun _ => True := by
  refine stage.sends_of_shape Shape.admits_isReading (fun _ _ => trivial) inferred holds ?_ ?_
  · exact fun _ _ _ _ => ensures_iff.2 ⟨fun _ _ => trivial, fun _ _ => trivial⟩
  · rintro selector rfl value element
    cases selector with
    | identity =>
        cases inferred
        exact holds value element
    | field name =>
        change Ensures _ _ (value.field name)
        rcases (holds value element).covers.field inferred with ⟨_, same, admits⟩ | rfl
        · rw [same]
          exact admits
        · cases inferred
          exact ensures_iff.2 ⟨fun _ _ => trivial, fun _ _ => trivial⟩
    | lambda function =>
        have keeps := Expr.keepsShape_of_clear (holds value element)
          (clear function rfl value element)
        exact ensures_iff.2 ⟨fun result => keeps next result inferred, fun _ _ => trivial⟩

theorem Chain.keepsShapes_of_clear {chain : Chain}
    (contained : ∀ value ∈ input, elementType.Contains value)
    (clear : ¬ chain.Clashes cap token elementType input) :
    chain.KeepsShapes cap token elementType input := by
  have elements : ∀ before after, chain = before ++ after → ∀ shape flow,
      Chain.shape before (Shape.ofElementType elementType) = .ok shape →
      Chain.through cap token before (.sequence (Sequence.ofList input)) = .ok flow →
      ∀ element, flow.Carries element → shape.Admits element := by
    rintro before after rfl shape flow inferred passed element carries
    have ensures : Ensures (Flow.Guarded shape.Admits fun _ => True) (fun _ => True)
        (Chain.through cap token before (.sequence (Sequence.ofList input))) := by
      refine Chain.through_ensures (fun _ _ => trivial) inferred
        (.sequence (Sequence.guarded_ofList fun value member => (contained value member).admits)) ?_
      intro stage reached next good inferred holds
      refine stage.sends_admits inferred (fun value element => (holds value element).1) ?_
      rintro function rfl value element source within clashes
      exact clear ⟨function, reached, value, (holds value element).2.append after, source, within,
        clashes⟩
    rw [passed] at ensures
    exact Flow.Guarded.good_of_carries ensures carries
  refine ⟨elements, fun function shape element reaches source within => ?_⟩
  obtain ⟨before, after, passed, same, inferred, through, carries⟩ := reaches.carried
  have admits := elements before _ same shape passed inferred through element carries
  exact source.keepsShape_of_clear admits fun inner innerWithin clashes =>
    clear ⟨function, shape, element, reaches, inner, innerWithin.trans within, clashes⟩

/-- Shapes are sound but for calls that clash: the value of an expression, and those of the
expressions that its shape is put together from, have the shapes that are inferred exactly
if none of these is such a call. So do the elements behind all stages of an accepted chain
and the sources of the lambdas that map them. -/
theorem shapes_sound_iff_clear (cap : Nat) :
    (∀ (parameter : String) (element : Shape) (value : Value) (expr : Expr),
      element.Admits value →
      ((∀ source : Expr, source.Source cap parameter value expr →
        source.KeepsShape cap parameter element value) ↔
      ∀ source : Expr, source.Source cap parameter value expr →
        ¬ source.Clashes cap parameter element value)) ∧
    ∀ (token : CancelToken) (elementType : ElementType) (chain : Chain)
      (input : List Value), chain.check elementType = .ok () →
      (∀ value ∈ input, elementType.Contains value) →
      (∀ before after, chain = before ++ after →
        ∃ shape, Chain.shape before (Shape.ofElementType elementType) = .ok shape) ∧
      (chain.KeepsShapes cap token elementType input ↔
        ¬ chain.Clashes cap token elementType input) := by
  refine ⟨fun parameter element value expr admits => expr.sources_keepShape_iff admits,
    fun token elementType chain input accepted contained => ⟨?_, ?_, ?_⟩⟩
  · rintro before after rfl
    obtain ⟨last, inferred⟩ := Chain.check_iff.1 accepted
    exact Chain.shape_of_append inferred
  · rintro keeps ⟨function, shape, element, reaches, source, within, clashes⟩
    exact clashes.not_keepsShape (keeps.sources function shape element reaches source within)
  · exact Chain.keepsShapes_of_clear contained

/-! ## A call that clashes -/

/-- Records with a field that has the name of a method, but not its kind. -/
def shadowingSchema : Schema :=
  ⟨"R", [⟨"flag", .boolean⟩, ⟨"length", .text⟩], none⟩

def shadowingRecord : Record :=
  ⟨shadowingSchema, [.boolean true, .text "long"]⟩

/-- Calls the method on what is either such a record or a text. -/
def shadowedCall : Expr :=
  .method (.conditional (.field (.reference "a") "flag") (.reference "a")
    (.literal (.text "abc"))) "length" []

theorem shadowedCall_clashes :
    shadowedCall.Clashes 10 "a" (.record shadowingSchema) (.record shadowingRecord) :=
  ⟨_, _, .length, shadowingRecord, .text "long", rfl, rfl, rfl, rfl, rfl, by decide⟩

theorem shadowingRecord_contained : ∀ value ∈ [Value.record shadowingRecord],
    (ElementType.record shadowingSchema).Contains value := by
  intro value member
  rw [List.mem_singleton.1 member]
  exact ⟨rfl, fun r same => by cases same; rfl⟩

/-- The call is taken for a number and yields a text. -/
theorem shapes_not_sound :
    ¬ ∀ (cap : Nat) (parameter : String) (element : Shape) (value : Value) (expr : Expr),
      element.Admits value → expr.KeepsShape cap parameter element value := by
  intro sound
  have admits := (shadowingRecord_contained _ (.head _)).admits
  exact shadowedCall_clashes.not_keepsShape (sound 10 "a" _ _ shadowedCall admits)

/-- Neither the call nor a chain that maps by it has the shapes that are inferred. -/
theorem shapes_sound_iff_clear_shadowed :
    (¬ ∀ source : Expr, source.Source 10 "a" (.record shadowingRecord) shadowedCall →
      source.KeepsShape 10 "a" (.record shadowingSchema) (.record shadowingRecord)) ∧
    ¬ Chain.KeepsShapes 10 .never (.record shadowingSchema) [.record shadowingRecord]
      [.map (.lambda ⟨"a", shadowedCall⟩)] := by
  have admits : (Shape.record shadowingSchema).Admits (.record shadowingRecord) :=
    (shadowingRecord_contained _ (.head _)).admits
  have chain := ((shapes_sound_iff_clear 10).2 .never (.record shadowingSchema)
    [.map (.lambda ⟨"a", shadowedCall⟩)] _ rfl shadowingRecord_contained).2
  constructor
  · rw [(shapes_sound_iff_clear 10).1 "a" _ _ shadowedCall admits]
    exact fun clear => clear _ .self shadowedCall_clashes
  · exact fun keeps => chain.1 keeps ⟨⟨"a", shadowedCall⟩, .record shadowingSchema,
      .record shadowingRecord, .here (.sequence .here), shadowedCall, .self, shadowedCall_clashes⟩

end Pipeline
