import Pipeline.Policy.Check
import Pipeline.Proofs.Arithmetic
import Pipeline.Proofs.ExprInduction

/-! Inferred shapes against the values that expressions evaluate to. What is known of
records holds of every run; the kind of a scalar is only as good as the library's names. -/

set_option autoImplicit false

namespace Pipeline

/-- The value is a record of the schema, with one value of its kind for each field. -/
def Value.IsRecordOf (schema : Schema) (value : Value) : Prop :=
  ∃ r : Record, value = .record r ∧ r.schema = schema ∧ r.conforms = true

/-- The value is of the shape. -/
def Shape.Admits : Shape → Value → Prop
  | .number, value => value.IsNumber
  | .text, value => value.IsText
  | .boolean, value => value.IsBoolean
  | .record schema, value => value.IsRecordOf schema
  | .unknown, _ => True

/-- The value is of the shape as far as records go: the shapes of scalars are not told apart. -/
def Shape.Covers : Shape → Value → Prop
  | .record schema, value => value.IsRecordOf schema
  | .unknown, _ => True
  | _, value => ∃ s, value = .scalar s

theorem Shape.Admits.covers {shape : Shape} {value : Value} (admits : shape.Admits value) :
    shape.Covers value := by
  cases shape with
  | number | text | boolean => exact admits.elim fun _ same => ⟨_, same⟩
  | record | unknown => exact admits

theorem Shape.ofFieldKind_admits (found : Scalar) :
    (Shape.ofFieldKind found.fieldKind).Admits (.scalar found) := by
  cases found <;> exact ⟨_, rfl⟩

theorem Shape.ofFieldKind_covers (kind : FieldKind) (found : Scalar) :
    (Shape.ofFieldKind kind).Covers (.scalar found) := by
  cases kind <;> exact ⟨_, rfl⟩

theorem Method.shape_covers (method : Method) (found : Scalar) :
    method.shape.Covers (.scalar found) := by
  cases method <;> exact ⟨_, rfl⟩

theorem Shape.join_admits {a b : Shape} {value : Value} (admits : a.Admits value ∨ b.Admits value) :
    (a.join b).Admits value := by
  rw [Shape.join]
  split
  · rename_i same
    exact admits.elim id (same ▸ ·)
  · trivial

theorem Shape.join_covers {a b : Shape} {value : Value} (covers : a.Covers value ∨ b.Covers value) :
    (a.join b).Covers value := by
  rw [Shape.join]
  split
  · rename_i same
    exact covers.elim id (same ▸ ·)
  · trivial

/-! ## Operators -/

theorem UnaryOp.apply_ensures (op : UnaryOp) (value : Value) :
    Ensures op.shape.Admits RunError.IsOrdinary (op.apply value) := by
  cases op with
  | negate => exact value.negated_ensures
  | not =>
      rw [UnaryOp.apply]
      split
      · exact ⟨_, rfl⟩
      · exact id

theorem Shape.sum_covers (a b : Shape) (found : Scalar) : (a.sum b).Covers (.scalar found) := by
  cases a <;> cases b <;> first | exact ⟨_, rfl⟩ | trivial

/-- An operator yields a scalar, whatever shapes its operands are thought to have. -/
theorem Arithmetic.apply_covers (op : Arithmetic) (a b : Shape) (left right : Value) :
    Ensures ((BinaryOp.arithmetic op).shape a b).Covers RunError.IsOrdinary
      (op.apply left right) := by
  refine (op.apply_ensures left right).mono (fun result yields => ?_) fun _ => id
  have scalar : ∃ found, result = .scalar found := by
    rcases yields with ⟨_, _, _, _, rfl⟩ | ⟨_, _, _, rfl⟩ <;> exact ⟨_, rfl⟩
  obtain ⟨found, rfl⟩ := scalar
  cases op with
  | add => exact Shape.sum_covers a b found
  | subtract | multiply | divide | modulo => exact ⟨found, rfl⟩

/-- A sum is a text if one of its operands is, and otherwise a number. -/
theorem Shape.sum_admits {a b : Shape} {left right result : Value}
    (leftAdmits : a.Admits left) (rightAdmits : b.Admits right)
    (yields : left.IsNumber ∧ right.IsNumber ∧ result.IsFiniteNumber ∨
      (left.IsText ∨ right.IsText) ∧ result.IsText) : (a.sum b).Admits result := by
  fun_cases Shape.sum a b with
  | case1 =>
      rcases yields with ⟨number, _⟩ | ⟨_, text⟩
      · exact absurd number leftAdmits.not_isNumber
      · exact text
  | case2 =>
      rcases yields with ⟨_, number, _⟩ | ⟨_, text⟩
      · exact absurd number rightAdmits.not_isNumber
      · exact text
  | case3 =>
      rcases yields with ⟨_, _, number⟩ | ⟨text | text, _⟩
      · exact number.isNumber
      · exact absurd leftAdmits text.not_isNumber
      · exact absurd rightAdmits text.not_isNumber
  | case4 => trivial

theorem Arithmetic.apply_isNumber {op : Arithmetic} (other : op ≠ .add) (left right : Value) :
    Ensures Value.IsNumber RunError.IsOrdinary (op.apply left right) := by
  refine (op.apply_ensures left right).mono (fun result yields => ?_) fun _ => id
  rcases yields with ⟨_, _, number⟩ | ⟨add, _⟩
  · exact number.isNumber
  · exact absurd add other

/-- Where the shapes of the operands are right, that of the sum is. -/
theorem Arithmetic.add_admits {a b : Shape} {left right : Value}
    (leftAdmits : a.Admits left) (rightAdmits : b.Admits right) :
    Ensures (a.sum b).Admits RunError.IsOrdinary (add.apply left right) :=
  (add.apply_ensures left right).mono
    (fun _ yields => Shape.sum_admits leftAdmits rightAdmits (yields.imp_right And.right))
    fun _ => id

/-! ## Fields of records -/

private theorem found_at_index {fields : List Field} {values : List Scalar}
    (conforms : fields.map Field.kind = values.map Scalar.fieldKind) {test : Field → Bool}
    {field : Field} (declared : fields.find? test = some field) :
    ∃ found, (fields.findIdx? test).bind (values[·]?) = some found ∧
      found.fieldKind = field.kind := by
  induction fields generalizing values with
  | nil => cases declared
  | cons first rest ih =>
      cases values with
      | nil => cases conforms
      | cons value values =>
          rw [List.map_cons, List.map_cons, List.cons.injEq] at conforms
          rw [List.findIdx?_cons]
          cases passed : test first with
          | true =>
              rw [List.find?_cons_of_pos passed] at declared
              cases declared
              exact ⟨value, rfl, conforms.1.symm⟩
          | false =>
              rw [List.find?_cons_of_neg (by simp [passed])] at declared
              obtain ⟨found, same, kind⟩ := ih conforms.2 declared
              refine ⟨found, ?_, kind⟩
              rw [← same]
              cases rest.findIdx? test <;> rfl

/-- A record that conforms to its schema has the fields that the schema declares. -/
theorem Record.get?_of_field? {r : Record} (conforms : r.conforms = true) {name : String}
    {field : Field} (declared : r.schema.field? name = some field) :
    ∃ found, r.get? name = some found ∧ found.fieldKind = field.kind :=
  found_at_index (beq_iff_eq.1 conforms) declared

theorem Record.get?_eq_none {r : Record} {name : String}
    (undeclared : r.schema.field? name = none) : r.get? name = none := by
  have absent : r.schema.indexOf? name = none :=
    List.findIdx?_eq_none_iff.2 (by simpa [Schema.field?] using undeclared)
  simp [Record.get?, absent]

theorem Value.IsRecordOf.field {schema : Schema} {value : Value}
    (isRecord : value.IsRecordOf schema) {name : String} {field : Field}
    (declared : schema.field? name = some field) :
    ∃ found, value.field name = .ok (.scalar found) ∧ found.fieldKind = field.kind := by
  obtain ⟨r, rfl, rfl, conforms⟩ := isRecord
  obtain ⟨found, same, kind⟩ := Record.get?_of_field? conforms declared
  exact ⟨found, by simp [Value.field, same], kind⟩

/-- Reading a field that the policy lets through fails only where it knows nothing of the
object; what it yields is of the shape that is inferred. -/
theorem Shape.Covers.field {object shape : Shape} {value : Value} (covers : object.Covers value)
    {name : String} (inferred : object.field name = .ok shape) :
    (∃ found, value.field name = .ok found ∧ shape.Admits found) ∨ object = .unknown := by
  cases object with
  | record schema =>
      simp only [Shape.field] at inferred
      split at inferred
      · rename_i field declared
        cases inferred
        obtain ⟨found, same, kind⟩ := Value.IsRecordOf.field covers declared
        exact .inl ⟨_, same, kind ▸ ofFieldKind_admits found⟩
      · cases inferred
  | unknown => exact .inr rfl
  | number | text | boolean => cases inferred

theorem Value.field_error {value : Value} {name : String} {error : RunError}
    (failed : value.field name = .error error) :
    ∃ fault, error = .type fault ∧
      ((∃ schema, fault = .noField schema name) ∨ ∃ kind, fault = .fieldOf name kind) := by
  unfold Value.field at failed
  split at failed
  · split at failed
    · cases failed
    · cases failed
      exact ⟨_, rfl, .inl ⟨_, rfl⟩⟩
  · cases failed
    exact ⟨_, rfl, .inr ⟨_, rfl⟩⟩

/-! ## Calls -/

theorem Number.absolute_ensures (n : Number) :
    Ensures Value.IsNumber RunError.IsOrdinary n.absolute := by
  unfold Number.absolute
  split
  · split
    · exact ⟨_, rfl⟩
    · trivial
  · exact ⟨_, rfl⟩

theorem Function.apply_ensures (function : Function) (arguments : List Value) :
    Ensures function.shape.Admits RunError.IsOrdinary (function.apply arguments) := by
  fun_cases Function.apply function arguments with
  | case1 n => exact Number.absolute_ensures n
  | case2 | case3 => exact ⟨_, rfl⟩
  | case4 => exact id

theorem callFunction_ensures {cap : Nat} {name : String} {function : Function}
    (known : Function.ofName? name = some function) (arguments : List Value) :
    Ensures function.shape.Admits RunError.IsOrdinary (callFunction cap name arguments) := by
  unfold callFunction
  rw [known]
  cases function with
  | range =>
      have bounds : Ensures (fun _ => True) RunError.IsOrdinary (rangeBounds arguments) := by
        fun_cases rangeBounds arguments
        · trivial
        · exact id
      refine bounds.bind fun (lower, upper) _ => ?_
      dsimp only [Value.range]
      split <;> trivial
  | abs | min | max => exact Function.apply_ensures _ arguments

theorem Method.result?_ensures {method : Method} {object : Value} {arguments : List Value}
    {result : Except RunError Value} (applied : method.result? object arguments = some result) :
    Ensures method.shape.Admits RunError.IsOrdinary result := by
  unfold Method.result? at applied
  split at applied
  case h_10 => cases applied; exact Function.apply_ensures .abs _
  case h_11 => cases applied
  all_goals cases applied; exact ⟨_, rfl⟩

/-- A value that is no record with a field of the name answers as the library does. -/
theorem Value.callMethod_ensures {value : Value} {name : String} {arguments : List Value}
    {method : Method} (known : Method.ofName? name = some method)
    (noField : arguments = [] → ∀ r, value = .record r → r.get? name = none) :
    Ensures method.shape.Admits RunError.IsOrdinary (value.callMethod name arguments) := by
  have library : value.callMethod name arguments = (method.result? value arguments).getD
      (.error (.type (.method name value.kind arguments.length))) := by
    unfold Value.callMethod
    rw [known]
    dsimp only
    generalize method.result? value arguments = answer
    cases value with
    | record r =>
        cases arguments with
        | nil =>
            have absent := noField rfl r rfl
            dsimp only
            generalize r.get? name = found at absent
            cases absent
            cases answer <;> rfl
        | cons => cases answer <;> rfl
    | scalar | list | map => cases answer <;> rfl
  rw [library]
  cases answered : method.result? value arguments with
  | some result => exact Method.result?_ensures answered
  | none => exact id

/-- What a method call yields is of the inferred shape, unless an object of unknown shape
answers with a field. It never fails for want of a method of that name. -/
theorem Shape.Covers.callMethod {object shape : Shape} {value : Value}
    (covers : object.Covers value) {name : String} {arguments : List Value}
    (inferred : object.callMethod name arguments.length = .ok shape) :
    Ensures shape.Admits RunError.IsOrdinary (value.callMethod name arguments) ∨
      (object = .unknown ∧ arguments = [] ∧ ∃ method r found, Method.ofName? name = some method ∧
        shape = method.shape ∧ value = .record r ∧ r.get? name = some found) := by
  unfold Shape.callMethod at inferred
  dsimp only at inferred
  split at inferred
  · rename_i field accessed
    cases inferred
    split at accessed
    · rename_i schema _ none
      rw [List.length_eq_zero_iff.1 none]
      obtain ⟨r, rfl, rfl, conforms⟩ := covers
      obtain ⟨found, same, kind⟩ := Record.get?_of_field? conforms accessed
      left
      simp only [Value.callMethod, same, Ensures]
      exact kind ▸ ofFieldKind_admits found
    · cases accessed
  · rename_i unaccessed
    split at inferred
    · rename_i method known
      cases inferred
      by_cases shadowed : arguments = [] ∧ ∃ r found, value = .record r ∧ r.get? name = some found
      · obtain ⟨rfl, r, found, rfl, same⟩ := shadowed
        cases object with
        | unknown => exact .inr ⟨rfl, rfl, method, r, found, known, rfl, rfl, same⟩
        | record schema =>
            obtain ⟨_, isRecord, rfl, _⟩ := covers
            cases isRecord
            cases (Record.get?_eq_none unaccessed).symm.trans same
        | number | text | boolean =>
            obtain ⟨_, isScalar⟩ := covers
            cases isScalar
      · left
        refine Value.callMethod_ensures known fun none r same => ?_
        cases found : r.get? name with
        | none => rfl
        | some scalar => exact absurd ⟨none, r, scalar, same, found⟩ shadowed
    · cases inferred

theorem Shape.Covers.callMethod_covers {object shape : Shape} {value : Value}
    (covers : object.Covers value) {name : String} {arguments : List Value}
    (inferred : object.callMethod name arguments.length = .ok shape) :
    Ensures shape.Covers RunError.IsOrdinary (value.callMethod name arguments) := by
  rcases covers.callMethod inferred with ensures | ⟨_, rfl, method, r, found, _, rfl, rfl, same⟩
  · exact ensures.mono (fun _ admits => admits.covers) fun _ => id
  · simp only [Value.callMethod, same]
    exact method.shape_covers found

end Pipeline
