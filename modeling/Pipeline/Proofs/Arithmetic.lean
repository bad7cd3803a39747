import Pipeline.Proofs.Overflow
import Pipeline.Run.Expr

/-! The kinds of values that operators, methods and functions yield; the numbers that operators
yield are finite. None of them fails for a name that is not there, except a method or function that
is not in the library. -/

set_option autoImplicit false

namespace Pipeline

/-- A failure to find a name: a reference, method, function or field that is not there. -/
def TypeFault.IsLookup : TypeFault → Prop
  | .unknownReference _ | .unknownMethod _ | .unknownFunction _ => True
  | .noField _ _ | .fieldOf _ _ => True
  | _ => False

/-- A failure for any other reason than a name that is not there. -/
def RunError.IsOrdinary : RunError → Prop
  | .type fault => ¬ fault.IsLookup
  | _ => True

def Value.IsNumber (value : Value) : Prop :=
  ∃ n, value = .number n

/-- What operators result in where they result in a number. -/
def Value.IsFiniteNumber (value : Value) : Prop :=
  ∃ n : Number, n.IsFinite ∧ value = .number n

def Value.IsText (value : Value) : Prop :=
  ∃ s, value = .text s

def Value.IsBoolean (value : Value) : Prop :=
  ∃ b, value = .boolean b

theorem Value.IsText.not_isNumber {value : Value} (text : value.IsText) : ¬ value.IsNumber := by
  obtain ⟨s, rfl⟩ := text
  rintro ⟨n, same⟩
  cases same

theorem Value.IsFiniteNumber.isNumber {value : Value} (number : value.IsFiniteNumber) :
    value.IsNumber := by
  obtain ⟨n, _, same⟩ := number
  exact ⟨n, same⟩

theorem Value.isNumber_iff {value : Value} : value.isNumber = true ↔ value.IsNumber := by
  fun_cases Value.isNumber value <;> simp_all [Value.IsNumber]

theorem Value.boolean?_eq_some {value : Value} {b : Bool} (found : value.boolean? = some b) :
    value = .boolean b := by
  fun_cases Value.boolean? value with
  | case1 c =>
      cases found
      rfl
  | case2 => simp_all [Value.boolean?]

namespace Arithmetic

theorem onIntegers_ensures (op : Arithmetic) (a b : Int64) :
    Ensures Value.IsFiniteNumber RunError.IsOrdinary (op.onIntegers a b) := by
  unfold onIntegers
  dsimp only
  split
  · trivial
  · split
    · exact ⟨.integer _, trivial, rfl⟩
    · trivial

theorem isFinite_of_double? {op : Arithmetic} {x y z : Double} (found : op.double? x y = some z) :
    z.isFinite = true := by
  cases op with
  | add | subtract => exact Double.isFinite_of_add? found
  | multiply => exact Double.isFinite_of_mul? found
  | divide => exact Double.isFinite_of_div? found
  | modulo => exact Double.isFinite_of_rem? found

theorem onDoubles_ensures (op : Arithmetic) (x y : Double) :
    Ensures Value.IsFiniteNumber RunError.IsOrdinary (op.onDoubles x y) := by
  unfold onDoubles
  split
  · trivial
  · split
    · rename_i z found
      exact ⟨.float z, isFinite_of_double? found, rfl⟩
    · trivial

theorem decimalValue?_isFiniteNumber {d : Decimal} {value : Value}
    (small : d.mantissa.natAbs < Decimal.coefficientBound * Nat.pow 10 Decimal.maxScale)
    (found : decimalValue? d = some value) : value.IsFiniteNumber := by
  unfold decimalValue? at found
  split at found
  · rename_i n _
    cases found
    exact ⟨.integer n, trivial, rfl⟩
  · obtain ⟨x, double, rfl⟩ := Option.map_eq_some_iff.1 found
    exact ⟨.float x, Decimal.isFinite_of_toDouble? small double, rfl⟩

theorem onDecimals_ensures (op : Arithmetic) {a b : Decimal} (fitsA : a.Fits) (fitsB : b.Fits) :
    Ensures Value.IsFiniteNumber RunError.IsOrdinary (op.onDecimals a b) := by
  unfold onDecimals
  split
  · trivial
  · split
    · rename_i value found
      obtain ⟨d, result, found⟩ := Option.bind_eq_some_iff.1 found
      exact decimalValue?_isFiniteNumber (Decimal.decimal?_lt op fitsA fitsB result) found
    · trivial

theorem onNumbers_ensures (op : Arithmetic) (a b : Number) :
    Ensures Value.IsFiniteNumber RunError.IsOrdinary (op.onNumbers a b) := by
  fun_cases onNumbers op a b with
  | case1 => exact onIntegers_ensures op _ _
  | case2 => exact onDoubles_ensures op _ _
  | case3 a y decimal rounded =>
      exact onDecimals_ensures op (Decimal.ofInt_fits a) (Decimal.rounded?_fits rounded)
  | case5 x b decimal rounded =>
      exact onDecimals_ensures op (Decimal.rounded?_fits rounded) (Decimal.ofInt_fits b)
  | case4 | case6 => exact onDoubles_ensures op _ _

/-- An operator yields a finite number, or joins two values of which one is a text. -/
theorem apply_ensures (op : Arithmetic) (left right : Value) :
    Ensures
      (fun result => (left.IsNumber ∧ right.IsNumber ∧ result.IsFiniteNumber) ∨
        (op = .add ∧ (left.IsText ∨ right.IsText) ∧ result.IsText))
      RunError.IsOrdinary (op.apply left right) := by
  fun_cases apply op left right with
  | case1 a b =>
      exact (onNumbers_ensures op a b).mono
        (fun _ number => .inl ⟨⟨_, rfl⟩, ⟨_, rfl⟩, number⟩) fun _ => id
  | case2 left right _ joins =>
      refine .inr ⟨joins.1, ?_, _, rfl⟩
      have isText : ∀ {value : Value}, value.text?.isSome → value.IsText := by
        intro value some
        fun_cases Value.text? value <;> simp_all [Value.text?, Value.IsText]
      exact joins.2.imp isText isText
  | case3 => exact id

end Arithmetic

/-! ## The other operators -/

theorem Value.order_ensures (a b : Value) :
    Ensures (fun _ => True) RunError.IsOrdinary (a.order b) := by
  fun_cases Value.order a b with
  | case1 | case2 | case3 => trivial
  | case4 => exact id

theorem Relation.apply_ensures (relation : Relation) (a b : Value) :
    Ensures (fun _ => True) RunError.IsOrdinary (relation.apply a b) := by
  cases relation with
  | equal | notEqual => trivial
  | less | greater | lessEqual | greaterEqual => exact (Value.order_ensures a b).map fun _ => id

theorem Connective.operand_ensures (op : Connective) (value : Value) :
    Ensures (fun _ => True) RunError.IsOrdinary (op.operand value) := by
  unfold Connective.operand
  split
  · trivial
  · exact id

theorem Value.negated_ensures (value : Value) :
    Ensures Value.IsNumber RunError.IsOrdinary value.negated := by
  fun_cases Value.negated value with
  | case1 | case3 => exact ⟨_, rfl⟩
  | case2 => trivial
  | case4 => exact id

end Pipeline
