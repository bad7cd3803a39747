import Pipeline.Run.Error

/-!
# Arithmetic and comparison of values

Integers compute with integers and doubles with doubles. An integer and a double meet
as decimals where the double has a decimal, and as doubles where it has none; a decimal
result that is integral and fits becomes an integer again.
-/

set_option autoImplicit false

namespace Pipeline

namespace Arithmetic

/-- The integer result of an operator, division cutting toward zero. -/
def onIntegers (op : Arithmetic) (a b : Int64) : Except RunError Value :=
  let result : Int := match op with
    | add => a.toInt + b.toInt
    | subtract => a.toInt - b.toInt
    | multiply => a.toInt * b.toInt
    | divide => a.toInt.tdiv b.toInt
    | modulo => a.toInt.tmod b.toInt
  if (op = divide ∨ op = modulo) ∧ b.toInt = 0 then .error .divisionByZero
  else
    -- Division of the least integer by minus one overflows, and so does its remainder.
    let quotient : Int := if op = modulo then a.toInt.tdiv b.toInt else result
    match boundedInteger? result, boundedInteger? quotient with
    | some n, some _ => .ok (.integer n)
    | _, _ =>
      .error (.overflow (.operation (.number (.integer a)) op (.number (.integer b))))

def double? (op : Arithmetic) (x y : Double) : Option Double :=
  match op with
  | add => x.add? y
  | subtract => x.sub? y
  | multiply => x.mul? y
  | divide => x.div? y
  | modulo => x.rem? y

def onDoubles (op : Arithmetic) (x y : Double) : Except RunError Value :=
  if (op = divide ∨ op = modulo) ∧ y.isZero then .error .divisionByZero
  else
    match op.double? x y with
    | some z => .ok (.float z)
    | none => .error (.overflow (.operation (.number (.float x)) op (.number (.float y))))

def decimal? (op : Arithmetic) (a b : Decimal) : Option Decimal :=
  match op with
  | add => a.add? b
  | subtract => a.sub? b
  | multiply => a.mul? b
  | divide => a.div? b
  | modulo => some (a.rem b)

/-- A decimal as a value: an integer where it denotes one that fits, otherwise a
double. -/
def decimalValue? (d : Decimal) : Option Value :=
  match d.integer?.bind boundedInteger? with
  | some n => some (.integer n)
  | none => d.toDouble?.map .float

def onDecimals (op : Arithmetic) (a b : Decimal) : Except RunError Value :=
  if (op = divide ∨ op = modulo) ∧ b.isZero then .error .divisionByZero
  else
    match (op.decimal? a b).bind decimalValue? with
    | some value => .ok value
    | none => .error (.overflow (.operation (.decimal a) op (.decimal b)))

def onNumbers (op : Arithmetic) : Number → Number → Except RunError Value
  | .integer a, .integer b => op.onIntegers a b
  | .float x, .float y => op.onDoubles x y
  | .integer a, .float y =>
    match Decimal.rounded? y with
    | some decimal => op.onDecimals (Decimal.ofInt a.toInt) decimal
    | none => op.onDoubles (Double.ofInt a.toInt) y
  | .float x, .integer b =>
    match Decimal.rounded? x with
    | some decimal => op.onDecimals decimal (Decimal.ofInt b.toInt)
    | none => op.onDoubles x (Double.ofInt b.toInt)

/-- The result of an operator. Addition with a text joins texts. -/
def apply (op : Arithmetic) : Value → Value → Except RunError Value
  | .number a, .number b => op.onNumbers a b
  | left, right =>
    if op = add ∧ (left.text?.isSome ∨ right.text?.isSome) then
      .ok (.text (left.inText ++ right.inText))
    else .error (.type (.arithmetic op left.kind right.kind))

end Arithmetic

namespace Value

/-- The order of two values: numbers by value, texts by their characters, false before
true. Other pairs have no order. -/
def order : Value → Value → Except RunError Ordering
  | number a, number b => .ok (a.order b)
  | text a, text b => .ok (compare a b)
  | boolean a, boolean b => .ok (compare a.toNat b.toNat)
  | a, b => .error (.type (.comparison a.kind b.kind))

/-- Equality as scripts see it: numbers by value, all else by structure. -/
def equals : Value → Value → Bool
  | number a, number b => a.order b == .eq
  | a, b => a.same b

end Value

namespace Relation

/-- Whether an order of the operands satisfies the relation. -/
def holdsFor (relation : Relation) (order : Ordering) : Bool :=
  match relation with
  | equal => order == .eq
  | notEqual => order != .eq
  | less => order == .lt
  | greater => order == .gt
  | lessEqual => order != .gt
  | greaterEqual => order != .lt

def apply (relation : Relation) (a b : Value) : Except RunError Bool :=
  match relation with
  | equal => .ok (a.equals b)
  | notEqual => .ok (!a.equals b)
  | _ => (a.order b).map relation.holdsFor

end Relation

/-- The value with the other sign. -/
def Value.negated : Value → Except RunError Value
  | .integer n =>
    match boundedInteger? (-n.toInt) with
    | some m => .ok (.integer m)
    | none => .error (.overflow (.negation n))
  | .float x => .ok (.float x.neg)
  | value => .error (.type (.negation value.kind))

def Number.absolute : Number → Except RunError Value
  | .integer n =>
    match boundedInteger? n.toInt.natAbs with
    | some m => .ok (.integer m)
    | none => .error (.overflow (.absolute n))
  | .float x => .ok (.float x.abs)

end Pipeline
