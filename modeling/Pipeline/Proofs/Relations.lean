import Pipeline.Proofs.Columns
import Pipeline.Proofs.SortedSets

/-! The operators that compare, as one system. Between two numbers, two texts or two booleans each
of them says something else about one order, in which equality has its place; between all other
values there is no order, and equality alone has an answer. -/

set_option autoImplicit false

namespace Pipeline

namespace Relation

/-- The relation that holds exactly where this one does not. -/
def negation : Relation → Relation
  | equal => notEqual
  | notEqual => equal
  | less => greaterEqual
  | greater => lessEqual
  | lessEqual => greater
  | greaterEqual => less

/-- The relation that says the same with its operands exchanged. -/
def converse : Relation → Relation
  | equal => equal
  | notEqual => notEqual
  | less => greater
  | greater => less
  | lessEqual => greaterEqual
  | greaterEqual => lessEqual

/-- Whether the relation needs an order. -/
def isOrdering : Relation → Bool
  | less | greater | lessEqual | greaterEqual => true
  | equal | notEqual => false

theorem holdsFor_negation (relation : Relation) (order : Ordering) :
    relation.negation.holdsFor order = !relation.holdsFor order := by
  cases relation <;> cases order <;> rfl

theorem holdsFor_converse (relation : Relation) (order : Ordering) :
    relation.converse.holdsFor order.swap = relation.holdsFor order := by
  cases relation <;> cases order <;> rfl

theorem existsUnique_holdsFor (order : Ordering) :
    ∃! relation, relation ∈ [less, equal, greater] ∧ relation.holdsFor order = true := by
  cases order with
  | lt =>
      refine ⟨less, by decide, fun relation holds => ?_⟩
      cases relation <;> first | rfl | exact absurd holds (by decide)
  | eq =>
      refine ⟨equal, by decide, fun relation holds => ?_⟩
      cases relation <;> first | rfl | exact absurd holds (by decide)
  | gt =>
      refine ⟨greater, by decide, fun relation holds => ?_⟩
      cases relation <;> first | rfl | exact absurd holds (by decide)

end Relation

namespace Value

variable {a b : Value}

/-- Values in an order are equal where the order says so. -/
theorem Comparable.exists_order (comparable : a.Comparable b) :
    ∃ order, a.order b = .ok order ∧ a.equals b = (order == .eq) := by
  cases comparable with
  | numbers m n => exact ⟨m.order n, rfl, rfl⟩
  | texts s t =>
      have same : s = t ↔ compare s t = .eq := Std.LawfulEqOrd.compare_eq_iff_eq.symm
      exact ⟨compare s t, rfl, Bool.eq_iff_iff.2 (beq_iff_eq.trans (same.trans beq_iff_eq.symm))⟩
  | booleans p q => exact ⟨compare p.toNat q.toNat, rfl, by cases p <;> cases q <;> rfl⟩

theorem order_of_not_comparable (apart : ¬a.Comparable b) :
    a.order b = .error (.type (.comparison a.kind b.kind)) := by
  unfold Value.order
  split
  · exact absurd (.numbers _ _) apart
  · exact absurd (.texts _ _) apart
  · exact absurd (.booleans _ _) apart
  · rfl

end Value

theorem Relation.apply_of_order {a b : Value} {order : Ordering} (ordered : a.order b = .ok order)
    (equal : a.equals b = (order == .eq)) (relation : Relation) :
    relation.apply a b = .ok (relation.holdsFor order) := by
  cases relation with
  | equal => exact congrArg Except.ok equal
  | notEqual => exact congrArg (fun same => Except.ok !same) equal
  | less | greater | lessEqual | greaterEqual => simp only [apply, ordered, Except.map]

theorem Expr.eval_relation {cap : Nat} {parameter : String} {element a b : Value}
    {left right : Expr} (first : left.eval cap parameter element = .ok a)
    (second : right.eval cap parameter element = .ok b) (relation : Relation) :
    (Expr.binary (.relation relation) left right).eval cap parameter element =
      (relation.apply a b).map .boolean := by
  rw [Expr.eval, first, second]
  rfl

/-- Of two numbers, two texts or two booleans exactly one of less, equal and greater holds, every
relation has its negation, and exchanging the operands turns it into its converse. Other values are
in no order, and still they are either equal or not. -/
theorem Expr.relations_coherent {cap : Nat} {parameter : String} {element a b : Value}
    {left right : Expr} (first : left.eval cap parameter element = .ok a)
    (second : right.eval cap parameter element = .ok b) :
    let relate (relation : Relation) :=
      (Expr.binary (.relation relation) left right).eval cap parameter element
    let exchanged (relation : Relation) :=
      (Expr.binary (.relation relation) right left).eval cap parameter element
    (a.Comparable b →
        (∃! relation, relation ∈ [.less, .equal, .greater] ∧
          relate relation = .ok (.boolean true)) ∧
        ∀ relation, ∃ holds, relate relation = .ok (.boolean holds) ∧
          relate relation.negation = .ok (.boolean !holds) ∧
          exchanged relation.converse = .ok (.boolean holds)) ∧
      (¬a.Comparable b →
        (∀ relation, relation.isOrdering = true →
          relate relation = .error (.type (.comparison a.kind b.kind))) ∧
        ∃ held, relate .equal = .ok (.boolean held) ∧
          relate .notEqual = .ok (.boolean !held)) := by
  intro relate exchanged
  have related : ∀ relation, relate relation = (relation.apply a b).map .boolean :=
    Expr.eval_relation first second
  have turned : ∀ relation, exchanged relation = (relation.apply b a).map .boolean :=
    Expr.eval_relation second first
  refine ⟨fun comparable => ?_, fun apart => ⟨fun relation ordering => ?_, ?_⟩⟩
  · obtain ⟨order, ordered, equal⟩ := comparable.exists_order
    have forth : ∀ relation, relate relation = .ok (.boolean (relation.holdsFor order)) := by
      intro relation
      rw [related, relation.apply_of_order ordered equal]
      rfl
    have back : ∀ relation, exchanged relation = .ok (.boolean (relation.holdsFor order.swap)) := by
      intro relation
      have reversed := Value.order_swap ordered
      obtain ⟨swapped, again, equal⟩ := (Value.Comparable.of_order reversed).exists_order
      cases reversed.symm.trans again
      rw [turned, relation.apply_of_order reversed equal]
      rfl
    constructor
    · simpa [forth] using Relation.existsUnique_holdsFor order
    · intro relation
      refine ⟨_, forth relation, ?_, ?_⟩
      · rw [forth, Relation.holdsFor_negation]
      · rw [back, Relation.holdsFor_converse]
  · rw [related]
    cases relation with
    | equal | notEqual => cases ordering
    | less | greater | lessEqual | greaterEqual =>
        simp only [Relation.apply, Value.order_of_not_comparable apart, Except.map]
  · exact ⟨a.equals b, related .equal, related .notEqual⟩

/-- A double beside the integer behind it, and beside a text. -/
theorem Expr.relations_coherent_adjacent :
    let x : Value := .float (.ofDecimal false 9007199254740992 0)
    let n : Value := .integer 9007199254740993
    let relate (relation : Relation) (right : Scalar) :=
      (Expr.binary (.relation relation) (.reference "x") (.literal right)).eval 10 "x" x
    (x.Comparable n ∧ ∃! relation, relation ∈ [.less, .equal, .greater] ∧
        relate relation (.number (.integer 9007199254740993)) = .ok (.boolean true)) ∧
      ¬x.Comparable (.text "a") ∧
      (∀ relation, relation.isOrdering = true →
        relate relation (.text "a") = .error (.type (.comparison .float .text))) ∧
      ∃ held, relate .equal (.text "a") = .ok (.boolean held) ∧
        relate .notEqual (.text "a") = .ok (.boolean !held) := by
  intro x n relate
  have reference : (Expr.reference "x").eval 10 "x" x = .ok x := if_pos rfl
  have comparable : x.Comparable n := .numbers _ _
  have apart : ¬x.Comparable (.text "a") := by
    intro (kinds : (Value.float _).Comparable _)
    cases kinds
  have numbers := (Expr.relations_coherent reference
    (rfl : (Expr.literal (.number (.integer 9007199254740993))).eval 10 "x" x = .ok n)).1 comparable
  have others := (Expr.relations_coherent reference
    (rfl : (Expr.literal (.text "a")).eval 10 "x" x = .ok (.text "a"))).2 apart
  exact ⟨⟨comparable, numbers.1⟩, apart, others⟩

end Pipeline
