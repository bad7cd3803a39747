import Pipeline.Proofs.ExactComparison

/-! Membership beside equality. A list contains what has the structure of one of its members, and
structure keeps integers and doubles apart; equality looks at two numbers through their order. The
two are one everywhere but between numbers, where they part in either direction. -/

set_option autoImplicit false

namespace Pipeline

namespace Number

/-- Whether comparisons find an integer and a double at one place: they denote the same, or the
integer is zero and the double is lost beside it. -/
def Level (n : Int64) (x : Double) : Prop :=
  x.isFinite = true ∧ ((n.toInt : ℚ) = x.toRat ∨ n = 0 ∧ x.IsLost)

theorem isFinite_of_mixed_eq {n : Int64} {x : Double} (equal : order.mixed n x = .eq) :
    x.isFinite = true := by
  by_contra infinite
  have unread : Decimal.retained? x = none := if_neg infinite
  rw [order.mixed, unread] at equal
  have same : Double.ofInt n.toInt = x := Double.eq_of_place_eq (compare_eq_iff_eq.1 equal)
  have reached : 2 ^ 63 < Double.overflow :=
    lt_of_lt_of_le (by decide) (Double.two_pow_le_halfBeyond (by decide : 64 ≤ 53 + 970))
  exact infinite (same ▸ Double.isFinite_ofInt ((natAbs_toInt_le n).trans_lt reached))

theorem mixed_eq_iff_level {n : Int64} {x : Double} : order.mixed n x = .eq ↔ Level n x := by
  constructor
  · intro equal
    have finite := isFinite_of_mixed_eq equal
    exact ⟨finite, (mixed_eq_eq_iff n finite).1 equal⟩
  · intro ⟨finite, near⟩
    exact (mixed_eq_eq_iff n finite).2 near

end Number

namespace Value

/-- Values that are equal without being the same: an integer and a double at one place, and a double
that is no number beside itself. -/
inductive EqualApart : Value → Value → Prop
  | integer {n : Int64} {x : Double} : Number.Level n x → EqualApart (.integer n) (.float x)
  | float {n : Int64} {x : Double} : Number.Level n x → EqualApart (.float x) (.integer n)
  | noNumber {x : Double} : x.isNaN = true → EqualApart (.float x) (.float x)

/-- Values that are the same without being equal: the two zeros. -/
inductive SameApart : Value → Value → Prop
  | zeros {x y : Double} : x ≠ y → x.isZero = true → y.isZero = true →
      SameApart (.float x) (.float y)

section Pairs

variable {a b : Value}

theorem EqualApart.equals_and_not_same (apart : a.EqualApart b) :
    a.equals b = true ∧ a.same b = false := by
  cases apart with
  | integer level => exact ⟨beq_iff_eq.2 (Number.mixed_eq_iff_level.2 level), rfl⟩
  | float level =>
      refine ⟨beq_iff_eq.2 ?_, rfl⟩
      rw [Number.order, Number.mixed_eq_iff_level.2 level]
      rfl
  | @noNumber x nan =>
      have different : x.numericEq x = false := by simp [Double.numericEq, nan]
      exact ⟨beq_iff_eq.2 (Number.order_self _), different⟩

theorem SameApart.same_and_not_equals (apart : a.SameApart b) :
    a.same b = true ∧ a.equals b = false := by
  obtain @⟨x, y, different, zeroX, zeroY⟩ := apart
  have zero : ∀ {z : Double}, z.isZero = true → z.isNaN = false := by
    intro z zero
    rw [Double.isNaN, beq_iff_eq.1 zero]
    rfl
  have same : x.numericEq y = true := by
    simp [Double.numericEq, zero zeroX, zero zeroY, zeroX, zeroY]
  refine ⟨same, beq_eq_false_iff_ne.2 fun equal => different ?_⟩
  exact Double.eq_of_place_eq (compare_eq_iff_eq.1 equal)

/-- Values that are not apart are equal if they are the same, and only then. -/
theorem equals_eq_same (noEqual : ¬a.EqualApart b) (noSame : ¬a.SameApart b) :
    a.equals b = a.same b := by
  fun_cases Value.equals a b with
  | case1 m n =>
      rw [Bool.eq_iff_iff, beq_iff_eq]
      cases m with
      | integer m =>
          cases n with
          | integer n =>
              change compare m.toInt n.toInt = .eq ↔ (m == n) = true
              rw [compare_eq_iff_eq, Int64.toInt_inj, beq_iff_eq]
          | float y =>
              refine iff_of_false (fun equal => noEqual (.integer ?_)) Bool.false_ne_true
              exact Number.mixed_eq_iff_level.1 equal
      | float x =>
          cases n with
          | integer n =>
              refine iff_of_false (fun equal => noEqual (.float ?_)) Bool.false_ne_true
              rw [Number.order, Ordering.swap_eq_eq] at equal
              exact Number.mixed_eq_iff_level.1 equal
          | float y =>
              change x.totalCompare y = .eq ↔ x.numericEq y = true
              constructor
              · intro equal
                obtain rfl := Double.eq_of_place_eq (compare_eq_iff_eq.1 equal)
                have number : x.isNaN = false :=
                  Bool.eq_false_iff.2 fun nan => noEqual (.noNumber nan)
                simp [Double.numericEq, number]
              · intro same
                simp only [Double.numericEq, Bool.and_eq_true, Bool.or_eq_true, beq_iff_eq] at same
                rcases same.2 with rfl | ⟨zeroX, zeroY⟩
                · exact Number.order_self (.float x)
                · by_contra different
                  refine noSame (.zeros ?_ zeroX zeroY)
                  rintro rfl
                  exact different (Number.order_self (.float x))
  | case2 noNumbers => rfl

theorem equalApart_iff : a.EqualApart b ↔ a.equals b = true ∧ a.same b = false := by
  refine ⟨EqualApart.equals_and_not_same, fun ⟨equal, different⟩ => ?_⟩
  by_contra noEqual
  have noSame : ¬a.SameApart b := fun apart =>
    Bool.false_ne_true (different.symm.trans apart.same_and_not_equals.1)
  rw [equals_eq_same noEqual noSame, different] at equal
  cases equal

theorem sameApart_iff : a.SameApart b ↔ a.same b = true ∧ a.equals b = false := by
  refine ⟨SameApart.same_and_not_equals, fun ⟨same, different⟩ => ?_⟩
  by_contra noSame
  have noEqual : ¬a.EqualApart b := fun apart =>
    Bool.false_ne_true (different.symm.trans apart.equals_and_not_same.1)
  rw [← equals_eq_same noEqual noSame, different] at same
  cases same

end Pairs

/-! ## Lists -/

/-- A member is equal to the value only apart from it, and no member is the same. -/
def Missed (value : Value) (items : List Value) : Prop :=
  (∃ item ∈ items, item.EqualApart value) ∧ ∀ item ∈ items, item.same value = false

/-- A member is the same as the value only apart from it, and no member is equal. -/
def Mistaken (value : Value) (items : List Value) : Prop :=
  (∃ item ∈ items, item.SameApart value) ∧ ∀ item ∈ items, item.equals value = false

section Lists

variable {value : Value} {items : List Value}

theorem missed_iff : value.Missed items ↔
    items.any (·.same value) = false ∧ ∃ item ∈ items, item.equals value = true := by
  simp only [List.any_eq_false, Bool.not_eq_true]
  constructor
  · rintro ⟨⟨item, member, apart⟩, none⟩
    exact ⟨none, item, member, apart.equals_and_not_same.1⟩
  · rintro ⟨none, item, member, equal⟩
    exact ⟨⟨item, member, equalApart_iff.2 ⟨equal, none item member⟩⟩, none⟩

theorem mistaken_iff : value.Mistaken items ↔
    items.any (·.same value) = true ∧ ∀ item ∈ items, item.equals value = false := by
  rw [List.any_eq_true]
  constructor
  · rintro ⟨⟨item, member, apart⟩, none⟩
    exact ⟨⟨item, member, apart.same_and_not_equals.1⟩, none⟩
  · rintro ⟨⟨item, member, same⟩, none⟩
    exact ⟨⟨item, member, sameApart_iff.2 ⟨same, none item member⟩⟩, none⟩

end Lists

end Value

theorem Expr.eval_contains {cap : Nat} {parameter : String} {element value : Value}
    {items : List Value} {list needle : Expr}
    (first : list.eval cap parameter element = .ok (.list items))
    (second : needle.eval cap parameter element = .ok value) :
    (Expr.method list "contains" [needle]).eval cap parameter element =
      .ok (.boolean (items.any (·.same value))) := by
  rw [Expr.eval, Expr.evalAll, Expr.evalAll, first, second]
  rfl

/-- A list contains a value exactly if a script finds one of its members equal to the value, unless
the only equals are numbers of the other kind, which are missed, or the only member that is found is
the other zero, which is no equal. -/
theorem Expr.contains_agrees_iff {cap : Nat} {parameter : String} {element value : Value}
    {items : List Value} {list needle : Expr}
    (first : list.eval cap parameter element = .ok (.list items))
    (second : needle.eval cap parameter element = .ok value) :
    ∃ held, (Expr.method list "contains" [needle]).eval cap parameter element =
        .ok (.boolean held) ∧
      ((held = true ↔ ∃ item ∈ items, Relation.equal.apply item value = .ok true) ↔
        ¬(value.Missed items ∨ value.Mistaken items)) ∧
      (value.Missed items →
        held = false ∧ ∃ item ∈ items, Relation.equal.apply item value = .ok true) ∧
      (value.Mistaken items →
        held = true ∧ ∀ item ∈ items, Relation.equal.apply item value = .ok false) := by
  refine ⟨_, Expr.eval_contains first second, ?_⟩
  simp only [Relation.apply, Except.ok.injEq]
  refine ⟨?_, Value.missed_iff.1, Value.mistaken_iff.1⟩
  rw [Value.missed_iff, Value.mistaken_iff]
  have none : (∀ item ∈ items, item.equals value = false) ↔
      ¬∃ item ∈ items, item.equals value = true := by simp
  rw [none]
  generalize (∃ item ∈ items, item.equals value = true) = equal
  cases items.any (·.same value) <;> simp

/-- The integer two among those from one to three. -/
theorem Expr.contains_agrees_iff_two :
    let list : Expr :=
      .call "range" [.literal (.number (.integer 1)), .literal (.number (.integer 4))]
    let needle : Expr := .reference "x"
    (list.eval 10 "x" (.integer 2) = .ok (.list [.integer 1, .integer 2, .integer 3]) ∧
        needle.eval 10 "x" (.integer 2) = .ok (.integer 2)) ∧
      ¬((Value.integer 2).Missed [.integer 1, .integer 2, .integer 3] ∨
        (Value.integer 2).Mistaken [.integer 1, .integer 2, .integer 3]) ∧
      ∃ held, (Expr.method list "contains" [needle]).eval 10 "x" (.integer 2) =
          .ok (.boolean held) ∧
        (held = true ↔ ∃ item ∈ [Value.integer 1, .integer 2, .integer 3],
          Relation.equal.apply item (.integer 2) = .ok true) := by
  intro list needle
  have first : list.eval 10 "x" (.integer 2) = .ok (.list [.integer 1, .integer 2, .integer 3]) :=
    rfl
  have second : needle.eval 10 "x" (.integer 2) = .ok (.integer 2) := if_pos rfl
  have together : ¬((Value.integer 2).Missed [.integer 1, .integer 2, .integer 3] ∨
      (Value.integer 2).Mistaken [.integer 1, .integer 2, .integer 3]) := by
    rintro (⟨-, none⟩ | ⟨-, none⟩)
    · exact absurd (none (.integer 2) (by simp)) (by decide)
    · exact absurd (none (.integer 2) (by simp)) (by decide)
  obtain ⟨held, contained, agrees, -⟩ := Expr.contains_agrees_iff first second
  exact ⟨⟨first, second⟩, together, held, contained, agrees.2 together⟩

/-- The double one is equal to the only member of a list that does not contain it, and the positive
zero is contained in a list of the negative zero, which is not equal to it. -/
theorem Expr.contains_disagrees :
    let one : Value := .float (.ofDecimal false 1 0)
    let list : Expr :=
      .call "range" [.literal (.number (.integer 1)), .literal (.number (.integer 2))]
    let zero : Number := .float (.ofDecimal false 0 0)
    let negativeZero : Number := .float (.ofDecimal true 0 0)
    (list.eval 10 "x" one = .ok (.list [.integer 1]) ∧
        (Expr.method list "contains" [.reference "x"]).eval 10 "x" one = .ok (.boolean false) ∧
        (Expr.binary (.relation .equal) (.literal (.number (.integer 1))) (.reference "x")).eval
          10 "x" one = .ok (.boolean true)) ∧
      (Expr.method (.reference "x") "contains" [.literal (.number zero)]).eval 10 "x"
          (.list [.number negativeZero]) = .ok (.boolean true) ∧
      (Expr.binary (.relation .equal) (.reference "x") (.literal (.number zero))).eval
        10 "x" (.number negativeZero) = .ok (.boolean false) := by
  intro one list zero negativeZero
  have level : Number.order (.integer 1) (.float (.ofDecimal false 1 0)) = .eq := by decide
  have apart : negativeZero.order zero ≠ .eq := by decide
  have same : negativeZero.same zero = true := by decide
  refine ⟨⟨rfl, rfl, ?_⟩, ?_, ?_⟩
  · have evaluated : (Expr.binary (.relation .equal) (.literal (.number (.integer 1)))
        (.reference "x")).eval 10 "x" one =
          .ok (.boolean (Number.order (.integer 1) (.float (.ofDecimal false 1 0)) == .eq)) := rfl
    rw [evaluated, level]
    rfl
  · have held : (Expr.reference "x").eval 10 "x" (.list [.number negativeZero]) =
        .ok (.list [.number negativeZero]) := if_pos rfl
    rw [Expr.eval_contains held rfl]
    simp only [List.any_cons, List.any_nil, Bool.or_false]
    exact congrArg (Except.ok ∘ Value.boolean) same
  · have evaluated : (Expr.binary (.relation .equal) (.reference "x")
        (.literal (.number zero))).eval 10 "x" (.number negativeZero) =
          .ok (.boolean (negativeZero.order zero == .eq)) := rfl
    rw [evaluated, beq_eq_false_iff_ne.2 apart]

end Pipeline
