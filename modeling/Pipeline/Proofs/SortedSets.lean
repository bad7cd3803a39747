import Mathlib.Data.List.Sort
import Mathlib.Data.Set.List
import Pipeline.Proofs.NumberOrder
import Pipeline.Proofs.Repeats
import Pipeline.Proofs.SortingStages

/-! The distinct elements in their order. Among integers, among texts and among booleans the order
tells any two different elements apart, so the members of an input have one strictly increasing
list, which is what they are collected to, whether repeats are removed before or after sorting. -/

set_option autoImplicit false

namespace Pipeline

open Std

namespace Value

/-- Whether all values are integers, or all texts, or all booleans. -/
inductive OfOneKind (values : List Value) : Prop
  | integers : (∀ value ∈ values, ∃ n, .integer n = value) → OfOneKind values
  | texts : (∀ value ∈ values, ∃ s, .text s = value) → OfOneKind values
  | booleans : (∀ value ∈ values, ∃ b, .boolean b = value) → OfOneKind values

theorem OfOneKind.of_mem_iff {values others : List Value} (kind : OfOneKind values)
    (same : ∀ value, value ∈ others ↔ value ∈ values) : OfOneKind others := by
  cases kind with
  | integers each => exact .integers fun value member => each value ((same value).1 member)
  | texts each => exact .texts fun value member => each value ((same value).1 member)
  | booleans each => exact .booleans fun value member => each value ((same value).1 member)

/-- Every value is less than all those behind it. -/
def Increasing (values : List Value) : Prop :=
  values.Pairwise fun a b => a.order b = .ok .lt

theorem order_swap {a b : Value} {order : Ordering} (ordered : a.order b = .ok order) :
    b.order a = .ok order.swap := by
  fun_cases Value.order a b with
  | case1 m n =>
      cases ordered
      exact congrArg Except.ok (Number.order_swap m n)
  | case2 s t =>
      cases ordered
      exact congrArg Except.ok OrientedOrd.eq_swap
  | case3 p q =>
      cases ordered
      exact congrArg Except.ok OrientedOrd.eq_swap
  | case4 noNumbers noTexts noBooleans =>
      rw [Value.order] at ordered
      · cases ordered
      all_goals assumption

theorem not_order_lt_of_order_lt {a b : Value} (less : a.order b = .ok .lt) :
    b.order a ≠ .ok .lt := by
  rw [order_swap less]
  decide

/-- The members of an increasing list determine it. -/
theorem Increasing.eq_of_mem_iff {as bs : List Value} (first : Increasing as)
    (second : Increasing bs) (same : ∀ value, value ∈ as ↔ value ∈ bs) : as = bs := by
  have irrefl : Std.Irrefl fun a b : Value => a.order b = .ok .lt :=
    ⟨fun a less => not_order_lt_of_order_lt less less⟩
  have antisymm : Std.Antisymm fun a b : Value => a.order b = .ok .lt :=
    ⟨fun a b less greater => absurd greater (not_order_lt_of_order_lt less)⟩
  exact List.Pairwise.eq_of_mem_iff first second same

/-! ## Kinds whose order tells all values apart -/

/-- A kind of values, each with a rank of its own by which they are ordered, and none equal to any
other value. -/
structure Ranked {β ρ : Type} [Ord ρ] (kind : β → Value) (rank : β → ρ) : Prop where
  order (a b : β) : (kind a).order (kind b) = .ok (compare (rank a) (rank b))
  injective : Function.Injective rank
  same (b : β) (a : Value) : a.same (kind b) = true ↔ a = kind b

theorem ranked_integer : Ranked integer Int64.toInt where
  order _ _ := rfl
  injective _ _ := Int64.toInt_inj.1
  same n a := by
    rcases a with ⟨⟨m | x⟩ | s | b⟩ | items | entries | r
    all_goals simp [Value.same, Scalar.same, Number.same]

theorem ranked_text : Ranked text id where
  order _ _ := rfl
  injective := Function.injective_id
  same s a := by
    rcases a with ⟨⟨m | x⟩ | s | b⟩ | items | entries | r
    all_goals simp [Value.same, Scalar.same]

theorem ranked_boolean : Ranked boolean Bool.toNat where
  order _ _ := rfl
  injective p q same := by cases p <;> cases q <;> first | rfl | cases same
  same p a := by
    rcases a with ⟨⟨m | x⟩ | s | b⟩ | items | entries | r
    all_goals simp [Value.same, Scalar.same]

section Ranked

variable {β ρ : Type} [Ord ρ] {kind : β → Value} {rank : β → ρ} {input : List Value}

/-- The values of the kind that stand in a list. -/
theorem exists_map_eq (each : ∀ value ∈ input, ∃ x, kind x = value) :
    ∃ xs : List β, xs.map kind = input := by
  have within : input ∈ Set.range (List.map kind) := by
    rw [Set.range_list_map]
    exact each
  exact within

variable (ranked : Ranked kind rank) (cap : Nat)
include ranked

theorem Ranked.exact {value : Value} (of : ∃ x, kind x = value) (a : Value) :
    a.same value = true ↔ a = value := by
  obtain ⟨x, rfl⟩ := of
  exact ranked.same x a

theorem Ranked.increasing [LawfulEqOrd ρ] {xs : List β} (nodup : (xs.map kind).Nodup)
    (sorted : xs.Pairwise fun a b => compare (rank a) (rank b) ≠ .gt) :
    Increasing (xs.map kind) := by
  refine List.pairwise_map.2 ((sorted.and (List.pairwise_map.1 nodup)).imp ?_)
  intro a b ⟨atMost, different⟩
  have apart : compare (rank a) (rank b) ≠ .eq := fun equal =>
    different (congrArg kind (ranked.injective (LawfulEqOrd.eq_of_compare equal)))
  rw [ranked.order]
  cases order : compare (rank a) (rank b) with
  | lt => rfl
  | eq => exact absurd order apart
  | gt => exact absurd order atMost

theorem Ranked.sort [TransOrd ρ] (xs : List β) : ∃ sorted : List β,
    Comparator.natural.sort cap (xs.map kind) = .ok (sorted.map kind) ∧ sorted.Perm xs ∧
      sorted.Pairwise fun a b => compare (rank a) (rank b) ≠ .gt := by
  let less (a b : β) : Bool := compare (rank a) (rank b) == .lt
  have orders : Orders less fun _ => True := by
    constructor
    · intro a b _ _ below
      rw [beq_iff_eq] at below
      simp [less, OrientedOrd.eq_swap (a := rank b), below]
    · intro a b c _ _ _ first second
      simp only [less, beq_eq_false_iff_ne, ← Ordering.isGE_iff_ne_lt] at first second ⊢
      exact TransOrd.isGE_trans first second
  refine ⟨sortStable less xs, Comparator.natural_sort ranked.order cap xs, sortStable_perm less xs,
    (sortStable_pairwise orders fun _ _ => trivial).imp fun {a b} notLess greater => ?_⟩
  rw [OrientedOrd.eq_swap, Ordering.swap_eq_gt] at greater
  simp [less, greater] at notLess

variable [TransOrd ρ] [LawfulEqOrd ρ] (hash : List Mark → UInt64)
  (each : ∀ value ∈ input, ∃ x, kind x = value)
include each

/-- Without repeats first and then sorted. -/
theorem Ranked.sort_distinctBy : ∃ members : List Value,
      Comparator.natural.sort cap (distinctBy hash input) = .ok members ∧ Increasing members ∧
        ∀ value, value ∈ members ↔ value ∈ input := by
  obtain ⟨members, nodup⟩ := mem_keepNew (fun value member => ranked.exact (each value member)) []
  rw [← distinctBy_eq hash] at members nodup
  obtain ⟨xs, same⟩ := exists_map_eq fun value member => each value ((members value).1 member).1
  obtain ⟨sorted, done, perm, ordered⟩ := ranked.sort cap xs
  have perm := perm.map kind
  rw [same] at done perm
  refine ⟨_, done, ranked.increasing (perm.nodup_iff.2 nodup) ordered, fun value => ?_⟩
  rw [perm.mem_iff, members]
  simp

/-- Sorted first and then without repeats. -/
theorem Ranked.distinctBy_sort : ∃ sorted : List Value,
    Comparator.natural.sort cap input = .ok sorted ∧ sorted.Perm input ∧
      Increasing (distinctBy hash sorted) ∧
        ∀ value, value ∈ distinctBy hash sorted ↔ value ∈ input := by
  obtain ⟨xs, rfl⟩ := exists_map_eq each
  obtain ⟨sorted, done, perm, ordered⟩ := ranked.sort cap xs
  have perm := perm.map kind
  have exact : ∀ value ∈ sorted.map kind, ∀ a : Value, a.same value = true ↔ a = value :=
    fun value member => ranked.exact (each value (perm.mem_iff.1 member))
  obtain ⟨members, nodup⟩ := mem_keepNew exact []
  rw [← distinctBy_eq hash] at members nodup
  refine ⟨_, done, perm, ?_, fun value => ?_⟩
  · obtain ⟨kept, sublist, same⟩ :=
      List.sublist_map_iff.1 (distinctBy_sublist hash (sorted.map kind))
    rw [same] at nodup ⊢
    exact ranked.increasing nodup (ordered.sublist sublist)
  · rw [members, perm.mem_iff]
    simp

end Ranked

end Value

/-! ## What chains put out -/

namespace Chain

open Value

variable {cap : Nat} {input : List Value}

theorem run_toSet (within : input.length ≤ cap) :
    Chain.run cap .never [.collect .toSet] input =
      (Comparator.natural.sort cap (distinctBy Mark.hashAll input)).map .list := by
  simp only [Chain.run, through, Flow.apply, Stage.onSequence, Sequence.collect,
    Sequence.materialize_ofList within, bind, Except.bind]
  cases Comparator.natural.sort cap (distinctBy Mark.hashAll input) <;> rfl

theorem run_sorted_distinct (within : input.length ≤ cap) {sorted : List Value}
    (done : Comparator.natural.sort cap input = .ok sorted) :
    Chain.run cap .never [.sorted none, .distinct] input =
      .ok (.list (distinctBy Mark.hashAll sorted)) := by
  have length : sorted.length ≤ cap := (Comparator.sort_perm done).length_eq.trans_le within
  have distinct := run_distinct length
  simp only [Chain.run, through, Flow.apply, Stage.onSequence, Sequence.materialize_ofList within,
    Option.getD_none, done, bind, Except.bind] at distinct ⊢
  exact distinct

section Ranked

variable {β ρ : Type} [Ord ρ] [TransOrd ρ] [LawfulEqOrd ρ] {kind : β → Value} {rank : β → ρ}

theorem exists_run_toSet (ranked : Ranked kind rank) (each : ∀ value ∈ input, ∃ x, kind x = value)
    (within : input.length ≤ cap) : ∃ members : List Value,
      Chain.run cap .never [.collect .toSet] input = .ok (.list members) ∧
        Increasing members ∧ (∀ value, value ∈ members ↔ value ∈ input) ∧
        Chain.run cap .never [.sorted none, .distinct] input = .ok (.list members) := by
  obtain ⟨members, collected, increasing, same⟩ := ranked.sort_distinctBy cap Mark.hashAll each
  obtain ⟨sorted, done, -, ascends, also⟩ := ranked.distinctBy_sort cap Mark.hashAll each
  have equal : distinctBy Mark.hashAll sorted = members :=
    ascends.eq_of_mem_iff increasing fun value => (also value).trans (same value).symm
  refine ⟨members, ?_, increasing, same, ?_⟩
  · rw [run_toSet within, collected]
    rfl
  · rw [run_sorted_distinct within done, equal]

end Ranked

theorem exists_run_toSet_of_oneKind (kind : OfOneKind input) (within : input.length ≤ cap) :
    ∃ members : List Value,
      Chain.run cap .never [.collect .toSet] input = .ok (.list members) ∧
        Increasing members ∧ (∀ value, value ∈ members ↔ value ∈ input) ∧
        Chain.run cap .never [.sorted none, .distinct] input = .ok (.list members) := by
  cases kind with
  | integers each => exact exists_run_toSet ranked_integer each within
  | texts each => exact exists_run_toSet ranked_text each within
  | booleans each => exact exists_run_toSet ranked_boolean each within

/-- An input of integers, of texts or of booleans is collected to the strictly increasing list of
its members, as is every input with the same members, and this is what is left without repeats
behind sorting. -/
theorem run_toSet_canonical (kind : OfOneKind input) (within : input.length ≤ cap) :
    ∃ members : List Value,
      Chain.run cap .never [.collect .toSet] input = .ok (.list members) ∧
        Increasing members ∧ (∀ value, value ∈ members ↔ value ∈ input) ∧
        (∀ others : List Value, others.length ≤ cap →
          (∀ value, value ∈ others ↔ value ∈ input) →
            Chain.run cap .never [.collect .toSet] others = .ok (.list members)) ∧
        Chain.run cap .never [.sorted none, .distinct] input = .ok (.list members) := by
  obtain ⟨members, collected, increasing, same, sorted⟩ := exists_run_toSet_of_oneKind kind within
  refine ⟨members, collected, increasing, same, fun others fits alike => ?_, sorted⟩
  obtain ⟨found, done, ascends, members', -⟩ :=
    exists_run_toSet_of_oneKind (kind.of_mem_iff alike) fits
  rw [done, ascends.eq_of_mem_iff increasing fun value =>
    (members' value).trans ((alike value).trans (same value).symm)]

theorem run_toSet_canonical_words :
    let input : List Value := [.text "b", .text "ab", .text "b", .text "", .text "a"]
    let others : List Value := [.text "a", .text "", .text "ab", .text "b"]
    let members : List Value := [.text "", .text "a", .text "ab", .text "b"]
    OfOneKind input ∧ input.length ≤ 5 ∧
      Chain.run 5 .never [.collect .toSet] input = .ok (.list members) ∧
      (∀ value, value ∈ others ↔ value ∈ input) ∧
      Chain.run 5 .never [.collect .toSet] others = .ok (.list members) ∧
      Chain.run 5 .never [.sorted none, .distinct] input = .ok (.list members) := by
  intro input others members
  have kind : OfOneKind input := .texts (by simp [input])
  have within : input.length ≤ 5 := by decide
  have alike : ∀ value, value ∈ others ↔ value ∈ input := by
    simp only [input, others, List.mem_cons, List.not_mem_nil, or_false]
    tauto
  have listed : ∀ value, value ∈ input ↔ value ∈ members := by
    simp only [input, members, List.mem_cons, List.not_mem_nil, or_false]
    tauto
  have ascending : Increasing members := by
    simp only [Increasing, members, Value.order]
    decide
  obtain ⟨found, collected, increasing, same, others, sorted⟩ := run_toSet_canonical kind within
  cases increasing.eq_of_mem_iff ascending fun value => (same value).trans (listed value)
  exact ⟨kind, within, collected, alike, others _ (by decide) alike, sorted⟩

end Chain

end Pipeline
