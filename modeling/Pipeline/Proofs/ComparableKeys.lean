import Pipeline.Proofs.Relations
import Pipeline.Proofs.SortingStages

/-! What is checked before elements are sorted is enough. Values that have an order fall into kinds,
so keys that have one against the first of a column have one against each other, and nothing that
is sorted or chosen afterwards depends on what two keys without an order would count as. -/

set_option autoImplicit false

namespace Pipeline

/-! ## Kinds with an order -/

namespace Value

variable {a b c : Value}

theorem comparable_iff_exists_order : a.Comparable b ↔ ∃ order, a.order b = .ok order :=
  ⟨fun comparable => comparable.exists_order.imp fun _ ordered => ordered.1,
    fun ⟨_, ordered⟩ => .of_order ordered⟩

theorem Comparable.symm (comparable : a.Comparable b) : b.Comparable a := by
  cases comparable with
  | numbers a b => exact .numbers b a
  | texts a b => exact .texts b a
  | booleans a b => exact .booleans b a

theorem Comparable.trans (first : a.Comparable b) (second : b.Comparable c) : a.Comparable c := by
  cases first with
  | numbers a _ =>
      cases second with
      | numbers _ c => exact .numbers a c
  | texts a _ =>
      cases second with
      | texts _ c => exact .texts a c
  | booleans a _ =>
      cases second with
      | booleans _ c => exact .booleans a c

theorem forall₂_comparable {reference as bs : List Value}
    (left : List.Forall₂ Comparable reference as) (right : List.Forall₂ Comparable reference bs) :
    List.Forall₂ Comparable as bs := by
  induction left generalizing bs with
  | nil =>
      cases right
      exact .nil
  | cons first _ ih =>
      obtain ⟨b, rest, other, behind, rfl⟩ := List.forall₂_cons_left_iff.1 right
      exact .cons (first.symm.trans other) (ih behind)

end Value

/-! ## Comparisons that agree on the elements -/

section Congruence

variable {α : Type} {less other : α → α → Bool} {values : List α}

theorem sortStable_congr (same : ∀ a ∈ values, ∀ b ∈ values, less a b = other a b) :
    sortStable less values = sortStable other values := by
  rw [sortStable, sortStable]
  split
  · have sorted := @map_insertionSort α α less other id values
      (List.pairwise_of_forall_mem_list fun a memberA b memberB => same b memberB a memberA)
    rwa [List.map_id, List.map_id] at sorted
  · have sorted := List.map_mergeSort (f := id) (r := fun a b => !less b a)
      (s := fun a b => !other b a) fun a memberA b memberB =>
        congrArg (!·) (same b memberB a memberA)
    rwa [List.map_id, List.map_id] at sorted

theorem foldl_choice_congr {best : α}
    (same : ∀ a ∈ best :: values, ∀ b ∈ best :: values, less a b = other a b) :
    values.foldl (fun best value => if less value best then value else best) best =
      values.foldl (fun best value => if other value best then value else best) best := by
  have chosen := @map_foldl_choice α less α other id best values
    (List.pairwise_of_forall_mem_list fun a memberA b memberB => same b memberB a memberA)
  rwa [List.map_id] at chosen

end Congruence

/-! ## The keys that are checked -/

theorem Direction.turn_eq_eq_iff {direction : Direction} {order : Ordering} :
    direction.turn order = .eq ↔ order = .eq := by
  cases direction with
  | ascending => exact .rfl
  | descending => exact Ordering.swap_eq_eq

/-- What the best of some elements is like against those that do not take its place. -/
def Extreme.wanted : Extreme → Ordering
  | max => .gt
  | min => .lt

namespace Comparator

section Checks

variable {cap : Nat} {comparator : Comparator} {items : List Value} {all : List Keyed}

/-- There is one key for each column, which the column selects. -/
theorem forall₂_of_keysOf {element : Value} {keys : List SortKey} {values : List Value}
    (done : keysOf cap element keys = .ok values) :
    List.Forall₂ (fun key value => key.select cap element = .ok value) keys values := by
  induction keys generalizing values with
  | nil =>
      cases done
      exact .nil
  | cons key rest ih =>
      obtain ⟨value, selected, others, behind, rfl⟩ := keysOf_cons_eq_ok.1 done
      exact .cons selected (ih behind)

/-- The check goes through all columns, if there are as many on both sides. -/
theorem comparable_of_checkColumns {as bs : List Value} {done : Unit}
    (length : as.length = bs.length) (checked : checkColumns as bs = .ok done) :
    List.Forall₂ Value.Comparable as bs := by
  induction as generalizing bs with
  | nil =>
      obtain rfl := List.eq_nil_of_length_eq_zero length.symm
      exact .nil
  | cons a as ih =>
      obtain ⟨b, bs, rfl⟩ := List.exists_cons_of_length_eq_add_one length.symm
      obtain ⟨order, ordered, behind⟩ := checkColumns_cons_eq_ok.1 checked
      exact .cons (.of_order ordered) (ih (Nat.succ.inj length) behind)

theorem length_of_keyed (done : comparator.keyed cap items = .ok all) {keyed : Keyed}
    (member : keyed ∈ all) : comparator.keys.length = keyed.keys.length :=
  (forall₂_of_keysOf (keys_of_keyed done member)).length_eq

theorem comparable_of_keyed (done : comparator.keyed cap items = .ok all) {a b : Keyed}
    (memberA : a ∈ all) (memberB : b ∈ all) :
    List.Forall₂ Value.Comparable a.keys b.keys := by
  have length := @length_of_keyed _ _ _ _ done
  have checked := (keyed_eq_ok done).2
  cases all with
  | nil => exact absurd memberA List.not_mem_nil
  | cons first rest =>
      have against := checkColumns_of_checkAgainst (checked first rest rfl)
      have reference : ∀ keyed ∈ first :: rest,
          List.Forall₂ Value.Comparable first.keys keyed.keys := fun keyed member =>
        comparable_of_checkColumns ((length (.head _)).symm.trans (length member))
          (against keyed member)
      exact Value.forall₂_comparable (reference a memberA) (reference b memberB)

end Checks

/-! ## What keys without an order would count as -/

/-- The order of two lists of keys, if a fallback decides between keys that have none. -/
def compareKeysOr (fallback : Value → Value → Ordering) :
    List SortKey → List Value → List Value → Ordering
  | key :: keys, a :: as, b :: bs =>
    (key.direction.turn ((a.order b).toOption.getD (fallback a b))).then
      (compareKeysOr fallback keys as bs)
  | _, _, _ => .eq

def compareKeyedOr (fallback : Value → Value → Ordering) (comparator : Comparator)
    (a b : Keyed) : Ordering :=
  compareKeysOr fallback comparator.keys a.keys b.keys

/-- The elements sorted by a comparison of them with their keys. -/
def sortBy (compare : Keyed → Keyed → Ordering) (cap : Nat) (comparator : Comparator)
    (elements : List Value) : Except RunError (List Value) := do
  let keyed ← comparator.keyed cap elements
  .ok ((sortStable (fun a b => compare a b == .lt) keyed).map Keyed.element)

/-- The first of the elements at one end by a comparison of them with their keys. -/
def extremeBy (compare : Keyed → Keyed → Ordering) (cap : Nat) (comparator : Comparator)
    (extreme : Extreme) (elements : List Value) : Except RunError Value := do
  let keyed ← comparator.keyed cap elements
  match keyed with
  | [] => .error (.emptyInput extreme)
  | first :: rest =>
    .ok (rest.foldl (fun best keyed => if compare keyed best == extreme.wanted then keyed else best)
      first).element

section Fallback

variable (fallback : Value → Value → Ordering)

/-- Keys without an order do count as equal. -/
theorem compareKeysOr_tie (keys : List SortKey) (as bs : List Value) :
    compareKeysOr (fun _ _ => .eq) keys as bs = compareKeys keys as bs := by
  induction keys generalizing as bs with
  | nil => simp [compareKeysOr, compareKeys]
  | cons key keys ih =>
      cases as with
      | nil => simp [compareKeysOr, compareKeys]
      | cons a as =>
          cases bs with
          | nil => simp [compareKeysOr, compareKeys]
          | cons b bs => rw [compareKeysOr, compareKeys_cons, ih]

theorem compareKeysOr_eq {as bs : List Value} (comparable : List.Forall₂ Value.Comparable as bs)
    (keys : List SortKey) : compareKeysOr fallback keys as bs = compareKeys keys as bs := by
  induction comparable generalizing keys with
  | nil => simp [compareKeysOr, compareKeys]
  | cons first _ ih =>
      cases keys with
      | nil => simp [compareKeysOr, compareKeys]
      | cons key keys =>
          obtain ⟨order, ordered, -⟩ := first.exists_order
          rw [compareKeysOr, compareKeys_cons, ordered, ih]
          rfl

/-- A tie has equal keys in all columns. -/
theorem compareKeys_eq_eq_iff {keys : List SortKey} {as bs : List Value}
    (length : keys.length = as.length) (comparable : List.Forall₂ Value.Comparable as bs) :
    compareKeys keys as bs = .eq ↔ List.Forall₂ (fun a b => a.order b = .ok .eq) as bs := by
  induction comparable generalizing keys with
  | nil =>
      obtain rfl := List.eq_nil_of_length_eq_zero length
      exact iff_of_true (by simp [compareKeys]) .nil
  | cons first _ ih =>
      obtain ⟨key, keys, rfl⟩ := List.exists_cons_of_length_eq_add_one length
      obtain ⟨order, ordered, -⟩ := first.exists_order
      rw [compareKeys_cons, Ordering.then_eq_eq, Direction.turn_eq_eq_iff, List.forall₂_cons,
        ih (Nat.succ.inj length), ordered, Except.ok.injEq]
      rfl

variable {cap : Nat} {comparator : Comparator} {items : List Value}

theorem sortBy_congr {compare : Keyed → Keyed → Ordering}
    (same : ∀ all, comparator.keyed cap items = .ok all → ∀ a ∈ all, ∀ b ∈ all,
      compare a b = comparator.compareKeyed a b) :
    comparator.sortBy compare cap items = comparator.sort cap items := by
  rw [sortBy, sort]
  cases done : comparator.keyed cap items with
  | error error => rfl
  | ok all =>
      have agree := same all done
      have sorted : sortStable (fun a b => compare a b == .lt) all =
          sortStable (fun a b => comparator.compareKeyed a b == .lt) all :=
        sortStable_congr fun a memberA b memberB => by rw [agree a memberA b memberB]
      exact congrArg (fun sorted : List Keyed => Except.ok (sorted.map Keyed.element)) sorted

theorem beats_eq_wanted (extreme : Extreme) (a b : Keyed) :
    comparator.beats extreme a b = (comparator.compareKeyed a b == extreme.wanted) := by
  cases extreme <;> rfl

theorem extremeBy_congr {compare : Keyed → Keyed → Ordering}
    (same : ∀ all, comparator.keyed cap items = .ok all → ∀ a ∈ all, ∀ b ∈ all,
      compare a b = comparator.compareKeyed a b) (extreme : Extreme) :
    comparator.extremeBy compare cap extreme items = comparator.extreme cap extreme items := by
  rw [extremeBy, Comparator.extreme]
  cases done : comparator.keyed cap items with
  | error error => rfl
  | ok all =>
      cases all with
      | nil => rfl
      | cons first rest =>
          have agree := same _ done
          refine congrArg (fun best => Except.ok (Keyed.element best)) ?_
          refine foldl_choice_congr fun a memberA b memberB => ?_
          rw [agree a memberA b memberB, beats_eq_wanted]

end Fallback

/-- Elements that pass the check have one key for each column, as the column selects it, and the
keys of any two of them have an order in every column. So the elements come out as they do whatever
keys without an order would count as, and a tie is one in all columns. -/
theorem keyed_comparable {cap : Nat} {comparator : Comparator} {items : List Value}
    {all : List Keyed} (done : comparator.keyed cap items = .ok all) :
    all.map Keyed.element = items ∧
      (∀ keyed ∈ all, List.Forall₂
        (fun key value => key.select cap keyed.element = .ok value) comparator.keys keyed.keys) ∧
      (∀ a ∈ all, ∀ b ∈ all,
        List.Forall₂ (fun x y => ∃ order, Value.order x y = .ok order) a.keys b.keys ∧
          (comparator.compareKeyed a b = .eq ↔
            List.Forall₂ (fun x y => Value.order x y = .ok .eq) a.keys b.keys)) ∧
      ∀ fallback,
        (∀ a ∈ all, ∀ b ∈ all,
          comparator.compareKeyedOr fallback a b = comparator.compareKeyed a b) ∧
        comparator.sortBy (comparator.compareKeyedOr fallback) cap items =
          comparator.sort cap items ∧
        ∀ extreme, comparator.extremeBy (comparator.compareKeyedOr fallback) cap extreme items =
          comparator.extreme cap extreme items := by
  refine ⟨elements_of_keyed done, fun keyed member => forall₂_of_keysOf (keys_of_keyed done member),
    fun a memberA b memberB => ⟨?ordered, ?ties⟩, fun fallback => ?fallback⟩
  case ordered =>
    exact (comparable_of_keyed done memberA memberB).imp fun _ _ =>
      Value.comparable_iff_exists_order.1
  case ties =>
    exact compareKeys_eq_eq_iff (length_of_keyed done memberA)
      (comparable_of_keyed done memberA memberB)
  case fallback =>
    have same (all : List Keyed) (done : comparator.keyed cap items = .ok all) :
        ∀ a ∈ all, ∀ b ∈ all,
          comparator.compareKeyedOr fallback a b = comparator.compareKeyed a b :=
      fun _ memberA _ memberB =>
        compareKeysOr_eq fallback (comparable_of_keyed done memberA memberB) _
    exact ⟨same all done, sortBy_congr same, extremeBy_congr same⟩

/-- Booleans in one column, an integer beside a double in the other one. -/
theorem keyed_comparable_mixed :
    let small : Selector := .lambda ⟨"x", .binary (.relation .less) (.reference "x")
      (.literal (.number (.integer 2)))⟩
    let comparator : Comparator := ⟨[⟨small, .descending⟩, ⟨.identity, .ascending⟩]⟩
    let items : List Value := [.integer 2, .float ⟨0x3ff8000000000000⟩]
    ∃ all, comparator.keyed 4 items = .ok all ∧ ∀ a ∈ all, ∀ b ∈ all,
      List.Forall₂ (fun x y => ∃ order, Value.order x y = .ok order) a.keys b.keys := by
  intro small comparator items
  obtain ⟨all, done⟩ : ∃ all, comparator.keyed 4 items = .ok all := ⟨_, rfl⟩
  obtain ⟨-, -, ordered, -⟩ := keyed_comparable done
  exact ⟨all, done, fun a memberA b memberB => (ordered a memberA b memberB).1⟩

end Comparator

end Pipeline
