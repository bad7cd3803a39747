import Pipeline.Proofs.Except
import Pipeline.Proofs.Stability

/-! The columns of a comparator order the elements that are checked: all keys of a column are of
one kind or, if they are numbers, perhaps of two, and among keys of one kind the order is
transitive. So is the order by all columns, each in its direction, which sorting follows. -/

set_option autoImplicit false

namespace Pipeline

open Std

/-- Two values of a kind that has an order. -/
inductive Value.Comparable : Value → Value → Prop
  | numbers (a b : Number) : Comparable (.number a) (.number b)
  | texts (a b : String) : Comparable (.text a) (.text b)
  | booleans (a b : Bool) : Comparable (.boolean a) (.boolean b)

theorem Value.Comparable.of_order {a b : Value} {order : Ordering}
    (ordered : a.order b = .ok order) : a.Comparable b := by
  fun_cases Value.order a b
  · exact .numbers _ _
  · exact .texts _ _
  · exact .booleans _ _
  · rename_i noNumbers noTexts noBooleans
    rw [Value.order] at ordered
    · cases ordered
    all_goals assumption

/-- An order in its direction. -/
def Direction.turn (direction : Direction) (order : Ordering) : Ordering :=
  match direction with
  | ascending => order
  | descending => order.swap

theorem Direction.turn_reversed (direction : Direction) (order : Ordering) :
    direction.reversed.turn order = (direction.turn order).swap := by
  cases direction with
  | ascending => rfl
  | descending => exact Ordering.swap_swap.symm

/-- The order of two elements in one column. -/
def SortKey.order (cap : Nat) (key : SortKey) (a b : Value) : Except RunError Ordering := do
  let keyA ← key.select cap a
  let keyB ← key.select cap b
  let order ← keyA.order keyB
  .ok (key.direction.turn order)

namespace Comparator

/-- The order of two elements in the first column that tells them apart. -/
def columnOrder (cap : Nat) (a b : Value) : List SortKey → Except RunError Ordering
  | [] => .ok .eq
  | key :: rest => do
    let order ← key.order cap a b
    let behind ← columnOrder cap a b rest
    .ok (order.then behind)

def order (cap : Nat) (comparator : Comparator) (a b : Value) : Except RunError Ordering :=
  columnOrder cap a b comparator.keys

/-- Whether no column has an integer for one of the elements and a double for another. -/
def Unmixed (cap : Nat) (comparator : Comparator) (elements : List Value) : Prop :=
  ∀ key ∈ comparator.keys, ∀ a ∈ elements, ∀ b ∈ elements, ∀ n x,
    key.select cap a = .ok (.integer n) → key.select cap b ≠ .ok (.float x)

/-! ## What is checked -/

section Checks

variable {cap : Nat} {comparator : Comparator} {keys : List SortKey} {a b : Value}
  {as bs : List Value} {all : List Keyed} {items : List Value}

theorem keysOf_cons_eq_ok {key : SortKey} : keysOf cap a (key :: keys) = .ok as ↔
    ∃ value, key.select cap a = .ok value ∧
      ∃ values, keysOf cap a keys = .ok values ∧ value :: values = as := by
  simp only [keysOf, bind_eq_ok, Except.ok.injEq]

theorem checkColumns_cons_eq_ok {valueA valueB : Value} {done : Unit} :
    checkColumns (valueA :: as) (valueB :: bs) = .ok done ↔
      ∃ order, valueA.order valueB = .ok order ∧ checkColumns as bs = .ok done := by
  rw [checkColumns, bind_eq_ok]

theorem select_of_checkColumns (keysA : keysOf cap a keys = .ok as)
    (keysB : keysOf cap b keys = .ok bs) {done : Unit} (checked : checkColumns as bs = .ok done) :
    ∀ key ∈ keys, ∃ valueA valueB order, key.select cap a = .ok valueA ∧
      key.select cap b = .ok valueB ∧ valueA.order valueB = .ok order := by
  induction keys generalizing as bs with
  | nil => exact List.forall_mem_nil _
  | cons key rest ih =>
      obtain ⟨valueA, selectedA, othersA, restA, rfl⟩ := keysOf_cons_eq_ok.1 keysA
      obtain ⟨valueB, selectedB, othersB, restB, rfl⟩ := keysOf_cons_eq_ok.1 keysB
      obtain ⟨order, ordered, behind⟩ := checkColumns_cons_eq_ok.1 checked
      refine List.forall_mem_cons.2 ⟨?_, ih restA restB behind⟩
      exact ⟨valueA, valueB, order, selectedA, selectedB, ordered⟩

theorem checkColumns_of_checkAgainst {done : Unit} (checked : checkAgainst as all = .ok done) :
    ∀ keyed ∈ all, checkColumns as keyed.keys = .ok () := by
  induction all with
  | nil => exact List.forall_mem_nil _
  | cons keyed rest ih =>
      obtain ⟨_, first, behind⟩ := bind_eq_ok.1 checked
      exact List.forall_mem_cons.2 ⟨first, ih behind⟩

theorem elements_of_keyAll (done : comparator.keyAll cap items = .ok all) :
    all.map Keyed.element = items ∧
      ∀ keyed ∈ all, keysOf cap keyed.element comparator.keys = .ok keyed.keys := by
  induction items generalizing all with
  | nil =>
      cases done
      exact ⟨rfl, List.forall_mem_nil _⟩
  | cons item rest ih =>
      rw [keyAll] at done
      obtain ⟨keys, selected, done⟩ := bind_eq_ok.1 done
      obtain ⟨others, behind, done⟩ := bind_eq_ok.1 done
      cases done
      obtain ⟨same, each⟩ := ih behind
      exact ⟨congrArg (item :: ·) same, List.forall_mem_cons.2 ⟨selected, each⟩⟩

theorem keyed_eq_ok (done : comparator.keyed cap items = .ok all) :
    comparator.keyAll cap items = .ok all ∧
      ∀ first rest, all = first :: rest → checkAgainst first.keys all = .ok () := by
  obtain ⟨found, keyedAll, checked⟩ := bind_eq_ok.1 done
  cases found with
  | nil =>
      cases checked
      exact ⟨keyedAll, fun _ _ none => nomatch none⟩
  | cons first rest =>
      obtain ⟨_, against, same⟩ := bind_eq_ok.1 checked
      cases same
      refine ⟨keyedAll, fun head others same => ?_⟩
      cases same
      exact against

theorem elements_of_keyed (done : comparator.keyed cap items = .ok all) :
    all.map Keyed.element = items :=
  (elements_of_keyAll (keyed_eq_ok done).1).1

theorem keys_of_keyed (done : comparator.keyed cap items = .ok all) {keyed : Keyed}
    (member : keyed ∈ all) : keysOf cap keyed.element comparator.keys = .ok keyed.keys :=
  (elements_of_keyAll (keyed_eq_ok done).1).2 keyed member

/-- All keys of a column have an order against one of them. -/
theorem column_of_keyed (done : comparator.keyed cap items = .ok all) {key : SortKey}
    (used : key ∈ comparator.keys) : ∃ reference : Value, ∀ keyed ∈ all,
      ∃ value order, key.select cap keyed.element = .ok value ∧
        reference.order value = .ok order := by
  have keys := @keys_of_keyed _ _ _ _ done
  have checked := (keyed_eq_ok done).2
  cases all with
  | nil => exact ⟨.boolean true, List.forall_mem_nil _⟩
  | cons first rest =>
      have against := checkColumns_of_checkAgainst (checked first rest rfl)
      have compared : ∀ keyed ∈ first :: rest, ∃ reference value order,
          key.select cap first.element = .ok reference ∧
            key.select cap keyed.element = .ok value ∧ reference.order value = .ok order :=
        fun keyed member => select_of_checkColumns (keys (.head _)) (keys member)
          (against keyed member) key used
      obtain ⟨reference, _, _, selected, -⟩ := compared first (.head _)
      refine ⟨reference, fun keyed member => ?_⟩
      obtain ⟨same, value, order, chosen, found, ordered⟩ := compared keyed member
      cases selected.symm.trans chosen
      exact ⟨value, order, found, ordered⟩

end Checks

/-! ## Transitive columns -/

section Columns

variable {cap : Nat} {ι : Type} {element : ι → Value} {key : SortKey}

theorem transCmp_eq : TransCmp fun _ _ : ι => Ordering.eq :=
  { eq_swap := rfl, isLE_trans := fun _ _ => rfl }

/-- Keys of one kind, ranked as they are ordered, order the elements. -/
theorem exists_transCmp_of_rank {β ρ : Type} [Ord ρ] [TransOrd ρ] (kind : β → Value) (rank : β → ρ)
    (ranked : ∀ a b, (kind a).order (kind b) = .ok (compare (rank a) (rank b)))
    (selected : ∀ i, ∃ value, key.select cap (element i) = .ok (kind value)) :
    ∃ cmp : ι → ι → Ordering, TransCmp cmp ∧
      ∀ i j, key.order cap (element i) (element j) = .ok (cmp i j) := by
  choose value found using selected
  have ordered : ∀ i j, key.order cap (element i) (element j) =
      .ok (key.direction.turn (compare (rank (value i)) (rank (value j)))) := by
    intro i j
    rw [SortKey.order, found, found]
    change (kind (value i)).order (kind (value j)) >>= _ = _
    rw [ranked]
    rfl
  refine ⟨_, ?_, ordered⟩
  cases key.direction with
  | ascending => exact inferInstanceAs (TransCmp (compareOn fun i => rank (value i)))
  | descending =>
      -- Equals stay equals if an order is turned, so it is that of the two changed over.
      have swapped : (fun i j => Direction.descending.turn
          (compare (rank (value i)) (rank (value j)))) =
          fun i j => compareOn (fun i => rank (value i)) j i :=
        funext fun i => funext fun j => OrientedOrd.eq_swap.symm
      rw [swapped]
      exact TransCmp.opposite

/-- A column without integers beside doubles orders the elements if all keys in it have an order
against one value. -/
theorem exists_transCmp_of_column {reference : Value} (checked : ∀ i, ∃ value order,
      key.select cap (element i) = .ok value ∧ reference.order value = .ok order)
    (unmixed : ∀ i j n x, key.select cap (element i) = .ok (.integer n) →
      key.select cap (element j) ≠ .ok (.float x)) :
    ∃ cmp : ι → ι → Ordering, TransCmp cmp ∧
      ∀ i j, key.order cap (element i) (element j) = .ok (cmp i j) := by
  have comparable : ∀ i, ∃ value, key.select cap (element i) = .ok value ∧
      reference.Comparable value := fun i =>
    have ⟨value, _, selected, ordered⟩ := checked i
    ⟨value, selected, .of_order ordered⟩
  rcases isEmpty_or_nonempty ι with none | ⟨⟨first⟩⟩
  · exact ⟨_, transCmp_eq, fun i => none.elim i⟩
  obtain ⟨_, -, kind⟩ := comparable first
  cases kind with
  | numbers m n =>
      -- All are integers or all are doubles.
      by_cases integers : ∃ i n, key.select cap (element i) = .ok (.integer n)
      · obtain ⟨i, n, integer⟩ := integers
        refine exists_transCmp_of_rank Value.integer Int64.toInt (fun _ _ => rfl) fun j => ?_
        obtain ⟨_, selected, kind⟩ := comparable j
        rcases kind with ⟨_, n | x⟩
        · exact ⟨n, selected⟩
        · exact absurd selected (unmixed i j _ x integer)
      · refine exists_transCmp_of_rank Value.float Double.place (fun _ _ => rfl) fun j => ?_
        obtain ⟨_, selected, kind⟩ := comparable j
        rcases kind with ⟨_, n | x⟩
        · exact absurd ⟨j, n, selected⟩ integers
        · exact ⟨x, selected⟩
  | texts s t =>
      refine exists_transCmp_of_rank Value.text id (fun _ _ => rfl) fun i => ?_
      obtain ⟨_, selected, kind⟩ := comparable i
      cases kind with
      | texts _ t => exact ⟨t, selected⟩
  | booleans p q =>
      refine exists_transCmp_of_rank Value.boolean Bool.toNat (fun _ _ => rfl) fun i => ?_
      obtain ⟨_, selected, kind⟩ := comparable i
      cases kind with
      | booleans _ q => exact ⟨q, selected⟩

theorem exists_transCmp_of_columns (element : ι → Value) {keys : List SortKey}
    (columns : ∀ key ∈ keys, ∃ cmp : ι → ι → Ordering, TransCmp cmp ∧
        ∀ i j, key.order cap (element i) (element j) = .ok (cmp i j)) :
    ∃ cmp : ι → ι → Ordering, TransCmp cmp ∧
      ∀ i j, columnOrder cap (element i) (element j) keys = .ok (cmp i j) := by
  induction keys with
  | nil => exact ⟨_, transCmp_eq, fun _ _ => rfl⟩
  | cons key rest ih =>
      obtain ⟨first, others⟩ := List.forall_mem_cons.1 columns
      obtain ⟨cmp, _, ordered⟩ := first
      obtain ⟨behind, _, orderedBehind⟩ := ih others
      refine ⟨compareLex cmp behind, inferInstance, fun i j => ?_⟩
      rw [columnOrder, ordered, orderedBehind]
      rfl

end Columns

/-! ## The order by all columns -/

section Keyed

variable {cap : Nat} {comparator : Comparator} {items : List Value} {all : List Keyed}

theorem compareKeys_cons (key : SortKey) (keys : List SortKey) (a b : Value) (as bs : List Value) :
    compareKeys (key :: keys) (a :: as) (b :: bs) =
      (key.direction.turn ((a.order b).toOption.getD .eq)).then (compareKeys keys as bs) := by
  rw [compareKeys]
  cases a.order b with
  | error error => cases key.direction <;> rfl
  | ok order => cases key.direction <;> cases order <;> rfl

theorem compareKeys_of_columnOrder {keys : List SortKey} {a b : Value} {as bs : List Value}
    (keysA : keysOf cap a keys = .ok as) (keysB : keysOf cap b keys = .ok bs) {order : Ordering}
    (ordered : columnOrder cap a b keys = .ok order) : compareKeys keys as bs = order := by
  induction keys generalizing as bs order with
  | nil =>
      cases ordered
      simp [compareKeys]
  | cons key rest ih =>
      obtain ⟨valueA, selectedA, othersA, restA, rfl⟩ := keysOf_cons_eq_ok.1 keysA
      obtain ⟨valueB, selectedB, othersB, restB, rfl⟩ := keysOf_cons_eq_ok.1 keysB
      obtain ⟨first, firstOrdered, ordered⟩ := bind_eq_ok.1 ordered
      obtain ⟨behind, behindOrdered, ordered⟩ := bind_eq_ok.1 ordered
      cases ordered
      rw [SortKey.order, selectedA, selectedB] at firstOrdered
      obtain ⟨plain, plainOrdered, turned⟩ :=
        (@bind_eq_ok _ _ _ (valueA.order valueB)).1 firstOrdered
      cases turned
      rw [compareKeys_cons, plainOrdered, ih restA restB behindOrdered]
      rfl

/-- The order of elements with their keys is that by columns, and it is transitive. -/
theorem transCmp_of_keyed (done : comparator.keyed cap items = .ok all)
    (unmixed : comparator.Unmixed cap items) :
    (TransCmp fun a b : { keyed // keyed ∈ all } => comparator.compareKeyed a.1 b.1) ∧
      ∀ a ∈ all, ∀ b ∈ all,
        comparator.order cap a.element b.element = .ok (comparator.compareKeyed a b) := by
  have within : ∀ keyed ∈ all, keyed.element ∈ items := fun keyed member =>
    elements_of_keyed done ▸ List.mem_map_of_mem member
  obtain ⟨cmp, trans, ordered⟩ := exists_transCmp_of_columns
    (fun keyed : { keyed // keyed ∈ all } => keyed.1.element) fun key used =>
      have ⟨_, column⟩ := column_of_keyed done used
      exists_transCmp_of_column (fun keyed => column keyed.1 keyed.2) fun a b =>
        unmixed key used _ (within a.1 a.2) _ (within b.1 b.2)
  have same : (fun a b : { keyed // keyed ∈ all } => comparator.compareKeyed a.1 b.1) = cmp :=
    funext fun a => funext fun b => compareKeys_of_columnOrder (keys_of_keyed done a.2)
      (keys_of_keyed done b.2) (ordered a b)
  refine ⟨same ▸ trans, fun a memberA b memberB => ?_⟩
  exact (ordered ⟨a, memberA⟩ ⟨b, memberB⟩).trans
    (congrArg Except.ok (congrFun (congrFun same.symm ⟨a, memberA⟩) ⟨b, memberB⟩))

theorem compareKeyed_swap (done : comparator.keyed cap items = .ok all)
    (unmixed : comparator.Unmixed cap items) {a b : Keyed} (memberA : a ∈ all) (memberB : b ∈ all) :
    comparator.compareKeyed b a = (comparator.compareKeyed a b).swap :=
  @(transCmp_of_keyed done unmixed).1.eq_swap ⟨b, memberB⟩ ⟨a, memberA⟩

theorem orders_of_keyed (done : comparator.keyed cap items = .ok all)
    (unmixed : comparator.Unmixed cap items) :
    Orders (fun a b => comparator.compareKeyed a b == .lt) (· ∈ all) := by
  constructor
  · intro a b memberA memberB below
    rw [compareKeyed_swap done unmixed memberA memberB, beq_iff_eq.1 below]
    rfl
  · intro a b c memberA memberB memberC first second
    have trans := @(transCmp_of_keyed done unmixed).1.isGE_trans _ _ ⟨a, memberA⟩ ⟨b, memberB⟩
      ⟨c, memberC⟩
    simp only [Ordering.isGE_iff_ne_lt] at trans
    rw [beq_eq_false_iff_ne] at first second ⊢
    exact trans first second

end Keyed

end Comparator

end Pipeline
