import Pipeline.Proofs.Ordering

/-! Sorting puts values in order if the order is one on them: whatever it does to other values,
only those in the list are compared. -/

set_option autoImplicit false

namespace Pipeline

/-- Of two values at most one is less than the other, and what is not less than a value is not less
than any that this one is not less than. -/
structure Orders {α : Type} (less : α → α → Bool) (among : α → Prop) : Prop where
  asymm {a b : α} : among a → among b → less a b = true → less b a = false
  trans {a b c : α} : among a → among b → among c → less a b = false → less b c = false →
    less a c = false

section Sorting

variable {α : Type} {less : α → α → Bool} {among : α → Prop}

theorem insertBehind_descends (orders : Orders less among) {value : α} (holds : among value)
    {sorted : List α} (each : ∀ other ∈ sorted, among other)
    (descends : sorted.Pairwise fun a b => less a b = false) :
    (insertBehind less value sorted).Pairwise fun a b => less a b = false := by
  induction sorted with
  | nil => exact List.pairwise_singleton _ _
  | cons top rest ih =>
      obtain ⟨topHolds, others⟩ := List.forall_mem_cons.1 each
      obtain ⟨first, behind⟩ := List.pairwise_cons.1 descends
      rw [insertBehind]
      cases below : less value top with
      | true =>
          refine List.pairwise_cons.2 ⟨fun other member => ?_, ih others behind⟩
          rcases List.mem_cons.1 ((insertBehind_perm less value rest).mem_iff.1 member) with
            rfl | later
          · exact orders.asymm holds topHolds below
          · exact first other later
      | false =>
          refine List.pairwise_cons.2 ⟨fun other member => ?_, descends⟩
          rcases List.mem_cons.1 member with rfl | later
          · exact below
          · exact orders.trans holds topHolds (others other later) below (first other later)

theorem insertionSort_pairwise (orders : Orders less among) {values : List α}
    (each : ∀ value ∈ values, among value) :
    (insertionSort less values).Pairwise fun a b => less b a = false := by
  have folded : ∀ values sorted : List α, (∀ value ∈ values, among value) →
      (∀ value ∈ sorted, among value) → sorted.Pairwise (fun a b => less a b = false) →
        (values.foldl (fun sorted value => insertBehind less value sorted) sorted).Pairwise
          fun a b => less a b = false := by
    intro values
    induction values with
    | nil => exact fun sorted _ _ descends => descends
    | cons value rest ih =>
        intro sorted given taken descends
        obtain ⟨holds, others⟩ := List.forall_mem_cons.1 given
        refine ih _ others (fun other member => ?_)
          (insertBehind_descends orders holds taken descends)
        rcases List.mem_cons.1 ((insertBehind_perm less value sorted).mem_iff.1 member) with
          rfl | before
        · exact holds
        · exact taken other before
  exact List.pairwise_reverse.2 (folded values [] each (List.forall_mem_nil _) .nil)

theorem mergeSort_pairwise (orders : Orders less among) {values : List α}
    (each : ∀ value ∈ values, among value) :
    (values.mergeSort fun a b => !less b a).Pairwise fun a b => less b a = false := by
  -- Only between members of the list is the order known to be one.
  let atMost : { value // value ∈ values } → { value // value ∈ values } → Bool :=
    fun a b => !less b.1 a.1
  have trans : ∀ a b c, atMost a b = true → atMost b c = true → atMost a c = true := by
    intro a b c first second
    rw [Bool.not_eq_true'] at first second ⊢
    exact orders.trans (each c.1 c.2) (each b.1 b.2) (each a.1 a.2) second first
  have total : ∀ a b, (atMost a b || atMost b a) = true := by
    intro a b
    cases below : less b.1 a.1 with
    | false => simp [atMost, below]
    | true => simp [atMost, orders.asymm (each b.1 b.2) (each a.1 a.2) below]
  have sorted := List.pairwise_mergeSort trans total values.attach
  have mapped : (values.attach.mergeSort atMost).map Subtype.val =
      values.mergeSort fun a b => !less b a := by
    rw [List.map_mergeSort (s := fun a b => !less b a) fun _ _ _ _ => rfl,
      List.attach_map_subtype_val]
  rw [← mapped, List.pairwise_map]
  exact sorted.imp fun atMost => Bool.not_eq_true' _ ▸ atMost

theorem sortStable_pairwise (orders : Orders less among) {values : List α}
    (each : ∀ value ∈ values, among value) :
    (sortStable less values).Pairwise fun a b => less b a = false := by
  rw [sortStable]
  split
  · exact insertionSort_pairwise orders each
  · exact mergeSort_pairwise orders each

end Sorting

section Maps

variable {α β : Type} {less : α → α → Bool} {lessImage : β → β → Bool} {image : α → β}

theorem map_insertBehind {value : α} {sorted : List α}
    (same : ∀ other ∈ sorted, less value other = lessImage (image value) (image other)) :
    (insertBehind less value sorted).map image =
      insertBehind lessImage (image value) (sorted.map image) := by
  induction sorted with
  | nil => rfl
  | cons top rest ih =>
      obtain ⟨first, others⟩ := List.forall_mem_cons.1 same
      rw [List.map_cons, insertBehind, insertBehind, ← first]
      split
      · rw [List.map_cons, ih others]
      · rfl

/-- A value is only compared with those in front of it. -/
theorem map_insertionSort {values : List α} (same : values.Pairwise fun earlier later =>
    less later earlier = lessImage (image later) (image earlier)) :
    (insertionSort less values).map image = insertionSort lessImage (values.map image) := by
  have folded : ∀ values sorted : List α,
      (values.Pairwise fun earlier later =>
        less later earlier = lessImage (image later) (image earlier)) →
      (∀ later ∈ values, ∀ earlier ∈ sorted,
        less later earlier = lessImage (image later) (image earlier)) →
      (values.foldl (fun sorted value => insertBehind less value sorted) sorted).map image =
        (values.map image).foldl (fun sorted value => insertBehind lessImage value sorted)
          (sorted.map image) := by
    intro values
    induction values with
    | nil => exact fun _ _ _ => rfl
    | cons value rest ih =>
        intro sorted within before
        obtain ⟨first, others⟩ := List.pairwise_cons.1 within
        obtain ⟨own, behind⟩ := List.forall_mem_cons.1 before
        rw [List.foldl_cons, ih _ others, map_insertBehind own]
        · rfl
        · intro later member earlier inserted
          rcases List.mem_cons.1 ((insertBehind_perm less value sorted).mem_iff.1 inserted) with
            rfl | old
          · exact first later member
          · exact behind later member earlier old
  rw [insertionSort, List.map_reverse, folded values [] same fun _ _ => List.forall_mem_nil _]
  rfl

theorem map_sortStable (same : ∀ a b, less a b = lessImage (image a) (image b))
    (values : List α) :
    (sortStable less values).map image = sortStable lessImage (values.map image) := by
  rw [sortStable, sortStable, List.length_map]
  split
  · exact map_insertionSort (List.pairwise_of_forall fun _ _ => same _ _)
  · exact List.map_mergeSort fun a _ b _ => congrArg (!·) (same b a)

end Maps

/-! ## Elements in their natural order -/

namespace Comparator

section Natural

variable {β : Type} {kind : β → Value} {cmp : β → β → Ordering}
  (ordered : ∀ a b, (kind a).order (kind b) = .ok (cmp a b)) (cap : Nat)
include ordered

/-- What has an order is its own key, as only records stand for another one. -/
theorem select_identity (direction : Direction) (x : β) :
    SortKey.select cap ⟨.identity, direction⟩ (kind x) = .ok (kind x) := by
  cases found : kind x with
  | record r =>
      have own := ordered x x
      rw [found] at own
      cases own
  | scalar s | list items | map entries => rfl

theorem natural_keyed (xs : List β) : natural.keyed cap (xs.map kind) =
    .ok (xs.map fun x => ⟨[kind x], kind x⟩) := by
  have keyedAll : natural.keyAll cap (xs.map kind) =
      .ok (xs.map fun x => ⟨[kind x], kind x⟩) := by
    induction xs with
    | nil => rfl
    | cons x rest ih =>
        rw [List.map_cons, keyAll, ih, natural, keysOf, select_identity ordered]
        rfl
  have checked : ∀ (x : β) (others : List β),
      checkAgainst [kind x] (others.map fun x => ⟨[kind x], kind x⟩) = .ok () := by
    intro x others
    induction others with
    | nil => rfl
    | cons other rest ih =>
        rw [List.map_cons, checkAgainst, checkColumns, ordered, ih]
        rfl
  rw [keyed, keyedAll]
  cases xs with
  | nil => rfl
  | cons x rest =>
      have first := checked x (x :: rest)
      rw [List.map_cons] at first ⊢
      simp only [bind, Except.bind, first]

theorem natural_sort (xs : List β) : natural.sort cap (xs.map kind) =
    .ok ((sortStable (fun a b => cmp a b == .lt) xs).map kind) := by
  have less : ∀ a b : β, (cmp a b == .lt) =
      (natural.compareKeyed ⟨[kind a], kind a⟩ ⟨[kind b], kind b⟩ == .lt) := by
    intro a b
    simp only [compareKeyed, natural, compareKeys, ordered]
    cases cmp a b <;> rfl
  rw [sort, natural_keyed ordered]
  change Except.ok ((sortStable _ (xs.map _)).map Keyed.element) = _
  rw [← map_sortStable less, List.map_map]
  rfl

end Natural

end Comparator

def Number.less (a b : Number) : Bool :=
  a.order b == .lt

end Pipeline
