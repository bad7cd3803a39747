import Pipeline.Proofs.Arithmetic
import Pipeline.Run.Distinct
import Pipeline.Run.Ordering

/-! Sorting, extremes and the removal of repeats only choose and arrange elements. What
they can fail with comes from their keys, or says that keys have no order. -/

set_option autoImplicit false

namespace Pipeline

section Sorting

variable {α : Type} (less : α → α → Bool)

theorem insertBehind_perm (value : α) (sorted : List α) :
    (insertBehind less value sorted).Perm (value :: sorted) := by
  induction sorted with
  | nil => exact .refl _
  | cons top rest ih =>
      rw [insertBehind]
      split
      · exact (ih.cons top).trans (.swap value top rest)
      · exact .refl _

theorem insertionSort_perm (values : List α) : (insertionSort less values).Perm values := by
  have folded : ∀ values sorted : List α,
      (values.foldl (fun sorted value => insertBehind less value sorted) sorted).Perm
        (values ++ sorted) := by
    intro values
    induction values with
    | nil => exact fun sorted => .refl _
    | cons value rest ih =>
        intro sorted
        calc (rest.foldl _ (insertBehind less value sorted)).Perm
              (rest ++ insertBehind less value sorted) := ih _
          _ |>.Perm (rest ++ value :: sorted) := (insertBehind_perm less value sorted).append_left _
          _ |>.Perm (value :: rest ++ sorted) := List.perm_middle
  simpa [insertionSort] using (List.reverse_perm _).trans (folded values [])

theorem sortStable_perm (values : List α) : (sortStable less values).Perm values := by
  rw [sortStable]
  split
  · exact insertionSort_perm less values
  · exact List.mergeSort_perm values _

/-- A fold that chooses between two values ends with one of them all. -/
theorem foldl_choice_mem (beats : α → α → Bool) (best : α) (values : List α) :
    values.foldl (fun best value => if beats value best then value else best) best
      ∈ best :: values := by
  induction values generalizing best with
  | nil => exact .head _
  | cons next rest ih =>
      rw [List.foldl_cons]
      split
      · exact .tail _ (ih next)
      · rcases List.mem_cons.1 (ih best) with chosen | later
        · rw [chosen]
          exact .head _
        · exact .tail _ (.tail _ later)

end Sorting

/-- What is left without repeats is left in its order. -/
theorem distinctBy_sublist (hash : List Mark → UInt64) (values : List Value) :
    (distinctBy hash values).Sublist values := by
  have folded : ∀ (values : List Value) (seen : Seen), ∃ chosen : List Value,
      chosen.Sublist values ∧
        (values.foldl (Seen.add hash) seen).kept = chosen.reverse ++ seen.kept := by
    intro values
    induction values with
    | nil => exact fun seen => ⟨[], .slnil, rfl⟩
    | cons next rest ih =>
        intro seen
        obtain ⟨chosen, sublist, same⟩ := ih (seen.add hash next)
        rw [List.foldl_cons, same, Seen.add]
        split
        · exact ⟨chosen, sublist.cons next, rfl⟩
        · exact ⟨next :: chosen, sublist.cons_cons next, by simp⟩
  obtain ⟨chosen, sublist, same⟩ := folded values ⟨∅, []⟩
  simpa [distinctBy, same] using sublist

/-- The selectors of a comparator fail on good elements only as allowed. -/
def Comparator.Selects (good : Value → Prop) (allowed : RunError → Prop) (cap : Nat)
    (comparator : Comparator) : Prop :=
  ∀ key ∈ comparator.keys, ∀ value, good value →
    Ensures (fun _ => True) allowed (key.selector.select cap value)

section Failures

variable {good : Value → Prop} {allowed : RunError → Prop} {cap : Nat}
  (ordinary : ∀ error : RunError, error.IsOrdinary → allowed error)
include ordinary

namespace Comparator

theorem select_ensures {key : SortKey} {value : Value}
    (selects : Ensures (fun _ => True) allowed (key.selector.select cap value)) :
    Ensures (fun _ => True) allowed (key.select cap value) := by
  fun_cases SortKey.select cap key value
  · trivial
  · exact ordinary _ id
  · assumption

theorem keysOf_ensures {keys : List SortKey} {value : Value}
    (selects : ∀ key ∈ keys, Ensures (fun _ => True) allowed (key.selector.select cap value)) :
    Ensures (fun _ => True) allowed (keysOf cap value keys) := by
  induction keys with
  | nil => trivial
  | cons key rest ih =>
      rw [List.forall_mem_cons] at selects
      rw [keysOf]
      exact (select_ensures ordinary selects.1).bind fun _ _ =>
        (ih selects.2).bind fun _ _ => trivial

theorem keyAll_ensures {comparator : Comparator} (selects : comparator.Selects good allowed cap)
    {elements : List Value} (holds : ∀ value ∈ elements, good value) :
    Ensures (fun keyed => keyed.map Keyed.element = elements) allowed
      (comparator.keyAll cap elements) := by
  induction elements with
  | nil => rfl
  | cons value rest ih =>
      rw [List.forall_mem_cons] at holds
      rw [keyAll]
      exact (keysOf_ensures ordinary fun key member => selects key member value holds.1).bind
        fun keys _ => (ih holds.2).bind fun keyed same => congrArg (value :: ·) same

theorem checkColumns_ensures (as bs : List Value) :
    Ensures (fun _ => True) allowed (checkColumns as bs) := by
  fun_induction checkColumns as bs with
  | case1 a as b bs ih =>
      exact ((Value.order_ensures a b).mono (fun _ => id) ordinary).bind fun _ _ => ih
  | case2 => trivial

theorem checkAgainst_ensures (keys : List Value) (all : List Keyed) :
    Ensures (fun _ => True) allowed (checkAgainst keys all) := by
  induction all with
  | nil => trivial
  | cons keyed rest ih =>
      rw [checkAgainst]
      exact (checkColumns_ensures ordinary keys keyed.keys).bind fun _ _ => ih

theorem keyed_ensures {comparator : Comparator} (selects : comparator.Selects good allowed cap)
    {elements : List Value} (holds : ∀ value ∈ elements, good value) :
    Ensures (fun keyed => keyed.map Keyed.element = elements) allowed
      (comparator.keyed cap elements) := by
  refine (keyAll_ensures ordinary selects holds).bind fun all same => ?_
  cases all with
  | nil => exact same
  | cons first rest => exact (checkAgainst_ensures ordinary _ _).bind fun _ _ => same

theorem sort_ensures {comparator : Comparator} (selects : comparator.Selects good allowed cap)
    {elements : List Value} (holds : ∀ value ∈ elements, good value) :
    Ensures (fun sorted => sorted.Perm elements) allowed (comparator.sort cap elements) := by
  refine (keyed_ensures ordinary selects holds).bind fun keyed same => ?_
  exact same ▸ (sortStable_perm _ keyed).map Keyed.element

theorem extreme_ensures {comparator : Comparator} (selects : comparator.Selects good allowed cap)
    {elements : List Value} (holds : ∀ value ∈ elements, good value) (extreme : Extreme) :
    Ensures (· ∈ elements) allowed (comparator.extreme cap extreme elements) := by
  refine (keyed_ensures ordinary selects holds).bind fun keyed same => ?_
  cases keyed with
  | nil => exact ordinary _ trivial
  | cons first rest =>
      subst same
      exact List.mem_map_of_mem (foldl_choice_mem _ first rest)

end Comparator

end Failures

end Pipeline
