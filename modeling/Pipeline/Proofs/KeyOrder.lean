import Pipeline.Value

/-! The order of map keys is a linear one, so that entries in key order have no key twice. -/

set_option autoImplicit false

namespace Pipeline

/-- The entries are in key order, and no two of them have the same key. -/
def InKeyOrder {α : Type} (entries : List (Key × α)) : Prop :=
  entries.Pairwise fun first second => first.1.order second.1 = .lt

namespace Key

theorem order_eq_iff {a b : Key} : a.order b = .eq ↔ a = b := by
  cases a with
  | boolean a =>
      cases b with
      | boolean b => cases a <;> cases b <;> simp [order]
      | integer b | text b => simp [order]
  | integer a => cases b <;> simp [order, Int64.toInt_inj]
  | text a => cases b <;> simp [order]

theorem order_swap (a b : Key) : a.order b = (b.order a).swap := by
  cases a <;> cases b <;> first | rfl | exact Std.OrientedOrd.eq_swap

theorem order_gt_iff {a b : Key} : a.order b = .gt ↔ b.order a = .lt := by
  rw [order_swap, Ordering.swap_eq_gt]

theorem order_lt_trans {a b c : Key} (first : a.order b = .lt) (second : b.order c = .lt) :
    a.order c = .lt := by
  have trans : ∀ {α : Type} [Ord α] [Std.TransOrd α] {x y z : α}, compare x y = .lt →
      compare y z = .lt → compare x z = .lt := Std.TransCmp.lt_trans
  cases a <;> cases b <;> try cases first
  all_goals cases c <;> try cases second
  all_goals first | rfl | exact trans first second

theorem ne_of_order_lt {a b : Key} (less : a.order b = .lt) : a ≠ b := by
  rintro rfl
  rw [order_eq_iff.2 rfl] at less
  cases less

end Key

/-- A key in front of all others is in front of those behind them. -/
theorem InKeyOrder.lt_of_mem {α : Type} {key other : Key} {value : α} {rest : List (Key × α)}
    (ordered : InKeyOrder ((key, value) :: rest)) (member : other ∈ rest.map Prod.fst) :
    key.order other = .lt := by
  obtain ⟨entry, within, rfl⟩ := List.mem_map.1 member
  exact (List.pairwise_cons.1 ordered).1 entry within

end Pipeline
