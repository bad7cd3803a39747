import Pipeline.Proofs.Sorting

/-! Sorting is stable: it puts values in the order in which, among equals, the one that stood in
front comes first. In this order no two places are equal, so the first value of the result is found
without sorting, by going through the values and keeping the best so far. -/

set_option autoImplicit false

namespace Pipeline

section Stability

variable {α : Type} {less : α → α → Bool} {among : α → Prop}

/-- Whether a value with its place comes before another: it is less, or it is equal and stands in
front. -/
def comesFirst (less : α → α → Bool) (a b : α × Nat) : Bool :=
  less a.1 b.1 || (!less b.1 a.1 && decide (a.2 < b.2))

theorem comesFirst_iff {a b : α × Nat} : comesFirst less a b = true ↔
    less a.1 b.1 = true ∨ less b.1 a.1 = false ∧ a.2 < b.2 := by
  rw [comesFirst, Bool.or_eq_true, Bool.and_eq_true, decide_eq_true_eq, Bool.not_eq_true']

theorem comesFirst_eq_false {a b : α × Nat} : comesFirst less a b = false ↔
    less a.1 b.1 = false ∧ (less b.1 a.1 = true ∨ b.2 ≤ a.2) := by
  cases below : less b.1 a.1 <;> simp [comesFirst, below]

theorem comesFirst_of_place_lt {a b : α × Nat} (place : a.2 < b.2) :
    comesFirst less b a = less b.1 a.1 := by
  simp [comesFirst, place.le]

theorem comesFirst_of_not {a b : α × Nat} (different : a.2 ≠ b.2)
    (notFirst : comesFirst less b a = false) : comesFirst less a b = true := by
  obtain ⟨notBelow, below | place⟩ := comesFirst_eq_false.1 notFirst
  · exact comesFirst_iff.2 (.inl below)
  · exact comesFirst_iff.2 (.inr ⟨notBelow, place.lt_of_ne different⟩)

theorem Orders.comesFirst (orders : Orders less among) :
    Orders (comesFirst less) fun a => among a.1 := by
  constructor
  · intro a b holdsA holdsB first
    rw [comesFirst_eq_false]
    rcases comesFirst_iff.1 first with below | ⟨notBelow, place⟩
    · exact ⟨orders.asymm holdsA holdsB below, .inl below⟩
    · exact ⟨notBelow, .inr place.le⟩
  · intro a b c holdsA holdsB holdsC first second
    rw [comesFirst_eq_false] at first second ⊢
    obtain ⟨notAB, first⟩ := first
    obtain ⟨notBC, second⟩ := second
    refine ⟨orders.trans holdsA holdsB holdsC notAB notBC, ?_⟩
    by_cases below : less c.1 a.1 = true
    · exact .inl below
    · -- All three are equal.
      have notCA := Bool.eq_false_iff.2 below
      have notBA := orders.trans holdsB holdsC holdsA notBC notCA
      have notCB := orders.trans holdsC holdsA holdsB notCA notAB
      rw [notBA] at first
      rw [notCB] at second
      simp only [Bool.false_eq_true, false_or] at first second
      exact .inr (second.trans first)

theorem pairwise_zipIdx (values : List α) : values.zipIdx.Pairwise fun a b => a.2 < b.2 := by
  have places := values.zipIdx_map_snd 0 ▸ List.pairwise_lt_range' 1
  exact List.pairwise_map.1 places

/-- Sorting by places as well changes nothing. -/
theorem sortStable_zipIdx (values : List α) :
    (sortStable (comesFirst less) values.zipIdx).map Prod.fst = sortStable less values := by
  rw [sortStable, sortStable, List.length_zipIdx]
  split
  · rw [map_insertionSort ((pairwise_zipIdx values).imp comesFirst_of_place_lt),
      List.zipIdx_map_fst]
  · -- Turned round, this is the order by which merging is known to keep equals in place.
    have same : (fun a b => !comesFirst less b a) = List.zipIdxLE fun a b => !less b a := by
      funext a b
      rw [comesFirst, List.zipIdxLE]
      cases less b.1 a.1 <;> cases less a.1 b.1 <;> simp [← decide_not]
    rw [same]
    exact List.mergeSort_zipIdx

/-- The sorted values with the places at which they stood. -/
theorem exists_placed (orders : Orders less among) {values : List α}
    (each : ∀ value ∈ values, among value) : ∃ placed : List (α × Nat),
      placed.map Prod.fst = sortStable less values ∧ placed.Perm values.zipIdx ∧
        placed.Pairwise fun a b => comesFirst less a b = true := by
  have perm := sortStable_perm (comesFirst less) values.zipIdx
  refine ⟨_, sortStable_zipIdx values, perm, ?_⟩
  have placedEach : ∀ placed ∈ values.zipIdx, among placed.1 :=
    fun placed member => each placed.1 (List.fst_mem_of_mem_zipIdx member)
  have descends := sortStable_pairwise orders.comesFirst placedEach
  have places : (values.zipIdx.map Prod.snd).Nodup := by
    rw [List.zipIdx_map_snd]
    exact List.nodup_range'
  have apart := List.pairwise_map.1 ((perm.map Prod.snd).nodup_iff.2 places)
  exact (apart.and descends).imp fun ⟨different, notFirst⟩ => comesFirst_of_not different notFirst

/-! ## The first of the sorted values -/

/-- No value is less than the best one that is found going through them. -/
theorem foldl_choice_least (orders : Orders less among) {best : α} {rest : List α}
    (each : ∀ value ∈ best :: rest, among value) : ∀ value ∈ best :: rest,
      less value (rest.foldl (fun best value => if less value best then value else best) best) =
        false := by
  have mem := foldl_choice_mem less
  induction rest generalizing best with
  | nil =>
      intro value member
      rw [List.mem_singleton.1 member]
      have holds := each best (.head _)
      refine Bool.eq_false_iff.2 fun below => ?_
      cases below.symm.trans (orders.asymm holds holds below)
  | cons next rest ih =>
      obtain ⟨bestHolds, others⟩ := List.forall_mem_cons.1 each
      obtain ⟨nextHolds, restHolds⟩ := List.forall_mem_cons.1 others
      rw [List.foldl_cons]
      cases below : less next best with
      | true =>
          rw [if_pos rfl]
          have least := ih others
          refine List.forall_mem_cons.2 ⟨?_, least⟩
          exact orders.trans bestHolds nextHolds (others _ (mem next rest))
            (orders.asymm nextHolds bestHolds below) (least next (.head _))
      | false =>
          rw [if_neg Bool.false_ne_true]
          have kept := List.forall_mem_cons.2 ⟨bestHolds, restHolds⟩
          have least := ih kept
          refine List.forall_mem_cons.2 ⟨least best (.head _), List.forall_mem_cons.2 ⟨?_, ?_⟩⟩
          · exact orders.trans nextHolds bestHolds (kept _ (mem best rest)) below
              (least best (.head _))
          · exact fun value member => least value (.tail _ member)

theorem map_foldl_choice {β : Type} {lessImage : β → β → Bool} {image : α → β} {best : α}
    {rest : List α} (same : (best :: rest).Pairwise fun earlier later =>
      less later earlier = lessImage (image later) (image earlier)) :
    image (rest.foldl (fun best value => if less value best then value else best) best) =
      (rest.map image).foldl (fun best value => if lessImage value best then value else best)
        (image best) := by
  induction rest generalizing best with
  | nil => rfl
  | cons next rest ih =>
      obtain ⟨first, others⟩ := List.pairwise_cons.1 same
      rw [List.foldl_cons, List.map_cons, List.foldl_cons, ← first next (.head _)]
      split
      · exact ih others
      · refine ih (List.pairwise_cons.2 ⟨fun value member => first value (.tail _ member), ?_⟩)
        exact (List.pairwise_cons.1 others).2

/-- The first of the sorted values is the first of those that no value is less than. -/
theorem head?_sortStable (orders : Orders less among) {first : α} {rest : List α}
    (each : ∀ value ∈ first :: rest, among value) : (sortStable less (first :: rest)).head? =
      some (rest.foldl (fun best value => if less value best then value else best) first) := by
  obtain ⟨placed, sorted, perm, ascends⟩ := exists_placed orders each
  have zipped : (first :: rest).zipIdx = (first, 0) :: rest.zipIdx 1 := rfl
  rw [zipped] at perm
  have same : ((first, 0) :: rest.zipIdx 1).Pairwise fun earlier later =>
      comesFirst less later earlier = less later.1 earlier.1 :=
    (pairwise_zipIdx (first :: rest)).imp comesFirst_of_place_lt
  have chosen := map_foldl_choice same
  rw [List.zipIdx_map_fst] at chosen
  have placedEach : ∀ value ∈ (first, 0) :: rest.zipIdx 1, among value.1 :=
    fun value member => each value.1 (List.fst_mem_of_mem_zipIdx (zipped ▸ member))
  have least := foldl_choice_least orders.comesFirst placedEach
  have member := foldl_choice_mem (comesFirst less) (first, 0) (rest.zipIdx 1)
  rw [← sorted, List.head?_map, ← chosen]
  generalize (rest.zipIdx 1).foldl _ (first, 0) = best at least member ⊢
  cases placed with
  | nil => cases perm.length_eq
  | cons head others =>
      have headMember := perm.subset (List.mem_cons_self (a := head) (l := others))
      rcases List.mem_cons.1 (perm.symm.subset member) with same | later
      · rw [same]
        rfl
      · -- The first of all would come before the best one, which nothing does.
        have before := (List.pairwise_cons.1 ascends).1 best later
        cases before.symm.trans (least head headMember)

end Stability

end Pipeline
