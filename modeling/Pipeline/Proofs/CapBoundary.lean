import Pipeline.Proofs.Contents
import Pipeline.Proofs.Stage

/-! Which stages the cap stops, and where. All stages that take in a whole sequence draw the same
line, between as many elements as the cap and one more. Apart from that, only a list which a
stage's own selector builds can be too long. -/

set_option autoImplicit false

namespace Pipeline

variable {cap : Nat}

/-! ## What never exceeds a limit -/

section Unlimited

variable (limit : Nat)

theorem Arithmetic.apply_ne_tooMany (op : Arithmetic) (left right : Value) :
    op.apply left right ≠ .error (.tooManyElements limit) := by
  have integers (a b : Int64) : op.onIntegers a b ≠ .error (.tooManyElements limit) := by
    unfold onIntegers
    dsimp only
    repeat' split
    all_goals simp
  have doubles (x y : Double) : op.onDoubles x y ≠ .error (.tooManyElements limit) := by
    unfold onDoubles
    repeat' split
    all_goals simp
  have decimals (a b : Decimal) : op.onDecimals a b ≠ .error (.tooManyElements limit) := by
    unfold onDecimals
    repeat' split
    all_goals simp
  have numbers (a b : Number) : op.onNumbers a b ≠ .error (.tooManyElements limit) := by
    fun_cases onNumbers op a b <;> simp [integers, doubles, decimals]
  fun_cases apply op left right <;> simp [numbers]

theorem Value.order_ne_tooMany (a b : Value) : a.order b ≠ .error (.tooManyElements limit) := by
  fun_cases Value.order a b <;> simp

theorem textsOf_ne_tooMany (items : List Value) :
    textsOf items ≠ .error (.tooManyElements limit) := by
  fun_induction textsOf items with
  | case1 => simp
  | case2 s rest ih => simp [map_eq_error, ih]
  | case3 => simp

theorem Comparator.checkColumns_ne_tooMany (as bs : List Value) :
    checkColumns as bs ≠ .error (.tooManyElements limit) := by
  fun_induction checkColumns as bs with
  | case1 a as b bs ih => simp [bind_eq_error, Value.order_ne_tooMany, ih]
  | case2 => simp

theorem Comparator.checkAgainst_ne_tooMany (keys : List Value) (all : List Keyed) :
    checkAgainst keys all ≠ .error (.tooManyElements limit) := by
  induction all with
  | nil => simp [checkAgainst]
  | cons keyed rest ih => simp [checkAgainst, bind_eq_error, checkColumns_ne_tooMany, ih]

end Unlimited

theorem foldlM_ne_error {σ : Type} {step : σ → Value → Except RunError σ} {error : RunError}
    (never : ∀ state item, step state item ≠ .error error) (items : List Value) (state : σ) :
    items.foldlM step state ≠ .error error := by
  induction items generalizing state with
  | nil => simp [pure, Except.pure]
  | cons item rest ih => simp [bind_eq_error, never, ih]

/-! ## What selectors take from all elements -/

section Selecting

variable {items : List Value}

namespace Comparator

variable {comparator : Comparator}

theorem keyed_eq_tooMany : comparator.keyed cap items = .error (.tooManyElements cap) ↔
    comparator.keyAll cap items = .error (.tooManyElements cap) := by
  refine bind_eq_error_of_ne fun all => ?_
  cases all with
  | nil => simp
  | cons first rest => simp [bind_eq_error, checkAgainst_ne_tooMany]

theorem sort_eq_tooMany : comparator.sort cap items = .error (.tooManyElements cap) ↔
    comparator.keyAll cap items = .error (.tooManyElements cap) :=
  (bind_eq_error_of_ne (by simp)).trans keyed_eq_tooMany

theorem extreme_eq_tooMany (extreme : Extreme) :
    comparator.extreme cap extreme items = .error (.tooManyElements cap) ↔
      comparator.keyAll cap items = .error (.tooManyElements cap) := by
  refine (bind_eq_error_of_ne fun keyed => ?_).trans keyed_eq_tooMany
  cases keyed <;> simp

theorem keysOf_eq_error {error : RunError} {element : Value} {keys : List SortKey}
    (failed : keysOf cap element keys = .error error) :
    ∃ key ∈ keys, key.select cap element = .error error := by
  induction keys with
  | nil => cases failed
  | cons key rest ih =>
      rcases bind_eq_error.1 failed with fails | ⟨_, _, failed⟩
      · exact ⟨key, .head _, fails⟩
      · have behind := (bind_eq_error_of_ne (by simp)).1 failed
        obtain ⟨key, member, fails⟩ := ih behind
        exact ⟨key, .tail _ member, fails⟩

theorem keyAll_eq_error {error : RunError} (failed : comparator.keyAll cap items = .error error) :
    ∃ key ∈ comparator.keys, ∃ item ∈ items, key.select cap item = .error error := by
  induction items with
  | nil => cases failed
  | cons item rest ih =>
      rcases bind_eq_error.1 failed with fails | ⟨_, _, failed⟩
      · obtain ⟨key, used, fails⟩ := keysOf_eq_error fails
        exact ⟨key, used, item, .head _, fails⟩
      · have behind := (bind_eq_error_of_ne (by simp)).1 failed
        obtain ⟨key, used, item, member, fails⟩ := ih behind
        exact ⟨key, used, item, .tail _ member, fails⟩

theorem select_eq_tooMany {key : SortKey} {element : Value}
    (failed : key.select cap element = .error (.tooManyElements cap)) :
    key.selector.select cap element = .error (.tooManyElements cap) := by
  unfold SortKey.select at failed
  split at failed
  · split at failed <;> cases failed
  · exact failed

theorem exists_selector_of_keyAll
    (failed : comparator.keyAll cap items = .error (.tooManyElements cap)) :
    ∃ selector ∈ comparator.keys.map SortKey.selector, ∃ item ∈ items,
      selector.select cap item = .error (.tooManyElements cap) := by
  obtain ⟨key, used, item, member, fails⟩ := keyAll_eq_error failed
  exact ⟨key.selector, List.mem_map_of_mem used, item, member, select_eq_tooMany fails⟩

/-- The natural order takes its keys from the elements themselves. -/
theorem natural_keyAll_ne_tooMany :
    natural.keyAll cap items ≠ .error (.tooManyElements cap) := by
  intro failed
  obtain ⟨selector, used, item, _, fails⟩ := exists_selector_of_keyAll failed
  cases List.mem_singleton.1 used
  cases fails

end Comparator

/-- The key by which an element is grouped. -/
def Selector.groupKey (cap : Nat) (selector : Selector) (element : Value) :
    Except RunError Key := do
  let value ← selector.select cap element
  match value.key? with
  | some key => .ok key
  | none => .error (.type (.groupKey value.kind))

namespace Selector

variable {selector : Selector}

theorem groupKey_eq_tooMany {element : Value} :
    selector.groupKey cap element = .error (.tooManyElements cap) ↔
      selector.select cap element = .error (.tooManyElements cap) := by
  refine bind_eq_error_of_ne fun value => ?_
  split <;> simp

theorem addToGroup_of_room {element : Value} {groups : Grouping} {size : Nat} (room : size < cap) :
    selector.addToGroup cap (groups, size) element =
      (selector.groupKey cap element).map fun key => (groups.add key element, size + 1) := by
  rw [addToGroup, if_neg (Nat.not_lt.2 room), groupKey]
  cases selector.select cap element with
  | error error => rfl
  | ok value =>
      simp only [bind, Except.bind]
      cases value.key? <;> rfl

/-- Of the elements behind those within the cap, no key is taken. -/
theorem foldlM_addToGroup (items : List Value) (groups : Grouping) {size : Nat}
    (within : size ≤ cap) :
    (items.foldlM (selector.addToGroup cap) (groups, size)).map (fun _ => ()) =
      (items.take (cap - size)).mapM (selector.groupKey cap) >>= fun _ =>
        if size + items.length ≤ cap then .ok () else .error (.tooManyElements cap) := by
  induction items generalizing groups size with
  | nil =>
      rw [List.take_nil, List.length_nil, Nat.add_zero, if_pos within]
      rfl
  | cons item rest ih =>
      rw [List.foldlM_cons]
      by_cases full : cap ≤ size
      · rw [addToGroup, if_pos (Nat.lt_succ_of_le full), Nat.sub_eq_zero_of_le full,
          if_neg (by rw [List.length_cons]; omega)]
        rfl
      · have room : cap - size = cap - (size + 1) + 1 := by omega
        have counted : size + (item :: rest).length = size + 1 + rest.length := by
          rw [List.length_cons]
          omega
        rw [addToGroup_of_room (Nat.lt_of_not_le full), room, counted, List.take_succ_cons,
          List.mapM_cons]
        cases selector.groupKey cap item with
        | error error => rfl
        | ok key =>
            have behind := ih (groups.add key item) (Nat.lt_of_not_le full)
            refine behind.trans ?_
            cases (rest.take (cap - (size + 1))).mapM (selector.groupKey cap) <;> rfl

theorem addTo_eq_tooMany {total element : Value} :
    selector.addTo cap total element = .error (.tooManyElements cap) ↔
      selector.select cap element = .error (.tooManyElements cap) := by
  refine bind_eq_error_of_ne fun value => ?_
  have added := Arithmetic.apply_ne_tooMany cap .add total value
  split
  · split <;> simp_all
  · simp

theorem exists_item_of_foldlM_addTo {total : Value}
    (failed : items.foldlM (selector.addTo cap) total = .error (.tooManyElements cap)) :
    ∃ item ∈ items, selector.select cap item = .error (.tooManyElements cap) := by
  induction items generalizing total with
  | nil => cases failed
  | cons item rest ih =>
      rw [List.foldlM_cons] at failed
      rcases bind_eq_error.1 failed with fails | ⟨_, _, failed⟩
      · exact ⟨item, .head _, addTo_eq_tooMany.1 fails⟩
      · obtain ⟨item, member, fails⟩ := ih failed
        exact ⟨item, .tail _ member, fails⟩

end Selector

end Selecting

/-! ## Stages -/

section Taking

variable {elements : Sequence} {items : List Value} {β : Type}

theorem Sequence.materialize_bind_of_le (all : elements.contents = .ok items)
    (within : items.length ≤ cap) (next : List Value → Except RunError β) :
    elements.materialize cap .never >>= next = next items := by
  rw [materialize_of_contents all, bounded, if_pos within]
  rfl

theorem Sequence.materialize_bind_of_lt (all : elements.contents = .ok items)
    (exceeds : cap < items.length) (next : List Value → Except RunError β) :
    elements.materialize cap .never >>= next = .error (.tooManyElements cap) := by
  rw [materialize_of_contents all, bounded, if_neg (Nat.not_le.2 exceeds)]
  rfl

theorem Sequence.group_eq_error (all : elements.contents = .ok items) {selector : Selector}
    {error : RunError} : elements.group cap .never selector = .error error ↔
      ((items.take cap).mapM (selector.groupKey cap) >>= fun _ => bounded cap items) =
        .error error := by
  have folded := selector.foldlM_addToGroup items [] (Nat.zero_le cap)
  rw [Nat.sub_zero, Nat.zero_add, ← consume_of_contents all] at folded
  have erased : ((items.take cap).mapM (selector.groupKey cap) >>= fun _ => bounded cap items) =
      .error error ↔ (elements.consume (selector.addToGroup cap) .never ([], 0)).map (fun _ => ()) =
        .error error := by
    rw [folded, bounded, bind_eq_error, bind_eq_error]
    split <;> simp
  rw [group, bind_eq_error_of_ne (by simp), erased, map_eq_error]

theorem Sequence.group_of_lt (all : elements.contents = .ok items) (exceeds : cap < items.length)
    (selector : Selector) : elements.group cap .never selector =
      (items.take cap).mapM (selector.groupKey cap) >>= fun _ => .error (.tooManyElements cap) := by
  cases taken : (items.take cap).mapM (selector.groupKey cap) with
  | error error | ok keys =>
      refine (group_eq_error all).2 ?_
      rw [taken, bounded, if_neg (Nat.not_le.2 exceeds)]
      rfl

theorem Sequence.count_ne_tooMany (all : elements.contents = .ok items) (limit : Nat) :
    elements.count .never ≠ .error (.tooManyElements limit) := by
  rw [count, consume_of_contents all, ne_eq, map_eq_error]
  refine foldlM_ne_error (fun size _ => ?_) items 0
  split <;> simp

end Taking

namespace Stage

/-- The stage holds all elements at once, unlike one that counts them or adds them up. -/
def takesAll : Stage → Bool
  | sorted _ | distinct | max _ | min _ | groupBy _ => true
  | collect .toList | collect .toSet | collect (.joining _) => true
  | collect .counting | collect (.summing _) | sum _ => false
  | filter _ | map _ | flatMap _ | limit _ | skip _ => false

/-- What the stage's selectors take from all elements, as far as it can fail. A sum goes on only
as long as it can be added to. -/
def selectAll (cap : Nat) (stage : Stage) (items : List Value) : Except RunError Unit :=
  match stage with
  | sorted comparator => ((comparator.getD .natural).keyAll cap items).map fun _ => ()
  | max comparator | min comparator => (comparator.keyAll cap items).map fun _ => ()
  | groupBy selector => (items.mapM (selector.groupKey cap)).map fun _ => ()
  | sum selector | collect (.summing selector) =>
    (items.foldlM (selector.addTo cap) (.integer 0)).map fun _ => ()
  | _ => .ok ()

/-- What the stage's selectors take from the elements within the cap before the next one is
refused. -/
def selectWithin (cap : Nat) (stage : Stage) (items : List Value) : Except RunError Unit :=
  match stage with
  | groupBy _ => stage.selectAll cap (items.take cap)
  | _ => .ok ()

variable {elements : Sequence} {items : List Value}

theorem onSequence_of_lt (all : elements.contents = .ok items) (exceeds : cap < items.length)
    {stage : Stage} (takes : stage.takesAll = true) :
    stage.onSequence cap .never elements =
      stage.selectWithin cap items >>= fun _ => .error (.tooManyElements cap) := by
  cases stage with
  | sorted _ | distinct | max _ | min _ =>
      simp only [onSequence, Sequence.materialize_bind_of_lt all exceeds]
      rfl
  | groupBy selector =>
      simp only [onSequence, selectWithin, selectAll]
      rw [Sequence.group_of_lt all exceeds]
      cases (items.take cap).mapM (selector.groupKey cap) <;> rfl
  | collect aggregator =>
      cases aggregator with
      | toList | toSet | joining _ =>
          simp only [onSequence, Sequence.collect, Sequence.materialize_bind_of_lt all exceeds]
          rfl
      | counting | summing _ => cases takes
  | filter _ | map _ | flatMap _ | sum _ | limit _ | skip _ => cases takes

theorem collect_eq_tooMany (all : elements.contents = .ok items) {aggregator : Aggregator}
    (room : (collect aggregator).takesAll = true → items.length ≤ cap) :
    elements.collect cap .never aggregator = .error (.tooManyElements cap) ↔
      (collect aggregator).selectAll cap items = .error (.tooManyElements cap) := by
  cases aggregator with
  | toList => simp [Sequence.collect, Sequence.materialize_bind_of_le all (room rfl), selectAll]
  | toSet =>
      simp only [Sequence.collect, Sequence.materialize_bind_of_le all (room rfl), selectAll]
      rw [bind_eq_error_of_ne (by simp), Comparator.sort_eq_tooMany]
      simp [Comparator.natural_keyAll_ne_tooMany]
  | counting => simp [Sequence.collect, Sequence.count_ne_tooMany all, selectAll]
  | joining separator =>
      simp only [Sequence.collect, Sequence.materialize_bind_of_le all (room rfl), selectAll]
      rw [bind_eq_error_of_ne (by simp)]
      simp [textsOf_ne_tooMany]
  | summing selector =>
      simp only [Sequence.collect, Sequence.sum, Sequence.consume_of_contents all, selectAll,
        map_eq_error]

theorem onSequence_eq_tooMany (all : elements.contents = .ok items) {stage : Stage}
    (room : stage.takesAll = true → items.length ≤ cap) :
    stage.onSequence cap .never elements = .error (.tooManyElements cap) ↔
      stage.selectAll cap items = .error (.tooManyElements cap) := by
  cases stage with
  | filter _ | map _ | flatMap _ | limit _ | skip _ => simp [onSequence, selectAll]
  | sorted comparator =>
      simp only [onSequence, Sequence.materialize_bind_of_le all (room rfl), selectAll,
        map_eq_error]
      exact (bind_eq_error_of_ne (by simp)).trans Comparator.sort_eq_tooMany
  | distinct =>
      simp [onSequence, Sequence.materialize_bind_of_le all (room rfl), selectAll]
  | max comparator | min comparator =>
      simp only [onSequence, Sequence.materialize_bind_of_le all (room rfl), selectAll,
        map_eq_error]
      exact (bind_eq_error_of_ne (by simp)).trans (Comparator.extreme_eq_tooMany _)
  | sum selector =>
      simp only [onSequence, Sequence.sum, Sequence.consume_of_contents all, selectAll,
        map_eq_error]
      exact bind_eq_error_of_ne (by simp)
  | groupBy selector =>
      simp only [onSequence, selectAll, map_eq_error]
      rw [bind_eq_error_of_ne (by simp), Sequence.group_eq_error all, bounded, if_pos (room rfl),
        List.take_of_length_le (room rfl)]
      exact bind_eq_error_of_ne (by simp)
  | collect aggregator =>
      simp only [onSequence]
      exact (bind_eq_error_of_ne (by simp)).trans (collect_eq_tooMany all room)

theorem exists_selector_of_selectAll {stage : Stage}
    (failed : stage.selectAll cap items = .error (.tooManyElements cap)) :
    ∃ selector ∈ stage.selectors, ∃ item ∈ items,
      selector.select cap item = .error (.tooManyElements cap) := by
  cases stage with
  | sorted comparator =>
      have taken := map_eq_error.1 failed
      cases comparator with
      | none => exact absurd taken Comparator.natural_keyAll_ne_tooMany
      | some comparator => exact Comparator.exists_selector_of_keyAll taken
  | max comparator | min comparator =>
      exact Comparator.exists_selector_of_keyAll (map_eq_error.1 failed)
  | sum selector =>
      exact ⟨selector, .head _, Selector.exists_item_of_foldlM_addTo (map_eq_error.1 failed)⟩
  | groupBy selector =>
      obtain ⟨_, item, found, fails, _⟩ := mapM_eq_error_iff.1 (map_eq_error.1 failed)
      exact ⟨selector, .head _, item, List.mem_of_getElem? found,
        Selector.groupKey_eq_tooMany.1 fails⟩
  | collect aggregator =>
      cases aggregator with
      | summing selector =>
          exact ⟨selector, .head _, Selector.exists_item_of_foldlM_addTo (map_eq_error.1 failed)⟩
      | toList | toSet | counting | joining _ => cases failed
  | filter _ | map _ | flatMap _ | distinct | limit _ | skip _ => cases failed

end Stage

/-- All stages that take in a whole sequence, and the end of a chain, refuse more elements than the
cap, before they look at them together; only the keys of groups are taken one by one before. Beyond
that no stage refuses elements for their number, but for the length of a list that one of its own
selectors builds from an element. -/
theorem Stage.tooMany_of_contents {elements : Sequence} {items : List Value}
    (all : elements.contents = .ok items) (cap : Nat) :
    ((Flow.sequence elements).finish cap .never = .error (.tooManyElements cap) ↔
        cap < items.length) ∧
      ∀ stage : Stage,
        (stage.takesAll = true → cap < items.length → stage.onSequence cap .never elements =
          stage.selectWithin cap items >>= fun _ => .error (.tooManyElements cap)) ∧
        ((stage.takesAll = true → items.length ≤ cap) →
          (stage.onSequence cap .never elements = .error (.tooManyElements cap) ↔
            stage.selectAll cap items = .error (.tooManyElements cap))) ∧
        (stage.selectAll cap items = .error (.tooManyElements cap) →
          ∃ selector ∈ stage.selectors, ∃ item ∈ items,
            selector.select cap item = .error (.tooManyElements cap)) := by
  constructor
  · rw [Flow.finish, map_eq_error, Sequence.materialize_of_contents all, bounded]
    split <;> simp <;> omega
  · intro stage
    exact ⟨fun takes exceeds => stage.onSequence_of_lt all exceeds takes,
      stage.onSequence_eq_tooMany all, stage.exists_selector_of_selectAll⟩

/-- Of three integers, two are within the cap: a key that fails on the second one is seen, one that
fails on the third is not. -/
theorem Stage.tooMany_of_contents_three :
    let share (free : Int64) : Stage := .groupBy (.lambda ⟨"x", .binary (.arithmetic .divide)
      (.literal (.number (.integer 6))) (.binary (.arithmetic .subtract) (.reference "x")
        (.literal (.number (.integer free))))⟩)
    let elements := Sequence.consecutive 1 3
    elements.contents = .ok [.integer 1, .integer 2, .integer 3] ∧
      (Flow.sequence elements).finish 2 .never = .error (.tooManyElements 2) ∧
      (share 2).onSequence 2 .never elements = .error .divisionByZero ∧
      (share 3).onSequence 2 .never elements = .error (.tooManyElements 2) := by
  intro share elements
  have all : elements.contents = .ok [.integer 1, .integer 2, .integer 3] := by rfl
  have ⟨drain, stages⟩ := Stage.tooMany_of_contents all 2
  refine ⟨all, drain.2 (by decide), ?_, ?_⟩
  · rw [(stages (share 2)).1 rfl (by decide)]
    rfl
  · rw [(stages (share 3)).1 rfl (by decide)]
    rfl

/-- One element is not too many for any stage, but a selector may build a list for it that is. -/
theorem Stage.tooMany_of_selector :
    let length : Selector := .lambda ⟨"x", .method (.call "range"
      [.literal (.number (.integer 0)), .literal (.number (.integer 4))]) "length" []⟩
    let items : List Value := [.integer 1]
    ¬ 3 < items.length ∧
      (Stage.max ⟨[⟨length, .ascending⟩]⟩).onSequence 3 .never (.ofList items) =
        .error (.tooManyElements 3) ∧
      (Stage.sum length).onSequence 3 .never (.ofList items) = .error (.tooManyElements 3) := by
  intro length items
  exact ⟨by decide, by rfl, by rfl⟩

end Pipeline
