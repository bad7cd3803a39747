import Pipeline.Proofs.Dense

/-! All that a lazy sequence puts out. A sequence behind a combinator comes to its end without a
failure exactly if the one in front does and nothing fails on its elements. -/

set_option autoImplicit false

namespace Pipeline

/-- The items for which a test holds, where all of them are tested. -/
def passing (test : Value → Except RunError Bool) : List Value → Except RunError (List Value)
  | [] => .ok []
  | item :: rest => do
    let passed ← test item
    let others ← passing test rest
    .ok (if passed then item :: others else others)

theorem passing_cons_eq_ok {test : Value → Except RunError Bool} {item : Value}
    {rest kept : List Value} : passing test (item :: rest) = .ok kept ↔
      ∃ passed others, test item = .ok passed ∧ passing test rest = .ok others ∧
        (if passed then item :: others else others) = kept := by
  simp only [passing, bind_eq_ok, Except.ok.injEq, exists_and_left]

theorem mapM_cons_eq_ok {α : Type} {image : Value → Except RunError α} {item : Value}
    {rest : List Value} {images : List α} : (item :: rest).mapM image = .ok images ↔
      ∃ first others, image item = .ok first ∧ rest.mapM image = .ok others ∧
        first :: others = images := by
  simp only [List.mapM_cons, bind_eq_ok, pure, Except.pure, Except.ok.injEq, exists_and_left]

/-- The items as they are, if they are not more than the cap. -/
def bounded (cap : Nat) (items : List Value) : Except RunError (List Value) :=
  if items.length ≤ cap then .ok items else .error (.tooManyElements cap)

namespace Sequence

/-- All elements of a sequence, or the failure that it ends in. -/
def contents : Sequence → Except RunError (List Value)
  | done => .ok []
  | fail error => .error error
  | skip rest => (rest ()).contents
  | yield value rest => (rest ()).contents.map (value :: ·)

theorem contents_yield_eq_ok {value : Value} {rest : Unit → Sequence} {items : List Value} :
    (yield value rest).contents = .ok items ↔
      ∃ others, (rest ()).contents = .ok others ∧ value :: others = items :=
  map_eq_ok

theorem contents_ofList (items : List Value) : (ofList items).contents = .ok items := by
  induction items with
  | nil => rfl
  | cons value rest ih =>
      rw [ofList, contents, ih]
      rfl

/-- Consecutive integers come as from a list, element by element. -/
theorem consecutive_eq_ofList (first : Int) (count : Nat) : consecutive first count =
    ofList ((List.range count).map fun (step : Nat) => .integer (Int64.ofInt (first + step))) := by
  induction count generalizing first with
  | zero => rfl
  | succ count ih =>
      have shift : ∀ step : Nat, first + 1 + step = first + (step + 1 : Nat) := by
        intro step
        omega
      rw [consecutive, List.range_succ_eq_map]
      simp [ofList, ih, shift, Function.comp_def]

theorem contents_consecutive (first : Int) (count : Nat) :
    (consecutive first count).contents =
      .ok ((List.range count).map fun (step : Nat) => .integer (Int64.ofInt (first + step))) := by
  rw [consecutive_eq_ofList, contents_ofList]

theorem contents_filter_eq_ok {test : Value → Except RunError Bool} {sequence : Sequence}
    {kept : List Value} : (sequence.filter test).contents = .ok kept ↔
      ∃ items, sequence.contents = .ok items ∧ passing test items = .ok kept := by
  induction sequence generalizing kept with
  | done => simp [filter, contents, passing]
  | fail error => simp [filter, contents]
  | skip rest ih => exact ih ()
  | yield value rest ih =>
      simp only [filter, contents_yield_eq_ok]
      constructor
      · intro whole
        split at whole
        · rename_i tested
          obtain ⟨others, behind, rfl⟩ := contents_yield_eq_ok.1 whole
          obtain ⟨items, all, tests⟩ := (ih ()).1 behind
          exact ⟨_, ⟨items, all, rfl⟩, passing_cons_eq_ok.2 ⟨true, others, tested, tests, rfl⟩⟩
        · rename_i tested
          obtain ⟨items, all, tests⟩ := (ih ()).1 whole
          exact ⟨_, ⟨items, all, rfl⟩, passing_cons_eq_ok.2 ⟨false, kept, tested, tests, rfl⟩⟩
        · cases whole
      · rintro ⟨_, ⟨items, all, rfl⟩, tests⟩
        obtain ⟨passed, others, tested, later, rfl⟩ := passing_cons_eq_ok.1 tests
        have behind : ((rest ()).filter test).contents = .ok others := (ih ()).2 ⟨items, all, later⟩
        rw [tested]
        cases passed with
        | true => exact contents_yield_eq_ok.2 ⟨others, behind, rfl⟩
        | false => exact behind

theorem contents_map_eq_ok {image : Value → Except RunError Value} {sequence : Sequence}
    {images : List Value} : (sequence.map image).contents = .ok images ↔
      ∃ items, sequence.contents = .ok items ∧ items.mapM image = .ok images := by
  induction sequence generalizing images with
  | done => simp [map, contents, pure, Except.pure]
  | fail error => simp [map, contents]
  | skip rest ih => exact ih ()
  | yield value rest ih =>
      simp only [map, contents_yield_eq_ok]
      constructor
      · intro whole
        split at whole
        · rename_i result mapped
          obtain ⟨others, behind, rfl⟩ := contents_yield_eq_ok.1 whole
          obtain ⟨items, all, maps⟩ := (ih ()).1 behind
          exact ⟨_, ⟨items, all, rfl⟩, mapM_cons_eq_ok.2 ⟨result, others, mapped, maps, rfl⟩⟩
        · cases whole
      · rintro ⟨_, ⟨items, all, rfl⟩, maps⟩
        obtain ⟨result, others, mapped, later, rfl⟩ := mapM_cons_eq_ok.1 maps
        rw [mapped]
        exact contents_yield_eq_ok.2 ⟨others, (ih ()).2 ⟨items, all, later⟩, rfl⟩

theorem contents_append_eq_ok {second : Unit → Sequence} {sequence : Sequence}
    {all : List Value} : (sequence.append second).contents = .ok all ↔
      ∃ items behind, sequence.contents = .ok items ∧ (second ()).contents = .ok behind ∧
        items ++ behind = all := by
  induction sequence generalizing all with
  | done => simp [append, contents]
  | fail error => simp [append, contents]
  | skip rest ih => exact ih ()
  | yield value rest ih =>
      simp only [append, contents_yield_eq_ok, ih]
      constructor
      · rintro ⟨_, ⟨items, behind, own, others, rfl⟩, rfl⟩
        exact ⟨_, behind, ⟨items, own, rfl⟩, others, rfl⟩
      · rintro ⟨_, behind, ⟨items, own, rfl⟩, others, rfl⟩
        exact ⟨_, ⟨items, behind, own, others, rfl⟩, rfl⟩

theorem contents_flatMap_eq_ok {expand : Value → Except RunError Sequence} {sequence : Sequence}
    {all : List Value} : (sequence.flatMap expand).contents = .ok all ↔
      ∃ items lists, sequence.contents = .ok items ∧
        items.mapM (fun item => expand item >>= contents) = .ok lists ∧ lists.flatten = all := by
  induction sequence generalizing all with
  | done => simp [flatMap, contents, pure, Except.pure]
  | fail error => simp [flatMap, contents]
  | skip rest ih => exact ih ()
  | yield value rest ih =>
      simp only [flatMap, contents_yield_eq_ok]
      constructor
      · intro whole
        split at whole
        · rename_i inner expanded
          obtain ⟨own, behind, first, others, rfl⟩ := contents_append_eq_ok.1 whole
          obtain ⟨items, lists, found, expansions, rfl⟩ := (ih ()).1 others
          have list : expand value >>= contents = .ok own := bind_eq_ok.2 ⟨inner, expanded, first⟩
          exact ⟨_, own :: lists, ⟨items, found, rfl⟩,
            mapM_cons_eq_ok.2 ⟨own, lists, list, expansions, rfl⟩, rfl⟩
        · cases whole
      · rintro ⟨_, _, ⟨items, found, rfl⟩, expansions, rfl⟩
        obtain ⟨own, lists, list, later, rfl⟩ := mapM_cons_eq_ok.1 expansions
        obtain ⟨inner, expanded, first⟩ := bind_eq_ok.1 list
        rw [expanded]
        exact contents_append_eq_ok.2
          ⟨own, lists.flatten, first, (ih ()).2 ⟨items, lists, found, later, rfl⟩, rfl⟩

/-- Only one way: the elements that are not asked for may fail. -/
theorem contents_take {sequence : Sequence} {items : List Value}
    (all : sequence.contents = .ok items) (count : Nat) :
    (sequence.take count).contents = .ok (items.take count) := by
  induction sequence generalizing items count with
  | done =>
      cases all
      cases count <;> rfl
  | fail error => cases all
  | skip rest ih =>
      cases count with
      | zero => rfl
      | succ count => exact ih () all (count + 1)
  | yield value rest ih =>
      obtain ⟨others, behind, rfl⟩ := contents_yield_eq_ok.1 all
      cases count with
      | zero => rfl
      | succ count => exact contents_yield_eq_ok.2 ⟨_, ih () behind count, rfl⟩

theorem contents_drop_eq_ok {sequence : Sequence} {count : Nat} {left : List Value} :
    (sequence.drop count).contents = .ok left ↔
      ∃ items, sequence.contents = .ok items ∧ items.drop count = left := by
  induction sequence generalizing count left with
  | done => cases count <;> simp [drop, contents]
  | fail error => cases count <;> simp [drop, contents]
  | skip rest ih => cases count <;> exact ih ()
  | yield value rest ih =>
      cases count with
      | zero => simp [drop]
      | succ count =>
          rw [drop, contents, ih]
          constructor
          · rintro ⟨items, all, same⟩
            exact ⟨_, contents_yield_eq_ok.2 ⟨items, all, rfl⟩, same⟩
          · rintro ⟨_, all, same⟩
            obtain ⟨items, behind, rfl⟩ := contents_yield_eq_ok.1 all
            exact ⟨items, behind, same⟩

/-! ## Loops -/

/-- One step of a loop: what has no room is refused. -/
def takeStep {σ : Type} (room : σ → Option RunError) (accept : σ → Value → Except RunError σ)
    (state : σ) (value : Value) : Except RunError σ :=
  match room state with
  | some refusal => .error refusal
  | none => accept state value

variable {σ : Type} {room : σ → Option RunError} {accept : σ → Value → Except RunError σ}

theorem drain_of_contents {sequence : Sequence} {items : List Value}
    (all : sequence.contents = .ok items) (state : σ) :
    sequence.drain room accept .never state = items.foldlM (takeStep room accept) state := by
  induction sequence generalizing items state with
  | done =>
      cases all
      rfl
  | fail error => cases all
  | skip rest ih => exact ih () all state
  | yield value rest ih =>
      obtain ⟨others, behind, rfl⟩ := contents_yield_eq_ok.1 all
      rw [List.foldlM_cons, takeStep]
      simp only [drain, CancelToken.never, CancelToken.step?]
      cases room state with
      | some refusal => rfl
      | none =>
          cases accept state value with
          | error error => rfl
          | ok next => exact ih () behind next

/-- A loop that comes to its end has taken in everything. -/
theorem contents_of_drain {sequence : Sequence} {token : CancelToken} {state last : σ}
    (drained : sequence.drain room accept token state = .ok last) :
    ∃ items, sequence.contents = .ok items ∧
      items.foldlM (takeStep room accept) state = .ok last := by
  induction sequence generalizing token state with
  | done => exact ⟨[], rfl, drained⟩
  | fail error =>
      rw [drain] at drained
      split at drained <;> cases drained
  | skip rest ih =>
      rw [drain] at drained
      split at drained
      · cases drained
      · exact ih () drained
  | yield value rest ih =>
      rw [drain] at drained
      split at drained
      · cases drained
      · cases drained
      · rename_i free
        split at drained
        · rename_i next accepted
          obtain ⟨others, behind, folded⟩ := ih () drained
          refine ⟨_, contents_yield_eq_ok.2 ⟨others, behind, rfl⟩, ?_⟩
          rw [List.foldlM_cons, takeStep, free]
          exact bind_eq_ok.2 ⟨next, accepted, folded⟩
        · cases drained

theorem consume_of_contents {sequence : Sequence} {items : List Value}
    (all : sequence.contents = .ok items) (state : σ) :
    sequence.consume accept .never state = items.foldlM accept state :=
  drain_of_contents all state

theorem contents_of_consume {sequence : Sequence} {token : CancelToken} {state last : σ}
    (consumed : sequence.consume accept token state = .ok last) :
    ∃ items, sequence.contents = .ok items ∧ items.foldlM accept state = .ok last :=
  contents_of_drain consumed

/-! A list is taken in as a whole, or the first item beyond the cap is refused. -/

private def takeIn (cap : Nat) : List Value × Nat → Value → Except RunError (List Value × Nat) :=
  takeStep (fun state => capRoom cap state.2) fun (items, size) value =>
    .ok (value :: items, size + 1)

private theorem foldlM_takeIn {cap : Nat} (items before : List Value) {size : Nat}
    (within : size ≤ cap) : items.foldlM (takeIn cap) (before, size) =
      if size + items.length ≤ cap then .ok (items.reverse ++ before, size + items.length)
      else .error (.tooManyElements cap) := by
  induction items generalizing before size with
  | nil =>
      rw [List.length_nil, Nat.add_zero, if_pos within]
      rfl
  | cons item rest ih =>
      rw [List.foldlM_cons, takeIn, takeStep, capRoom]
      by_cases full : cap ≤ size
      · rw [if_pos full, if_neg (by rw [List.length_cons]; omega)]
        rfl
      · rw [if_neg full]
        have counted : size.succ + rest.length = size + (rest.length + 1) := by omega
        refine (ih (item :: before) (Nat.lt_of_not_le full)).trans ?_
        rw [counted, List.length_cons, List.reverse_cons, List.append_assoc]
        rfl

theorem materialize_of_contents {cap : Nat} {sequence : Sequence} {items : List Value}
    (all : sequence.contents = .ok items) :
    sequence.materialize cap .never = bounded cap items := by
  have folded := (drain_of_contents all ([], 0)).trans (foldlM_takeIn items [] (Nat.zero_le cap))
  rw [materialize, folded, bounded, Nat.zero_add]
  split
  · simp [Except.map]
  · rfl

theorem materialize_ofList {cap : Nat} {items : List Value} (within : items.length ≤ cap) :
    (ofList items).materialize cap .never = .ok items := by
  rw [materialize_of_contents (contents_ofList items), bounded, if_pos within]

theorem contents_of_materialize {cap : Nat} {sequence : Sequence} {token : CancelToken}
    {items : List Value} (taken : sequence.materialize cap token = .ok items) :
    sequence.contents = .ok items ∧ bounded cap items = .ok items := by
  obtain ⟨⟨reversed, size⟩, drained, rfl⟩ := map_eq_ok.1 taken
  obtain ⟨items, all, folded⟩ := contents_of_drain drained
  have whole := (foldlM_takeIn items [] (Nat.zero_le cap)).symm.trans folded
  rw [Nat.zero_add] at whole
  split at whole
  · rename_i within
    cases whole
    simp only [List.append_nil, List.reverse_reverse]
    exact ⟨all, if_pos within⟩
  · cases whole

end Sequence

end Pipeline
