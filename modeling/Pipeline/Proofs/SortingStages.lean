import Pipeline.Proofs.Columns
import Pipeline.Proofs.Contents

/-! What the stages that compare elements put out. Sorting arranges the elements in the order of the
columns, those without a difference as they came in, and the extremes are the first of the elements
so arranged. -/

set_option autoImplicit false

namespace Pipeline

/-! ## Sorting by columns -/

namespace Comparator

section Sorting

variable {cap : Nat} {comparator : Comparator} {items sorted : List Value}

theorem unmixed_of_integers (integers : ∀ key ∈ comparator.keys, ∀ item ∈ items,
    ∃ n, key.select cap item = .ok (.integer n)) : comparator.Unmixed cap items := by
  intro key used _ _ item member n x _ float
  obtain ⟨m, integer⟩ := integers key used item member
  cases integer.symm.trans float

theorem sort_eq_ok : comparator.sort cap items = .ok sorted ↔
    ∃ all, comparator.keyed cap items = .ok all ∧
      (sortStable (fun a b => comparator.compareKeyed a b == .lt) all).map Keyed.element =
        sorted := by
  simp only [sort, bind_eq_ok, Except.ok.injEq]

theorem sort_eq_error {error : RunError} : comparator.sort cap items = .error error ↔
    comparator.keyed cap items = .error error := by
  rw [sort]
  cases comparator.keyed cap items <;> simp [bind, Except.bind]

theorem sort_perm (done : comparator.sort cap items = .ok sorted) : sorted.Perm items := by
  obtain ⟨all, keyed, rfl⟩ := sort_eq_ok.1 done
  rw [← elements_of_keyed keyed]
  exact (sortStable_perm _ all).map Keyed.element

/-- Whether an element comes before another behind the sorting, each with its place in front of
it. -/
def Precedes (cap : Nat) (comparator : Comparator) (a b : Value × Nat) : Prop :=
  comparator.order cap a.1 b.1 = .ok .lt ∨
    comparator.order cap a.1 b.1 = .ok .eq ∧ a.2 < b.2

theorem sort_placed (done : comparator.sort cap items = .ok sorted)
    (unmixed : comparator.Unmixed cap items) : ∃ placed : List (Value × Nat),
      placed.map Prod.fst = sorted ∧ placed.Perm items.zipIdx ∧
        placed.Pairwise (comparator.Precedes cap) := by
  obtain ⟨all, keyed, rfl⟩ := sort_eq_ok.1 done
  have ordered := (transCmp_of_keyed keyed unmixed).2
  obtain ⟨placed, same, perm, ascends⟩ :=
    exists_placed (orders_of_keyed keyed unmixed) fun _ member => member
  refine ⟨placed.map (Prod.map Keyed.element id), ?_, ?_, ?_⟩
  · rw [← same, List.map_map, List.map_map]
    rfl
  · rw [← elements_of_keyed keyed, List.zipIdx_map]
    exact perm.map _
  · have within : ∀ each ∈ placed, each.1 ∈ all := fun each member =>
      List.fst_mem_of_mem_zipIdx (perm.subset member)
    refine List.pairwise_map.2 (ascends.imp_of_mem fun {a b} memberA memberB first => ?_)
    have order := ordered a.1 (within a memberA) b.1 (within b memberB)
    rcases comesFirst_iff.1 first with below | ⟨notAbove, place⟩
    · exact .inl (order.trans (congrArg Except.ok (beq_iff_eq.1 below)))
    · have swapped := compareKeyed_swap keyed unmixed (within a memberA) (within b memberB)
      cases compared : comparator.compareKeyed a.1 b.1 with
      | lt => exact .inl (order.trans (congrArg Except.ok compared))
      | eq => exact .inr ⟨order.trans (congrArg Except.ok compared), place⟩
      | gt =>
          rw [swapped, compared] at notAbove
          cases notAbove

end Sorting

end Comparator

/-! ## The other end of the order -/

/-- The first of some elements as an extreme of them. -/
def Extreme.first (extreme : Extreme) : List Value → Except RunError Value
  | [] => .error (.emptyInput extreme)
  | value :: _ => .ok value

theorem Extreme.first_eq_error {extreme : Extreme} {sorted : Except RunError (List Value)}
    {error : RunError} : sorted >>= extreme.first = .error error ↔
      sorted = .error error ∨ sorted = .ok [] ∧ error = .emptyInput extreme := by
  rcases sorted with other | ⟨_ | ⟨value, rest⟩⟩ <;>
    simp [bind, Except.bind, first, eq_comm]

theorem Extreme.first_eq_ok {extreme : Extreme} {sorted : Except RunError (List Value)}
    {value : Value} : sorted >>= extreme.first = .ok value ↔
      ∃ rest, sorted = .ok (value :: rest) := by
  rcases sorted with other | ⟨_ | ⟨value, rest⟩⟩ <;> simp [bind, Except.bind, first]

def Extreme.stage : Extreme → Comparator → Stage
  | max => .max
  | min => .min

def SortKey.reversed (key : SortKey) : SortKey :=
  { key with direction := key.direction.reversed }

def Comparator.reversed (comparator : Comparator) : Comparator where
  keys := comparator.keys.map SortKey.reversed

namespace Comparator

section Reversed

variable {cap : Nat} {comparator : Comparator} {items : List Value}

theorem keysOf_reversed (element : Value) (keys : List SortKey) :
    keysOf cap element (keys.map SortKey.reversed) = keysOf cap element keys := by
  induction keys with
  | nil => rfl
  | cons key rest ih =>
      rw [List.map_cons, keysOf, keysOf, ih]
      rfl

theorem keyAll_reversed : comparator.reversed.keyAll cap items = comparator.keyAll cap items := by
  induction items with
  | nil => rfl
  | cons item rest ih => rw [keyAll, keyAll, ih, reversed, keysOf_reversed]

theorem keyed_reversed : comparator.reversed.keyed cap items = comparator.keyed cap items := by
  rw [keyed, keyed, keyAll_reversed]

theorem compareKeys_reversed (keys : List SortKey) (as bs : List Value) :
    compareKeys (keys.map SortKey.reversed) as bs = (compareKeys keys as bs).swap := by
  induction keys generalizing as bs with
  | nil => simp [compareKeys]
  | cons key rest ih =>
      cases as with
      | nil => simp [compareKeys]
      | cons a as =>
          cases bs with
          | nil => simp [compareKeys]
          | cons b bs =>
              rw [List.map_cons, compareKeys_cons, compareKeys_cons, Ordering.swap_then, ← ih,
                SortKey.reversed, Direction.turn_reversed]

theorem compareKeyed_reversed (a b : Keyed) :
    comparator.reversed.compareKeyed a b = (comparator.compareKeyed a b).swap :=
  compareKeys_reversed _ _ _

theorem Unmixed.reversed (unmixed : comparator.Unmixed cap items) :
    comparator.reversed.Unmixed cap items := by
  intro key used
  obtain ⟨key, given, rfl⟩ := List.mem_map.1 used
  exact unmixed key given

end Reversed

/-- The comparator by which the elements at one end of the order come first. -/
def toward (comparator : Comparator) : Extreme → Comparator
  | .min => comparator
  | .max => comparator.reversed

section Extremes

variable {cap : Nat} {comparator : Comparator} {items : List Value}

theorem beats_eq (extreme : Extreme) (a b : Keyed) : comparator.beats extreme a b =
    ((comparator.toward extreme).compareKeyed a b == .lt) := by
  cases extreme with
  | min => rfl
  | max =>
      rw [beats, toward, compareKeyed_reversed]
      cases comparator.compareKeyed a b <;> rfl

theorem keyed_toward (extreme : Extreme) :
    (comparator.toward extreme).keyed cap items = comparator.keyed cap items := by
  cases extreme with
  | min => rfl
  | max => exact keyed_reversed

theorem Unmixed.toward (unmixed : comparator.Unmixed cap items) (extreme : Extreme) :
    (comparator.toward extreme).Unmixed cap items := by
  cases extreme with
  | min => exact unmixed
  | max => exact unmixed.reversed

theorem extreme_eq (unmixed : comparator.Unmixed cap items) (extreme : Extreme) :
    comparator.extreme cap extreme items =
      (comparator.toward extreme).sort cap items >>= extreme.first := by
  rw [Comparator.extreme, sort, keyed_toward, bind_assoc]
  cases keyed : comparator.keyed cap items with
  | error error => rfl
  | ok all =>
      cases all with
      | nil => rfl
      | cons head rest =>
          have orders := orders_of_keyed ((keyed_toward extreme).trans keyed)
            (unmixed.toward extreme)
          have chosen := head?_sortStable orders fun _ member => member
          simp only [← beats_eq] at chosen
          obtain ⟨others, sorted⟩ := List.head?_eq_some_iff.1 chosen
          change Except.ok _ = extreme.first ((sortStable _ (head :: rest)).map Keyed.element)
          simp only [← beats_eq]
          rw [sorted]
          rfl

end Extremes

end Comparator

/-! ## What chains of one stage put out -/

namespace Sequence

section Lists

variable {cap : Nat} {token : CancelToken} {items others taken : List Value}

theorem eq_of_materialize (done : (ofList items).materialize cap token = .ok taken) :
    taken = items :=
  Except.ok.inj ((contents_of_materialize done).1.symm.trans (contents_ofList items))

/-- A loop that refuses elements by their number only comes to an end for all lists of a length or
for none. -/
theorem exists_drain_of_length_eq {σ : Type} {room : σ → Option RunError}
    {accept : σ → Value → Except RunError σ} (size : σ → Nat)
    (refuses : ∀ a b, size a = size b → room a = room b)
    (accepts : ∀ state value, ∃ next, accept state value = .ok next ∧ size next = size state + 1)
    {state stateOthers last : σ} (sizes : size state = size stateOthers)
    (same : others.length = items.length)
    (done : (ofList items).drain room accept token state = .ok last) :
    ∃ lastOthers, (ofList others).drain room accept token stateOthers = .ok lastOthers := by
  induction items generalizing others token state stateOthers with
  | nil =>
      rw [List.eq_nil_of_length_eq_zero same]
      exact ⟨_, rfl⟩
  | cons item rest ih =>
      obtain ⟨other, restOthers, rfl⟩ := List.exists_cons_of_length_eq_add_one same
      obtain ⟨next, accepted, counted⟩ := accepts state item
      obtain ⟨nextOthers, acceptedOthers, countedOthers⟩ := accepts stateOthers other
      rw [ofList, drain] at done ⊢
      rw [← refuses state stateOthers sizes]
      cases step : token.step? with
      | none =>
          rw [step] at done
          cases done
      | some token =>
          cases room : room state with
          | some refusal =>
              rw [step, room] at done
              cases done
          | none =>
              simp only [step, room, accepted] at done
              simp only [acceptedOthers]
              exact ih (by omega) (Nat.succ.inj same) done

theorem materialize_of_length_eq (same : others.length = items.length)
    (done : (ofList items).materialize cap token = .ok taken) :
    (ofList others).materialize cap token = .ok others := by
  obtain ⟨last, first, -⟩ := map_eq_ok.1 done
  have start : Prod.snd (([] : List Value), 0) = Prod.snd (([] : List Value), 0) := rfl
  obtain ⟨behind, all⟩ := exists_drain_of_length_eq Prod.snd
    (fun _ _ => congrArg (capRoom cap)) (fun _ _ => ⟨_, rfl, rfl⟩) start same first
  have whole : (ofList others).materialize cap token = .ok behind.1.reverse :=
    congrArg (Except.map _) all
  rw [whole, eq_of_materialize whole]

end Lists

end Sequence

namespace Chain

section Runs

variable (cap : Nat) (token : CancelToken) (input : List Value)

theorem run_sorted (comparator : Option Comparator) :
    Chain.run cap token [.sorted comparator] input =
      ((Sequence.ofList input).materialize cap token >>=
        (comparator.getD .natural).sort cap).map .list := by
  simp only [Chain.run, through, Flow.apply, Stage.onSequence, bind_assoc]
  cases taken : (Sequence.ofList input).materialize cap token with
  | error error => rfl
  | ok items =>
      cases done : (comparator.getD .natural).sort cap items with
      | error error => simp [bind, Except.bind, Except.map, done]
      | ok sorted =>
          have length := (Comparator.sort_perm done).length_eq
          rw [Sequence.eq_of_materialize taken] at length
          have again := Sequence.materialize_of_length_eq length taken
          simp [bind, Except.bind, Except.map, done, Flow.finish, again]

theorem run_extreme (extreme : Extreme) (comparator : Comparator) :
    Chain.run cap token [extreme.stage comparator] input =
      (Sequence.ofList input).materialize cap token >>= comparator.extreme cap extreme := by
  cases taken : (Sequence.ofList input).materialize cap token with
  | error error =>
      cases extreme <;> simp [Chain.run, through, Flow.apply, Extreme.stage, Stage.onSequence,
        taken, bind, Except.bind]
  | ok items =>
      cases done : comparator.extreme cap extreme items <;> cases extreme <;>
        simp [Chain.run, through, Flow.apply, Flow.finish, Extreme.stage, Stage.onSequence, taken,
          bind, Except.bind, done]

end Runs

section Results

variable {cap : Nat} {token : CancelToken} {input : List Value}

/-- Sorting puts out all elements in the order of the columns, each in its direction, and those
that differ in no column as they came in. -/
theorem run_sorted_stable {comparator : Option Comparator} {value : Value}
    (ran : Chain.run cap token [.sorted comparator] input = .ok value)
    (unmixed : (comparator.getD .natural).Unmixed cap input) :
    ∃ sorted : List Value, value = .list sorted ∧ sorted.Perm input ∧
      (sorted.Pairwise fun a b => ∃ order,
        (comparator.getD .natural).order cap a b = .ok order ∧ order ≠ .gt) ∧
      ∃ placed : List (Value × Nat), placed.map Prod.fst = sorted ∧ placed.Perm input.zipIdx ∧
        placed.Pairwise ((comparator.getD .natural).Precedes cap) := by
  rw [run_sorted] at ran
  obtain ⟨sorted, whole, rfl⟩ := map_eq_ok.1 ran
  obtain ⟨items, taken, done⟩ := bind_eq_ok.1 whole
  cases Sequence.eq_of_materialize taken
  obtain ⟨placed, rfl, perm, precedes⟩ := Comparator.sort_placed done unmixed
  refine ⟨_, rfl, Comparator.sort_perm done, ?_, placed, rfl, perm, precedes⟩
  refine List.pairwise_map.2 (precedes.imp fun {a b} before => ?_)
  rcases before with less | ⟨equal, -⟩
  · exact ⟨_, less, by decide⟩
  · exact ⟨_, equal, by decide⟩

theorem run_sorted_stable_parity :
    let parity : Selector := .lambda ⟨"x", .binary (.arithmetic .modulo) (.reference "x")
      (.literal (.number (.integer 2)))⟩
    let tens : Selector := .lambda ⟨"x", .binary (.arithmetic .divide) (.reference "x")
      (.literal (.number (.integer 10)))⟩
    let comparator : Comparator := ⟨[⟨parity, .descending⟩, ⟨tens, .ascending⟩]⟩
    let input : List Value := [.integer 21, .integer 12, .integer 15, .integer 10, .integer 3]
    let output : List Value := [.integer 3, .integer 15, .integer 21, .integer 12, .integer 10]
    Chain.run 5 ⟨some 5⟩ [.sorted (some comparator)] input = .ok (.list output) ∧
      comparator.Unmixed 5 input ∧
      ∃ sorted : List Value, .list output = Value.list sorted ∧ sorted.Perm input ∧
        (sorted.Pairwise fun a b => ∃ order,
          comparator.order 5 a b = .ok order ∧ order ≠ .gt) ∧
        ∃ placed : List (Value × Nat), placed.map Prod.fst = sorted ∧
          placed.Perm input.zipIdx ∧ placed.Pairwise (comparator.Precedes 5) := by
  intro parity tens comparator input output
  have ran : Chain.run 5 ⟨some 5⟩ [.sorted (some comparator)] input = .ok (.list output) := rfl
  have unmixed : comparator.Unmixed 5 input := by
    refine Comparator.unmixed_of_integers ?_
    simp only [comparator, input, List.forall_mem_cons, List.not_mem_nil, false_implies,
      implies_true, and_true]
    exact ⟨⟨⟨1, rfl⟩, ⟨0, rfl⟩, ⟨1, rfl⟩, ⟨0, rfl⟩, ⟨1, rfl⟩⟩,
      ⟨2, rfl⟩, ⟨1, rfl⟩, ⟨1, rfl⟩, ⟨1, rfl⟩, ⟨0, rfl⟩⟩
  exact ⟨ran, unmixed, run_sorted_stable ran unmixed⟩

theorem run_extreme_eq {comparator : Comparator} (unmixed : comparator.Unmixed cap input)
    (extreme : Extreme) : Chain.run cap token [extreme.stage comparator] input =
      (Sequence.ofList input).materialize cap token >>= (comparator.toward extreme).sort cap >>=
        extreme.first := by
  rw [run_extreme, bind_assoc]
  cases taken : (Sequence.ofList input).materialize cap token with
  | error error => rfl
  | ok items =>
      cases Sequence.eq_of_materialize taken
      exact Comparator.extreme_eq unmixed extreme

theorem sorted_eq_nil {comparator : Comparator} :
    (Sequence.ofList input).materialize cap token >>= comparator.sort cap = .ok [] ↔
      input = [] := by
  refine ⟨fun none => ?_, ?_⟩
  · obtain ⟨items, taken, done⟩ := bind_eq_ok.1 none
    rw [← Sequence.eq_of_materialize taken]
    exact (Comparator.sort_perm done).symm.eq_nil
  · rintro rfl
    rfl

theorem run_extreme_iff {comparator : Comparator} (unmixed : comparator.Unmixed cap input)
    (extreme : Extreme) :
    (∀ error, Chain.run cap token [extreme.stage comparator] input = .error error ↔
      Chain.run cap token [.sorted (some (comparator.toward extreme))] input = .error error ∨
        input = [] ∧ error = .emptyInput extreme) ∧
      ∀ value, Chain.run cap token [extreme.stage comparator] input = .ok value ↔
        ∃ rest, Chain.run cap token [.sorted (some (comparator.toward extreme))] input =
          .ok (.list (value :: rest)) := by
  rw [run_extreme_eq unmixed, run_sorted, Option.getD_some]
  refine ⟨fun error => ?_, fun value => ?_⟩
  · rw [map_eq_error, Extreme.first_eq_error, sorted_eq_nil]
  · rw [Extreme.first_eq_ok]
    exact exists_congr fun rest => by simp [map_eq_ok]

theorem run_sorted_reversed_error {comparator : Comparator} {error : RunError} :
    Chain.run cap token [.sorted (some comparator.reversed)] input = .error error ↔
      Chain.run cap token [.sorted (some comparator)] input = .error error := by
  rw [run_sorted, run_sorted, Option.getD_some, Option.getD_some]
  cases (Sequence.ofList input).materialize cap token with
  | error error => rfl
  | ok items =>
      change Except.map _ (comparator.reversed.sort cap items) = _ ↔
        Except.map _ (comparator.sort cap items) = _
      rw [map_eq_error, map_eq_error, Comparator.sort_eq_error, Comparator.sort_eq_error,
        Comparator.keyed_reversed]

/-- The least element is the first of the sorted ones, and the greatest the first of those sorted
with all columns in the other direction. -/
theorem run_extremes_iff {comparator : Comparator} (unmixed : comparator.Unmixed cap input) :
    ((∀ error, Chain.run cap token [.min comparator] input = .error error ↔
        Chain.run cap token [.sorted (some comparator)] input = .error error ∨
          input = [] ∧ error = .emptyInput .min) ∧
      ∀ value, Chain.run cap token [.min comparator] input = .ok value ↔
        ∃ rest, Chain.run cap token [.sorted (some comparator)] input =
          .ok (.list (value :: rest))) ∧
    ((∀ error, Chain.run cap token [.max comparator] input = .error error ↔
        Chain.run cap token [.sorted (some comparator.reversed)] input = .error error ∨
          input = [] ∧ error = .emptyInput .max) ∧
      ∀ value, Chain.run cap token [.max comparator] input = .ok value ↔
        ∃ rest, Chain.run cap token [.sorted (some comparator.reversed)] input =
          .ok (.list (value :: rest))) ∧
    ∀ error, Chain.run cap token [.sorted (some comparator.reversed)] input = .error error ↔
      Chain.run cap token [.sorted (some comparator)] input = .error error :=
  ⟨run_extreme_iff unmixed .min, run_extreme_iff unmixed .max,
    fun _ => run_sorted_reversed_error⟩

theorem run_extremes_iff_parity :
    let parity : Selector := .lambda ⟨"x", .binary (.arithmetic .modulo) (.reference "x")
      (.literal (.number (.integer 2)))⟩
    let comparator : Comparator := ⟨[⟨parity, .descending⟩]⟩
    let input : List Value := [.integer 2, .integer 3, .integer 5, .integer 4]
    comparator.Unmixed 4 input ∧
      (∃ rest, Chain.run 4 .never [.sorted (some comparator)] input =
        .ok (.list (.integer 3 :: rest))) ∧
      Chain.run 4 .never [.min comparator] input = .ok (.integer 3) ∧
      (∃ rest, Chain.run 4 .never [.sorted (some comparator.reversed)] input =
        .ok (.list (.integer 2 :: rest))) ∧
      Chain.run 4 .never [.max comparator] input = .ok (.integer 2) := by
  intro parity comparator input
  have unmixed : comparator.Unmixed 4 input := by
    refine Comparator.unmixed_of_integers ?_
    simp only [comparator, input, List.forall_mem_cons, List.not_mem_nil, false_implies,
      implies_true, and_true]
    exact ⟨⟨0, rfl⟩, ⟨1, rfl⟩, ⟨1, rfl⟩, ⟨0, rfl⟩⟩
  have sorted : ∃ rest, Chain.run 4 .never [.sorted (some comparator)] input =
      .ok (.list (.integer 3 :: rest)) := ⟨_, rfl⟩
  have sortedBack : ∃ rest, Chain.run 4 .never [.sorted (some comparator.reversed)] input =
      .ok (.list (.integer 2 :: rest)) := ⟨_, rfl⟩
  obtain ⟨⟨-, least⟩, ⟨-, greatest⟩, -⟩ := @run_extremes_iff 4 .never input _ unmixed
  exact ⟨unmixed, sorted, (least _).2 sorted, sortedBack, (greatest _).2 sortedBack⟩

end Results

end Chain

end Pipeline
