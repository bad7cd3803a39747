import Pipeline.Proofs.Composition
import Pipeline.Proofs.KeyOrder

/-! Grouping divides the elements by key, and what follows works on each group as if it were
the whole input. -/

set_option autoImplicit false

namespace Pipeline

/-- The key that a selector takes from an element, if it takes one. -/
def Selector.key? (cap : Nat) (selector : Selector) (element : Value) : Option Key :=
  (selector.select cap element).toOption.bind Value.key?

/-- The elements with the given key, in their order. -/
def Selector.elementsOf (cap : Nat) (selector : Selector) (key : Key) (elements : List Value) :
    List Value :=
  elements.filter fun element => selector.key? cap element = some key

namespace Grouping

theorem mem_keys_add {key other : Key} {element : Value} {groups : Grouping} :
    other ∈ (groups.add key element).map Prod.fst ↔ other = key ∨ other ∈ groups.map Prod.fst := by
  fun_induction Grouping.add key element groups with
  | case1 => simp
  | case2 => simp
  | case3 found elements rest same =>
      cases Key.order_eq_iff.1 same
      simp
  | case4 found elements rest _ ih =>
      simp only [List.map_cons, List.mem_cons, ih]
      exact or_left_comm

theorem add_inKeyOrder {key : Key} {groups : Grouping} (ordered : InKeyOrder groups)
    (element : Value) : InKeyOrder (groups.add key element) := by
  fun_induction Grouping.add key element groups with
  | case1 => exact List.pairwise_singleton _ _
  | case2 found elements rest less =>
      refine List.pairwise_cons.2 ⟨fun entry member => ?_, ordered⟩
      rcases List.mem_cons.1 member with rfl | behind
      · exact less
      · exact Key.order_lt_trans less ((List.pairwise_cons.1 ordered).1 entry behind)
  | case3 found elements rest _ => exact List.pairwise_cons.2 (List.pairwise_cons.1 ordered)
  | case4 found elements rest greater ih =>
      obtain ⟨front, behind⟩ := List.pairwise_cons.1 ordered
      refine List.pairwise_cons.2 ⟨fun entry member => ?_, ih behind⟩
      rcases mem_keys_add.1 (List.mem_map_of_mem member) with same | old
      · exact same ▸ Key.order_gt_iff.1 greater
      · exact ordered.lt_of_mem old

/-- Only the group of the key changes: it gets the element in front, and may be new. -/
theorem of_mem_add {key other : Key} {element : Value} {groups : Grouping}
    (ordered : InKeyOrder groups) {items : List Value}
    (member : (other, items) ∈ groups.add key element) :
    other ≠ key ∧ (other, items) ∈ groups ∨
      other = key ∧ ∃ old, items = element :: old ∧
        ((key, old) ∈ groups ∨ old = [] ∧ key ∉ groups.map Prod.fst) := by
  fun_induction Grouping.add key element groups with
  | case1 =>
      cases List.mem_singleton.1 member
      exact .inr ⟨rfl, [], rfl, .inr ⟨rfl, by simp⟩⟩
  | case2 found elements rest less =>
      have front : InKeyOrder ((key, [element]) :: (found, elements) :: rest) := by
        have added : InKeyOrder (Grouping.add key element ((found, elements) :: rest)) :=
          add_inKeyOrder ordered element
        simpa [Grouping.add, less] using added
      rcases List.mem_cons.1 member with same | behind
      · cases same
        refine .inr ⟨rfl, [], rfl, .inr ⟨rfl, fun within => ?_⟩⟩
        exact Key.ne_of_order_lt (front.lt_of_mem within) rfl
      · have apart := Key.ne_of_order_lt (front.lt_of_mem (List.mem_map_of_mem behind))
        exact .inl ⟨apart.symm, behind⟩
  | case3 found elements rest same =>
      cases Key.order_eq_iff.1 same
      rcases List.mem_cons.1 member with same | behind
      · cases same
        exact .inr ⟨rfl, elements, rfl, .inl (.head _)⟩
      · have apart := Key.ne_of_order_lt (ordered.lt_of_mem (List.mem_map_of_mem behind))
        exact .inl ⟨apart.symm, .tail _ behind⟩
  | case4 found elements rest greater ih =>
      have apart : found ≠ key := Key.ne_of_order_lt (Key.order_gt_iff.1 greater)
      rcases List.mem_cons.1 member with same | behind
      · cases same
        exact .inl ⟨apart, .head _⟩
      · rcases ih (List.pairwise_cons.1 ordered).2 behind with ⟨other, old⟩ | ⟨rfl, old, rfl, found⟩
        · exact .inl ⟨other, .tail _ old⟩
        · refine .inr ⟨rfl, old, rfl, found.imp (List.mem_cons_of_mem _) fun new => ⟨new.1, ?_⟩⟩
          simp [new.2, apart.symm]

/-- The groups are those of the elements seen so far, by their keys. -/
structure Divides (keyOf : Value → Option Key) (seen : List Value) (groups : Grouping) : Prop where
  ordered : InKeyOrder groups
  occurs : ∀ key, key ∈ groups.map Prod.fst ↔ ∃ element ∈ seen, keyOf element = some key
  items : ∀ key items, (key, items) ∈ groups →
    items.reverse = seen.filter fun element => keyOf element = some key

theorem divides_nil (keyOf : Value → Option Key) : Divides keyOf [] [] where
  ordered := .nil
  occurs key := by simp
  items key items member := nomatch member

theorem Divides.add {keyOf : Value → Option Key} {seen : List Value} {groups : Grouping}
    (divides : Divides keyOf seen groups) {element : Value} {key : Key}
    (found : keyOf element = some key) :
    Divides keyOf (seen ++ [element]) (groups.add key element) where
  ordered := add_inKeyOrder divides.ordered element
  occurs other := by
    rw [mem_keys_add, divides.occurs]
    simp only [List.mem_append, List.mem_singleton, or_and_right, exists_or, exists_eq_left, found,
      Option.some.injEq]
    rw [or_comm, eq_comm]
  items other items member := by
    rcases of_mem_add divides.ordered member with ⟨apart, old⟩ | ⟨rfl, old, rfl, former⟩
    · simp [divides.items other items old, found, apart.symm]
    · have before : old.reverse = seen.filter fun element => keyOf element = some other := by
        rcases former with former | ⟨rfl, new⟩
        · exact divides.items other old former
        · rw [divides.occurs] at new
          simpa using new
      simp [before, found]

end Grouping

variable {cap : Nat} {token : CancelToken} {selector : Selector}

theorem Selector.addToGroup_eq_ok {state next : Grouping × Nat} {element : Value}
    (added : selector.addToGroup cap state element = .ok next) :
    ∃ key, selector.key? cap element = some key ∧ next.1 = state.1.add key element := by
  unfold addToGroup at added
  split at added
  · cases added
  · obtain ⟨value, selected, added⟩ := bind_eq_ok.1 added
    split at added
    · rename_i key found
      cases added
      exact ⟨key, by simp [key?, selected, Except.toOption, found], rfl⟩
    · cases added

/-- Elements are added to the groups one after the other. -/
theorem Sequence.divides_of_consume {seen input : List Value} {state last : Grouping × Nat}
    (divides : state.1.Divides (selector.key? cap) seen)
    (consumed : (ofList input).consume (selector.addToGroup cap) token state = .ok last) :
    last.1.Divides (selector.key? cap) (seen ++ input) ∧
      ∀ element ∈ input, ∃ key, selector.key? cap element = some key := by
  induction input generalizing seen state token with
  | nil =>
      cases consumed
      simpa using divides
  | cons element rest ih =>
      simp only [consume, ofList, drain] at consumed
      split at consumed
      · cases consumed
      · cases consumed
      · split at consumed
        · rename_i next added
          obtain ⟨key, found, same⟩ := selector.addToGroup_eq_ok added
          obtain ⟨all, keyed⟩ := ih (same ▸ divides.add found) consumed
          rw [List.append_assoc] at all
          exact ⟨all, List.forall_mem_cons.2 ⟨⟨key, found⟩, keyed⟩⟩
        · cases consumed

namespace Flow

theorem apply_groups_eq_ok {stage : Stage} {parts : List (Key × Flow)} {flow : Flow} :
    (groups parts).apply cap token stage = .ok flow ↔
      ∃ others, applyParts cap token stage parts = .ok others ∧ flow = groups others := by
  rw [apply, map_eq_ok]
  simp only [eq_comm]

theorem applyParts_cons_eq_ok {stage : Stage} {key : Key} {part : Flow}
    {rest others : List (Key × Flow)} :
    applyParts cap token stage ((key, part) :: rest) = .ok others ↔
      ∃ first behind, part.apply cap token stage = .ok first ∧
        applyParts cap token stage rest = .ok behind ∧ others = (key, first) :: behind := by
  simp only [applyParts, bind_eq_ok, Except.ok.injEq]
  constructor
  · rintro ⟨first, applied, behind, appliedRest, rfl⟩
    exact ⟨first, behind, applied, appliedRest, rfl⟩
  · rintro ⟨first, behind, applied, appliedRest, rfl⟩
    exact ⟨first, applied, behind, appliedRest, rfl⟩

theorem finish_groups_eq_ok {parts : List (Key × Flow)} {value : Value} :
    (groups parts).finish cap token = .ok value ↔
      ∃ entries, finishParts cap token parts = .ok entries ∧ value = .map entries := by
  rw [finish, map_eq_ok]
  simp only [eq_comm]

theorem finishParts_cons_eq_ok {key : Key} {part : Flow} {rest : List (Key × Flow)}
    {entries : List (Key × Value)} :
    finishParts cap token ((key, part) :: rest) = .ok entries ↔
      ∃ first behind, part.finish cap token = .ok first ∧
        finishParts cap token rest = .ok behind ∧ entries = (key, first) :: behind := by
  simp only [finishParts, bind_eq_ok, Except.ok.injEq]
  constructor
  · rintro ⟨first, finished, behind, finishedRest, rfl⟩
    exact ⟨first, behind, finished, finishedRest, rfl⟩
  · rintro ⟨first, behind, finished, finishedRest, rfl⟩
    exact ⟨first, finished, behind, finishedRest, rfl⟩

end Flow

namespace Chain

theorem through_groups {chain : Chain} {parts : List (Key × Flow)} {flow : Flow}
    (passed : chain.through cap token (.groups parts) = .ok flow) :
    ∃ others, flow = .groups others := by
  induction chain generalizing parts with
  | nil =>
      cases passed
      exact ⟨parts, rfl⟩
  | cons stage rest ih =>
      obtain ⟨next, applied, passed⟩ := bind_eq_ok.1 passed
      obtain ⟨others, _, rfl⟩ := Flow.apply_groups_eq_ok.1 applied
      exact ih passed

theorem through_groups_nil (chain : Chain) :
    chain.through cap token (.groups []) = .ok (.groups []) := by
  induction chain with
  | nil => rfl
  | cons stage rest ih => exact ih

/-- A chain comes through several groups as it comes through each of them. -/
theorem through_groups_cons {chain : Chain} {key : Key} {part flow : Flow}
    {rest : List (Key × Flow)} :
    chain.through cap token (.groups ((key, part) :: rest)) = .ok flow ↔
      ∃ passed others, chain.through cap token part = .ok passed ∧
        chain.through cap token (.groups rest) = .ok (.groups others) ∧
        flow = .groups ((key, passed) :: others) := by
  induction chain generalizing part rest with
  | nil =>
      simp only [through, Except.ok.injEq, Flow.groups.injEq]
      constructor
      · rintro rfl
        exact ⟨part, rest, rfl, rfl, rfl⟩
      · rintro ⟨passed, others, rfl, rfl, rfl⟩
        rfl
  | cons stage chain ih =>
      simp only [through, bind_eq_ok, Flow.apply_groups_eq_ok, Flow.applyParts_cons_eq_ok]
      constructor
      · rintro ⟨_, ⟨_, ⟨first, behind, applied, appliedRest, rfl⟩, rfl⟩, passes⟩
        obtain ⟨passed, others, throughFirst, throughRest, rfl⟩ := ih.1 passes
        exact ⟨passed, others, ⟨first, applied, throughFirst⟩,
          ⟨.groups behind, ⟨behind, appliedRest, rfl⟩, throughRest⟩, rfl⟩
      · rintro ⟨passed, others, ⟨first, applied, throughFirst⟩,
          ⟨_, ⟨behind, appliedRest, rfl⟩, throughRest⟩, rfl⟩
        exact ⟨.groups ((key, first) :: behind),
          ⟨_, ⟨first, behind, applied, appliedRest, rfl⟩, rfl⟩,
          ih.2 ⟨passed, others, throughFirst, throughRest, rfl⟩⟩

theorem outcome_groups_nil {chain : Chain} :
    chain.outcome cap token (.groups []) = .ok (.map []) := by
  rw [outcome, through_groups_nil]
  rfl

theorem outcome_groups_cons {chain : Chain} {key : Key} {part : Flow} {value : Value}
    {rest : List (Key × Flow)} :
    chain.outcome cap token (.groups ((key, part) :: rest)) = .ok value ↔
      ∃ first entries, chain.outcome cap token part = .ok first ∧
        chain.outcome cap token (.groups rest) = .ok (.map entries) ∧
        value = .map ((key, first) :: entries) := by
  simp only [outcome, bind_eq_ok, through_groups_cons]
  constructor
  · rintro ⟨_, ⟨passed, others, throughFirst, throughRest, rfl⟩, finished⟩
    obtain ⟨_, finishedAll, rfl⟩ := Flow.finish_groups_eq_ok.1 finished
    obtain ⟨first, entries, finishedFirst, finishedRest, rfl⟩ :=
      Flow.finishParts_cons_eq_ok.1 finishedAll
    exact ⟨first, entries, ⟨passed, throughFirst, finishedFirst⟩, ⟨.groups others, throughRest,
      Flow.finish_groups_eq_ok.2 ⟨entries, finishedRest, rfl⟩⟩, rfl⟩
  · rintro ⟨first, entries, ⟨passed, throughFirst, finishedFirst⟩,
      ⟨flow, throughRest, finished⟩, rfl⟩
    obtain ⟨others, rfl⟩ := through_groups throughRest
    obtain ⟨_, finishedRest, same⟩ := Flow.finish_groups_eq_ok.1 finished
    cases same
    have finishedAll : Flow.finishParts cap token ((key, passed) :: others) =
        .ok ((key, first) :: entries) :=
      Flow.finishParts_cons_eq_ok.2 ⟨first, entries, finishedFirst, finishedRest, rfl⟩
    exact ⟨_, ⟨passed, others, throughFirst, throughRest, rfl⟩,
      Flow.finish_groups_eq_ok.2 ⟨_, finishedAll, rfl⟩⟩

/-- What comes of several groups is a map from their keys to what comes of each. -/
theorem of_outcome_groups {chain : Chain} {parts : List (Key × Flow)} {value : Value}
    (ran : chain.outcome cap token (.groups parts) = .ok value) :
    ∃ entries, value = .map entries ∧ entries.map Prod.fst = parts.map Prod.fst ∧
      ∀ key result, (key, result) ∈ entries →
        ∃ part, (key, part) ∈ parts ∧ chain.outcome cap token part = .ok result := by
  induction parts generalizing value with
  | nil =>
      cases outcome_groups_nil.symm.trans ran
      exact ⟨[], rfl, rfl, fun _ _ member => nomatch member⟩
  | cons head rest ih =>
      obtain ⟨key, part⟩ := head
      obtain ⟨first, entries, ranFirst, ranRest, rfl⟩ := outcome_groups_cons.1 ran
      obtain ⟨_, same, keys, results⟩ := ih ranRest
      cases same
      refine ⟨(key, first) :: entries, rfl, by simp [keys], fun other result member => ?_⟩
      rcases List.mem_cons.1 member with same | behind
      · cases same
        exact ⟨part, .head _, ranFirst⟩
      · obtain ⟨found, within, ranFound⟩ := results other result behind
        exact ⟨found, .tail _ within, ranFound⟩

theorem outcome_groups_isOk {chain : Chain} {parts : List (Key × Flow)} :
    (∃ value, chain.outcome cap token (.groups parts) = .ok value) ↔
      ∀ key part, (key, part) ∈ parts → ∃ value, chain.outcome cap token part = .ok value := by
  induction parts with
  | nil =>
      refine ⟨fun _ => ?_, fun _ => ⟨_, outcome_groups_nil⟩⟩
      exact fun _ _ member => nomatch member
  | cons head rest ih =>
      obtain ⟨key, part⟩ := head
      constructor
      · rintro ⟨value, ran⟩ other found member
        obtain ⟨first, entries, ranFirst, ranRest, rfl⟩ := outcome_groups_cons.1 ran
        rcases List.mem_cons.1 member with same | behind
        · cases same
          exact ⟨first, ranFirst⟩
        · exact ih.1 ⟨_, ranRest⟩ other found behind
      · intro all
        obtain ⟨first, ranFirst⟩ := all key part (.head _)
        obtain ⟨value, ranRest⟩ := ih.2 fun other found member => all other found (.tail _ member)
        obtain ⟨entries, rfl, _⟩ := of_outcome_groups ranRest
        exact ⟨_, outcome_groups_cons.2 ⟨first, entries, ranFirst, ranRest, rfl⟩⟩

end Chain

/-- What grouping puts out: the elements of each key that occurs, in key order. -/
theorem Sequence.of_group {input : List Value} {parts : List (Key × Flow)}
    (grouped : (ofList input).group cap token selector = .ok parts) :
    (∀ element ∈ input, ∃ key, selector.key? cap element = some key) ∧ InKeyOrder parts ∧
      (∀ key, key ∈ parts.map Prod.fst ↔
        ∃ element ∈ input, selector.key? cap element = some key) ∧
      ∀ key part, (key, part) ∈ parts →
        part = .sequence (ofList (selector.elementsOf cap key input)) := by
  obtain ⟨⟨groups, count⟩, consumed, same⟩ := bind_eq_ok.1 grouped
  cases same
  have start : Grouping.Divides (selector.key? cap) [] (([], 0) : Grouping × Nat).1 :=
    Grouping.divides_nil _
  obtain ⟨divides, keyed⟩ := divides_of_consume start consumed
  rw [List.nil_append] at divides
  refine ⟨keyed, List.pairwise_map.2 divides.ordered, fun key => ?_, fun key part member => ?_⟩
  · rw [← divides.occurs, List.map_map]
    rfl
  · obtain ⟨⟨found, items⟩, within, same⟩ := List.mem_map.1 member
    cases same
    rw [divides.items key items within]
    rfl

/-- Where grouping succeeds, every element has a key, and what comes of the chain behind it is
what comes of it for the elements of each key by themselves, in their order: a value if there
is one for every key that occurs, and then the map from these keys to the values. -/
theorem Chain.run_groupBy (cap : Nat) (token : CancelToken) (selector : Selector) (tail : Chain)
    {input : List Value} {flow : Flow}
    (grouped : (Stage.groupBy selector).onSequence cap token (.ofList input) = .ok flow) :
    (∀ element ∈ input, ∃ key, selector.key? cap element = some key) ∧
      ((∃ value, Chain.run cap token (.groupBy selector :: tail) input = .ok value) ↔
        ∀ key, (∃ element ∈ input, selector.key? cap element = some key) →
          ∃ value, tail.run cap token (selector.elementsOf cap key input) = .ok value) ∧
      ∀ value, Chain.run cap token (.groupBy selector :: tail) input = .ok value →
        ∃ entries, value = .map entries ∧ InKeyOrder entries ∧
          (∀ key, key ∈ entries.map Prod.fst ↔
            ∃ element ∈ input, selector.key? cap element = some key) ∧
          ∀ key result, (key, result) ∈ entries →
            tail.run cap token (selector.elementsOf cap key input) = .ok result := by
  obtain ⟨parts, divided, same⟩ := bind_eq_ok.1 grouped
  cases same
  have run : Chain.run cap token (.groupBy selector :: tail) input =
      tail.outcome cap token (.groups parts) := by
    rw [run_eq_outcome, outcome_cons, Flow.apply, grouped]
    rfl
  obtain ⟨keyed, ordered, occurs, groups⟩ := Sequence.of_group divided
  rw [run]
  refine ⟨keyed, outcome_groups_isOk.trans ⟨fun all key found => ?_, fun all key part member => ?_⟩,
    fun value ran => ?_⟩
  · obtain ⟨⟨_, part⟩, member, rfl⟩ := List.mem_map.1 ((occurs key).2 found)
    exact groups _ part member ▸ all _ part member
  · rw [groups key part member]
    exact all key ((occurs key).1 (List.mem_map_of_mem member))
  · obtain ⟨entries, rfl, keys, results⟩ := of_outcome_groups ran
    refine ⟨entries, rfl, ?_, fun key => keys ▸ occurs key, fun key result member => ?_⟩
    · have sorted : (parts.map Prod.fst).Pairwise fun a b => a.order b = .lt :=
        List.pairwise_map.2 ordered
      rw [← keys] at sorted
      exact List.pairwise_map.1 sorted
    · obtain ⟨part, within, ranPart⟩ := results key result member
      rwa [groups key part within] at ranPart

/-- Sums over the odd and the even numbers, both divided again into those up to `4` and the
others: each inner map is what the rest of the chain makes of the numbers of one parity. -/
theorem Chain.run_groupBy_parity :
    let parity : Selector := .lambda ⟨"x", .binary (.arithmetic .modulo) (.reference "x")
      (.literal (.number (.integer 2)))⟩
    let large : Selector := .lambda ⟨"x", .binary (.relation .greater) (.reference "x")
      (.literal (.number (.integer 4)))⟩
    let tail : Chain := [.groupBy large, .sum .identity]
    let input : List Value := [.integer 5, .integer 2, .integer 7, .integer 3]
    let sums : List (Key × Value) := [(.integer 0, .map [(.boolean false, .integer 2)]),
      (.integer 1, .map [(.boolean false, .integer 3), (.boolean true, .integer 12)])]
    Chain.run 10 .never (.groupBy parity :: tail) input = .ok (.map sums) ∧
      (parity.elementsOf 10 (.integer 1) input = [.integer 5, .integer 7, .integer 3]) ∧
      ∀ key result, (key, result) ∈ sums →
        tail.run 10 .never (parity.elementsOf 10 key input) = .ok result := by
  intro parity large tail input sums
  have ran : Chain.run 10 .never (.groupBy parity :: tail) input = .ok (.map sums) := by rfl
  obtain ⟨flow, grouped⟩ : ∃ flow,
      (Stage.groupBy parity).onSequence 10 .never (.ofList input) = .ok flow := ⟨_, rfl⟩
  obtain ⟨_, _, all⟩ := Chain.run_groupBy 10 .never parity tail grouped
  obtain ⟨entries, same, _, _, results⟩ := all _ ran
  cases same
  exact ⟨ran, rfl, results⟩

end Pipeline
