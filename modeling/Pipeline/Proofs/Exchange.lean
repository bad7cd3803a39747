import Pipeline.Proofs.Passage

/-! Selectors exchanged for others that take the same from the elements at hand: what a stage makes
of a flow stays the same, failures included. -/

set_option autoImplicit false

namespace Pipeline

theorem Ensures.bind_eq {ε α β : Type} {post : α → Prop} {allowed : ε → Prop}
    {source : Except ε α} (ensures : Ensures post allowed source) {next other : α → Except ε β}
    (same : ∀ value, post value → other value = next value) :
    source >>= other = source >>= next := by
  cases source with
  | error error => rfl
  | ok value => exact same value ensures

variable {cap : Nat} {good : Value → Prop} {allowed : RunError → Prop} {token : CancelToken}

/-! ## Sequences -/

namespace Sequence

section Guarded

variable {elements : Sequence} (guarded : elements.Guarded good allowed)
include guarded

theorem Guarded.filter_eq {test other : Value → Except RunError Bool}
    (same : ∀ value, good value → other value = test value) :
    elements.filter other = elements.filter test := by
  induction guarded with
  | done | fail _ => rfl
  | skip _ ih => simp only [Sequence.filter, ih]
  | yield holds _ ih => simp only [Sequence.filter, same _ holds, ih]

theorem Guarded.map_eq {image other : Value → Except RunError Value}
    (same : ∀ value, good value → other value = image value) :
    elements.map other = elements.map image := by
  induction guarded with
  | done | fail _ => rfl
  | skip _ ih => simp only [Sequence.map, ih]
  | yield holds _ ih => simp only [Sequence.map, same _ holds, ih]

theorem Guarded.flatMap_eq {expand other : Value → Except RunError Sequence}
    (same : ∀ value, good value → other value = expand value) :
    elements.flatMap other = elements.flatMap expand := by
  induction guarded with
  | done | fail _ => rfl
  | skip _ ih => simp only [Sequence.flatMap, ih]
  | yield holds _ ih => simp only [Sequence.flatMap, same _ holds, ih]

theorem Guarded.consume_eq {σ : Type} {accept other : σ → Value → Except RunError σ}
    (same : ∀ state value, good value → other state value = accept state value) (state : σ) :
    elements.consume other token state = elements.consume accept token state := by
  simp only [Sequence.consume]
  induction guarded generalizing token state with
  | done | fail _ => rfl
  | skip _ ih => simp only [Sequence.drain, ih]
  | yield holds _ ih => simp only [Sequence.drain, same _ _ holds, ih]

/-- What is taken in as a list is good. -/
theorem Guarded.materialize_good (cap : Nat) :
    Ensures (fun items => ∀ value ∈ items, good value) (fun _ => True)
      (elements.materialize cap token) :=
  ((guarded.mono (fun _ => id) fun _ _ => trivial).materialize trivial cap trivial token).mono
    (fun _ holds => holds.2) fun _ => id

end Guarded

theorem guarded_true (elements : Sequence) :
    elements.Guarded (fun _ => True) (fun _ => True) := by
  induction elements with
  | done => exact .done
  | fail error => exact .fail trivial
  | skip rest ih => exact .skip (ih ())
  | yield value rest ih => exact .yield trivial (ih ())

end Sequence

theorem Flow.guarded_true (flow : Flow) : flow.Guarded (fun _ => True) (fun _ => True) := by
  have parts : ∀ parts : List (Key × Flow), (∀ entry ∈ parts,
      entry.2.Guarded (fun _ => True) (fun _ => True)) →
      (Flow.groups parts).Guarded (fun _ => True) (fun _ => True) :=
    fun parts each => .groups fun key part member => each (key, part) member
  exact @Flow.rec (·.Guarded (fun _ => True) (fun _ => True))
    (fun parts => ∀ entry ∈ parts, entry.2.Guarded (fun _ => True) (fun _ => True))
    (fun entry => entry.2.Guarded (fun _ => True) (fun _ => True))
    (fun elements => .sequence elements.guarded_true) (fun _ => .single trivial) parts
    (List.forall_mem_nil _) (fun _ _ first rest => List.forall_mem_cons.2 ⟨first, rest⟩)
    (fun _ _ part => part) flow

/-! ## Selectors and sort keys -/

/-- Both selectors take the same from every `good` element. -/
def Selector.Agrees (cap : Nat) (good : Value → Prop) (selector other : Selector) : Prop :=
  ∀ value, good value → other.select cap value = selector.select cap value

/-- Both lambdas expand every `good` element to the same. -/
def Lambda.Agrees (cap : Nat) (good : Value → Prop) (lambda other : Lambda) : Prop :=
  ∀ value, good value → other.expand cap value = lambda.expand cap value

/-- Both sort keys take the same from every `good` element and order it in one direction. -/
structure SortKey.Agrees (cap : Nat) (good : Value → Prop) (key other : SortKey) : Prop where
  direction : other.direction = key.direction
  select : ∀ value, good value → other.select cap value = key.select cap value

def Comparator.Agrees (cap : Nat) (good : Value → Prop) (comparator other : Comparator) : Prop :=
  List.Forall₂ (SortKey.Agrees cap good) comparator.keys other.keys

theorem Selector.Agrees.test {selector other : Selector} (agrees : selector.Agrees cap good other)
    (value : Value) (holds : good value) : other.test cap value = selector.test cap value := by
  simp only [Selector.test, agrees value holds]

theorem Selector.Agrees.addTo {selector other : Selector} (agrees : selector.Agrees cap good other)
    (total value : Value) (holds : good value) :
    other.addTo cap total value = selector.addTo cap total value := by
  simp only [Selector.addTo, agrees value holds]

theorem Selector.Agrees.addToGroup {selector other : Selector}
    (agrees : selector.Agrees cap good other) (state : Grouping × Nat) (value : Value)
    (holds : good value) :
    other.addToGroup cap state value = selector.addToGroup cap state value := by
  simp only [Selector.addToGroup, agrees value holds]

theorem SortKey.Agrees.refl (key : SortKey) : key.Agrees cap good key :=
  ⟨rfl, fun _ _ => rfl⟩

/-- Only where the element itself is taken does a record stand for its natural key. -/
theorem SortKey.agrees_of_selector {selector other : Selector} (direction : Direction)
    (agrees : selector.Agrees cap good other) (some : selector ≠ .identity)
    (otherSome : other ≠ .identity) :
    SortKey.Agrees cap good ⟨selector, direction⟩ ⟨other, direction⟩ := by
  have plain : ∀ (taken : Selector) (value : Value), taken ≠ .identity →
      SortKey.select cap ⟨taken, direction⟩ value = taken.select cap value := by
    intro taken value given
    cases taken with
    | identity => exact absurd rfl given
    | field | lambda => rfl
  refine ⟨rfl, fun value holds => ?_⟩
  simp only [plain _ _ some, plain _ _ otherSome, agrees value holds]

namespace Comparator

section Agrees

theorem keysOf_eq {keys others : List SortKey}
    (agree : List.Forall₂ (SortKey.Agrees cap good) keys others) {value : Value}
    (holds : good value) : keysOf cap value others = keysOf cap value keys := by
  induction agree with
  | nil => rfl
  | cons key _ ih => simp only [keysOf, key.select value holds, ih]

theorem compareKeys_eq {keys others : List SortKey}
    (agree : List.Forall₂ (SortKey.Agrees cap good) keys others) (as bs : List Value) :
    compareKeys others as bs = compareKeys keys as bs := by
  induction agree generalizing as bs with
  | nil => rfl
  | cons key _ ih =>
      cases as with
      | nil => rfl
      | cons a as =>
          cases bs with
          | nil => rfl
          | cons b bs => simp only [compareKeys, key.direction, ih]

variable {comparator other : Comparator} (agrees : comparator.Agrees cap good other)
include agrees

theorem Agrees.compareKeyed : other.compareKeyed = comparator.compareKeyed := by
  funext a b
  exact compareKeys_eq agrees a.keys b.keys

theorem Agrees.keyed {elements : List Value} (holds : ∀ value ∈ elements, good value) :
    other.keyed cap elements = comparator.keyed cap elements := by
  have all : other.keyAll cap elements = comparator.keyAll cap elements := by
    induction elements with
    | nil => rfl
    | cons value rest ih =>
        obtain ⟨first, behind⟩ := List.forall_mem_cons.1 holds
        simp only [keyAll, keysOf_eq agrees first, ih behind]
  simp only [Comparator.keyed, all]

theorem Agrees.sort {elements : List Value} (holds : ∀ value ∈ elements, good value) :
    other.sort cap elements = comparator.sort cap elements := by
  simp only [Comparator.sort, agrees.keyed holds, agrees.compareKeyed]

theorem Agrees.extreme (extreme : Extreme) {elements : List Value}
    (holds : ∀ value ∈ elements, good value) :
    other.extreme cap extreme elements = comparator.extreme cap extreme elements := by
  have beats : other.beats extreme = comparator.beats extreme := by
    funext keyed best
    simp only [Comparator.beats, agrees.compareKeyed]
  simp only [Comparator.extreme, agrees.keyed holds, beats]

end Agrees

end Comparator

/-! ## Lambdas that expand elements -/

namespace Lambda

variable {lambda other : Lambda}

theorem expandedShape_congr (same : (∃ arguments, other.body = .call "range" arguments) ↔
    ∃ arguments, lambda.body = .call "range" arguments) :
    other.expandedShape = lambda.expandedShape := by
  rcases lambda.expandedShape_eq with ⟨range, first⟩ | ⟨plain, first⟩
  all_goals rcases other.expandedShape_eq with ⟨otherRange, second⟩ | ⟨otherPlain, second⟩
  · exact second.trans first.symm
  · exact absurd (same.2 range) otherPlain
  · exact absurd (same.1 otherRange) plain
  · exact second.trans first.symm

/-- The bodies yield the same, and those that are ranges have the same bounds. -/
theorem expand_congr {value : Value} (same : other.eval cap value = lambda.eval cap value)
    (ranges : ∀ arguments, lambda.body = .call "range" arguments → ∃ others,
      other.body = .call "range" others ∧ Expr.evalAll cap other.parameter value others =
        Expr.evalAll cap lambda.parameter value arguments)
    (plain : (∃ others, other.body = .call "range" others) →
      ∃ arguments, lambda.body = .call "range" arguments) :
    other.expand cap value = lambda.expand cap value := by
  by_cases range : ∃ arguments, lambda.body = .call "range" arguments
  · obtain ⟨arguments, body⟩ := range
    obtain ⟨others, otherBody, bounds⟩ := ranges arguments body
    simp only [expand, body, otherBody, bounds]
  · have otherPlain := mt plain range
    unfold expand
    split
    · exact absurd ⟨_, ‹_›⟩ otherPlain
    · split
      · exact absurd ⟨_, ‹_›⟩ range
      · rw [same]

end Lambda

/-! ## Stages -/

/-- Stages of one kind, whose selectors take the same from every `good` element. -/
inductive Stage.Agrees (cap : Nat) (good : Value → Prop) : Stage → Stage → Prop where
  | refl (stage : Stage) : Agrees cap good stage stage
  | filter {selector other : Selector} : selector.Agrees cap good other →
      Agrees cap good (.filter selector) (.filter other)
  | map {selector other : Selector} : selector.Agrees cap good other →
      Agrees cap good (.map selector) (.map other)
  | flatMap {lambda other : Lambda} : lambda.Agrees cap good other →
      Agrees cap good (.flatMap lambda) (.flatMap other)
  | sorted {comparator other : Comparator} : comparator.Agrees cap good other →
      Agrees cap good (.sorted (some comparator)) (.sorted (some other))
  | max {comparator other : Comparator} : comparator.Agrees cap good other →
      Agrees cap good (.max comparator) (.max other)
  | min {comparator other : Comparator} : comparator.Agrees cap good other →
      Agrees cap good (.min comparator) (.min other)
  | sum {selector other : Selector} : selector.Agrees cap good other →
      Agrees cap good (.sum selector) (.sum other)
  | groupBy {selector other : Selector} : selector.Agrees cap good other →
      Agrees cap good (.groupBy selector) (.groupBy other)
  | summing {selector other : Selector} : selector.Agrees cap good other →
      Agrees cap good (.collect (.summing selector)) (.collect (.summing other))

theorem Flow.applyParts_eq {stage other : Stage} {parts : List (Key × Flow)}
    (same : ∀ key part, (key, part) ∈ parts →
      part.apply cap token other = part.apply cap token stage) :
    applyParts cap token other parts = applyParts cap token stage parts := by
  induction parts with
  | nil => rfl
  | cons head rest ih =>
      obtain ⟨key, part⟩ := head
      have others := ih fun key part member => same key part (.tail _ member)
      simp only [applyParts, same key part (.head _), others]

namespace Stage.Agrees

variable {stage other : Stage} (agrees : stage.Agrees cap good other)
include agrees

theorem name : other.name = stage.name := by
  cases agrees <;> rfl

theorem onSequence {elements : Sequence} (guarded : elements.Guarded good allowed) :
    other.onSequence cap token elements = stage.onSequence cap token elements := by
  have items : Ensures (fun items => ∀ value ∈ items, good value) (fun _ => True)
      (elements.materialize cap token) := guarded.materialize_good cap
  cases agrees with
  | refl => rfl
  | filter agrees => simp only [Stage.onSequence, guarded.filter_eq agrees.test]
  | map agrees => simp only [Stage.onSequence, guarded.map_eq agrees]
  | flatMap agrees => simp only [Stage.onSequence, guarded.flatMap_eq agrees]
  | sorted agrees =>
      refine items.bind_eq fun items holds => ?_
      simp only [Option.getD_some, agrees.sort holds]
  | max agrees | min agrees =>
      refine items.bind_eq fun items holds => ?_
      simp only [agrees.extreme _ holds]
  | sum agrees =>
      simp only [Stage.onSequence, Sequence.sum, guarded.consume_eq agrees.addTo]
  | groupBy agrees =>
      simp only [Stage.onSequence, Sequence.group, guarded.consume_eq agrees.addToGroup]
  | summing agrees =>
      simp only [Stage.onSequence, Sequence.collect, Sequence.sum, guarded.consume_eq agrees.addTo]

theorem apply {flow : Flow} (guarded : flow.Guarded good allowed) :
    flow.apply cap token other = flow.apply cap token stage := by
  induction guarded with
  | sequence elements => exact agrees.onSequence elements
  | single _ => simp only [Flow.apply, agrees.name]
  | groups _ ih => simp only [Flow.apply, Flow.applyParts_eq ih]

end Stage.Agrees

end Pipeline
