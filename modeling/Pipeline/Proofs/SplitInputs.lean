import Pipeline.Proofs.Contents
import Pipeline.Proofs.Laziness

/-! Stages that treat each element by itself go through an input in two parts as through the one and
then the other. What the run comes to is the same, except that a failure behind as many elements as
the cap has room for is taken for an element too many. -/

set_option autoImplicit false

namespace Pipeline

namespace Sequence

/-! ## Combinators over two sequences -/

theorem append_assoc (first : Sequence) (second third : Unit → Sequence) :
    (first.append second).append third = first.append fun _ => (second ()).append third := by
  induction first with
  | done | fail error => rfl
  | skip rest ih | yield value rest ih => simp [append, ih]

theorem filter_append (test : Value → Except RunError Bool) (first : Sequence)
    (second : Unit → Sequence) :
    (first.append second).filter test =
      (first.filter test).append fun _ => (second ()).filter test := by
  induction first with
  | done | fail error => rfl
  | skip rest ih => simp [append, filter, ih]
  | yield value rest ih =>
      simp only [append, filter]
      cases test value with
      | error error => rfl
      | ok passed => cases passed <;> simp [append, ih]

theorem map_append (image : Value → Except RunError Value) (first : Sequence)
    (second : Unit → Sequence) :
    (first.append second).map image = (first.map image).append fun _ => (second ()).map image := by
  induction first with
  | done | fail error => rfl
  | skip rest ih => simp [append, map, ih]
  | yield value rest ih =>
      simp only [append, map]
      cases image value <;> simp [append, ih]

theorem flatMap_append (expand : Value → Except RunError Sequence) (first : Sequence)
    (second : Unit → Sequence) :
    (first.append second).flatMap expand =
      (first.flatMap expand).append fun _ => (second ()).flatMap expand := by
  induction first with
  | done | fail error => rfl
  | skip rest ih => simp [append, flatMap, ih]
  | yield value rest ih =>
      simp only [append, flatMap]
      cases expand value with
      | error error => rfl
      | ok expanded => simp [ih, append_assoc]

theorem dense_ofList_append (front back : List Value) :
    ((ofList front).append fun _ => ofList back).dense = ofList (front ++ back) := by
  induction front with
  | nil => exact dense_ofList back
  | cons value rest ih => simp [ofList, append, dense, ih]

/-! ## What is put out and how it ends -/

theorem yielded_dense (sequence : Sequence) : sequence.dense.yielded = sequence.yielded := by
  induction sequence with
  | done | fail error => rfl
  | skip rest ih => exact ih ()
  | yield value rest ih => simp [dense, yielded, ih]

theorem yielded_of_contents {sequence : Sequence} {items : List Value}
    (all : sequence.contents = .ok items) : sequence.yielded = items := by
  induction sequence generalizing items with
  | done =>
      cases all
      rfl
  | fail error => cases all
  | skip rest ih => exact ih () all
  | yield value rest ih =>
      obtain ⟨others, behind, rfl⟩ := contents_yield_eq_ok.1 all
      simp [yielded, ih () behind]

theorem contents_append_of_ok {first : Sequence} {items : List Value}
    (all : first.contents = .ok items) (second : Unit → Sequence) :
    (first.append second).contents = (second ()).contents.map (items ++ ·) := by
  induction first generalizing items with
  | done =>
      cases all
      simp only [append, contents, List.nil_append]
      cases (second ()).contents <;> rfl
  | fail error => cases all
  | skip rest ih => exact ih () all
  | yield value rest ih =>
      obtain ⟨others, behind, rfl⟩ := contents_yield_eq_ok.1 all
      rw [append, contents, ih () behind]
      cases (second ()).contents <;> rfl

theorem yielded_append {first : Sequence} {items : List Value}
    (all : first.contents = .ok items) (second : Unit → Sequence) :
    (first.append second).yielded = items ++ (second ()).yielded := by
  induction first generalizing items with
  | done =>
      cases all
      rfl
  | fail error => cases all
  | skip rest ih => exact ih () all
  | yield value rest ih =>
      obtain ⟨others, behind, rfl⟩ := contents_yield_eq_ok.1 all
      simp [append, yielded, ih () behind]

/-- Nothing is asked for behind a failure. -/
theorem append_of_error {first : Sequence} {error : RunError}
    (failed : first.contents = .error error) (second : Unit → Sequence) :
    first.append second = first := by
  induction first with
  | done => cases failed
  | fail error => rfl
  | skip rest ih => exact congrArg skip (funext fun _ => ih () failed)
  | yield value rest ih =>
      have behind : (rest ()).contents = .error error := map_eq_error.1 failed
      exact congrArg (yield value) (funext fun _ => ih () behind)

private theorem drain_of_error {cap : Nat} {sequence : Sequence} {error : RunError}
    (failed : sequence.contents = .error error) (items : List Value) {size : Nat}
    (within : size ≤ cap) :
    sequence.drain (fun state : List Value × Nat => capRoom cap state.2)
        (fun (items, size) value => .ok (value :: items, size + 1)) .never (items, size) =
      .error (if size + sequence.yielded.length < cap then error else .tooManyElements cap) := by
  induction sequence generalizing items size with
  | done => cases failed
  | fail own =>
      cases failed
      simp only [drain, CancelToken.never, CancelToken.step?, capRoom, yielded, List.length_nil,
        Nat.add_zero]
      by_cases full : cap ≤ size
      · simp [full, Nat.not_lt.2 full]
      · simp [full, Nat.lt_of_not_le full]
  | skip rest ih => exact ih () failed items within
  | yield value rest ih =>
      have behind : (rest ()).contents = .error error := map_eq_error.1 failed
      simp only [drain, CancelToken.never, CancelToken.step?, capRoom, yielded, List.length_cons]
      by_cases full : cap ≤ size
      · have exceeds : ¬ size + ((rest ()).yielded.length + 1) < cap := by omega
        simp [full, exceeds]
      · have shift : size + ((rest ()).yielded.length + 1) =
            size + 1 + (rest ()).yielded.length := by omega
        simp only [full, ↓reduceIte, shift]
        exact ih () behind (value :: items) (Nat.lt_of_not_le full)

/-- A failure takes the room of an element: behind as many elements as the cap it is not seen. -/
theorem materialize_of_error {cap : Nat} {sequence : Sequence} {error : RunError}
    (failed : sequence.contents = .error error) :
    sequence.materialize cap .never =
      .error (if sequence.yielded.length < cap then error else .tooManyElements cap) := by
  rw [materialize, drain_of_error failed [] (Nat.zero_le cap), Nat.zero_add]
  rfl

theorem materialize_of_lt_yielded {cap : Nat} {sequence : Sequence}
    (exceeds : cap < sequence.yielded.length) :
    sequence.materialize cap .never = .error (.tooManyElements cap) := by
  cases found : sequence.contents with
  | error error => rw [materialize_of_error found, if_neg (Nat.not_lt.2 (Nat.le_of_lt exceeds))]
  | ok items =>
      rw [yielded_of_contents found] at exceeds
      rw [materialize_of_contents found, bounded, if_neg (Nat.not_le.2 exceeds)]

/-! ## Two sequences taken in as one -/

variable {cap : Nat} {first : Sequence} {second : Unit → Sequence}

theorem materialize_append_of_error {error : RunError}
    (failed : first.materialize cap .never = .error error) :
    (first.append second).materialize cap .never = .error error := by
  cases found : first.contents with
  | error own => rw [append_of_error found, failed]
  | ok items =>
      rw [materialize_of_contents found, bounded] at failed
      split at failed
      · cases failed
      · rename_i exceeds
        cases failed
        apply materialize_of_lt_yielded
        rw [yielded_append found, List.length_append]
        omega

theorem materialize_append_of_ok {items : List Value}
    (taken : first.materialize cap .never = .ok items)
    (within : (first.append second).yielded.length ≤ cap) {others : List Value}
    (behind : (second ()).materialize cap .never = .ok others) :
    (first.append second).materialize cap .never = .ok (items ++ others) := by
  obtain ⟨found, _⟩ := contents_of_materialize taken
  obtain ⟨foundBehind, _⟩ := contents_of_materialize behind
  have whole : (first.append second).contents = .ok (items ++ others) :=
    contents_append_eq_ok.2 ⟨items, others, found, foundBehind, rfl⟩
  rw [yielded_of_contents whole] at within
  rw [materialize_of_contents whole, bounded, if_pos within]

theorem materialize_append_of_ok_error {items : List Value}
    (taken : first.materialize cap .never = .ok items)
    (within : (first.append second).yielded.length ≤ cap) {error : RunError}
    (behind : (second ()).materialize cap .never = .error error) :
    (first.append second).materialize cap .never =
      .error (if (first.append second).yielded.length < cap then error
        else .tooManyElements cap) := by
  obtain ⟨found, _⟩ := contents_of_materialize taken
  have length := congrArg List.length (yielded_append found second)
  rw [List.length_append] at length
  cases foundBehind : (second ()).contents with
  | ok others =>
      have few : others.length ≤ cap := by
        rw [yielded_of_contents foundBehind] at length
        omega
      rw [materialize_of_contents foundBehind, bounded, if_pos few] at behind
      cases behind
  | error own =>
      have whole : (first.append second).contents = .error own := by
        rw [contents_append_of_ok found, foundBehind]
        rfl
      rw [materialize_of_error foundBehind] at behind
      cases behind
      rw [materialize_of_error whole]
      split
      · rename_i room
        rw [if_pos (by omega)]
      · rfl

end Sequence

/-- The stage treats each element by itself. -/
def Stage.isElementwise : Stage → Bool
  | filter _ | map _ | flatMap _ => true
  | sorted _ | distinct | max _ | min _ | sum _ | groupBy _ | collect _ | limit _ | skip _ => false

theorem Stage.exists_image {stage : Stage} (elementwise : stage.isElementwise = true) (cap : Nat)
    (token : CancelToken) :
    ∃ image : Sequence → Sequence,
      (∀ elements, stage.onSequence cap token elements = .ok (.sequence (image elements))) ∧
        ∀ first second, image (first.append second) =
          (image first).append fun _ => image (second ()) := by
  cases stage with
  | filter selector => exact ⟨_, fun _ => rfl, Sequence.filter_append _⟩
  | map selector => exact ⟨_, fun _ => rfl, Sequence.map_append _⟩
  | flatMap lambda => exact ⟨_, fun _ => rfl, Sequence.flatMap_append _⟩
  | sorted _ | distinct | max _ | min _ | sum _ | groupBy _ | collect _ | limit _ | skip _ =>
      cases elementwise

namespace Chain

theorem exists_image {chain : Chain} (elementwise : ∀ stage ∈ chain, stage.isElementwise = true)
    (cap : Nat) (token : CancelToken) :
    ∃ image : Sequence → Sequence,
      (∀ elements,
        chain.through cap token (.sequence elements) = .ok (.sequence (image elements))) ∧
        ∀ first second, image (first.append second) =
          (image first).append fun _ => image (second ()) := by
  induction chain with
  | nil => exact ⟨id, fun _ => rfl, fun _ _ => rfl⟩
  | cons stage rest ih =>
      obtain ⟨here, others⟩ := List.forall_mem_cons.1 elementwise
      obtain ⟨first, applied, firstAppend⟩ := stage.exists_image here cap token
      obtain ⟨behind, through, behindAppend⟩ := ih others
      refine ⟨behind ∘ first, fun elements => ?_, fun front back => ?_⟩
      · exact bind_eq_ok.2 ⟨_, applied elements, through (first elements)⟩
      · simp [firstAppend, behindAppend]

/-- What a chain puts out over its input before it ends or fails. -/
def outputs (cap : Nat) (chain : Chain) (input : List Value) : List Value :=
  match chain.through cap .never (.sequence (.ofList input)) with
  | .ok (.sequence elements) => elements.yielded
  | _ => []

section Image

variable {chain : Chain} {cap : Nat} {image : Sequence → Sequence}
  (through : ∀ elements,
    chain.through cap .never (.sequence elements) = .ok (.sequence (image elements)))
  (images : ∀ first second, image (first.append second) =
    (image first).append fun _ => image (second ()))
include through

theorem run_eq_image (input : List Value) :
    chain.run cap .never input =
      ((image (.ofList input)).materialize cap .never).map .list := by
  simp [run, through, bind, Except.bind, Flow.finish]

include images

/-- The place where two parts of an input meet leaves no trace. -/
theorem dense_image_append (front back : List Value) :
    (image (.ofList (front ++ back))).dense =
      ((image (.ofList front)).append fun _ => image (.ofList back)).dense := by
  have same : (Flow.sequence (.ofList (front ++ back))).dense =
      (Flow.sequence ((Sequence.ofList front).append fun _ => .ofList back)).dense := by
    simp [Flow.dense, Sequence.dense_ofList_append]
  have behind : (chain.through cap .never (.sequence (.ofList (front ++ back)))).map Flow.dense =
      (chain.through cap .never
        (.sequence ((Sequence.ofList front).append fun _ => .ofList back))).map Flow.dense :=
    chain.through_dense same
  simpa [through, images, Except.map, Flow.dense] using behind

theorem run_append_eq_image (front back : List Value) :
    chain.run cap .never (front ++ back) =
      (((image (.ofList front)).append fun _ => image (.ofList back)).materialize
        cap .never).map .list := by
  rw [run_eq_image through, ← Sequence.materialize_dense, dense_image_append through images,
    Sequence.materialize_dense]

theorem outputs_append_eq_image (front back : List Value) :
    chain.outputs cap (front ++ back) =
      ((image (.ofList front)).append fun _ => image (.ofList back)).yielded := by
  rw [outputs, through]
  simp only
  rw [← Sequence.yielded_dense, dense_image_append through images, Sequence.yielded_dense]

end Image

/-- Stages that treat each element by itself go through a first part of the input and then through
the rest, where the cap has room for all that is put out. A failure in the rest is what the whole
run fails with if there is room left behind the elements in front of it. -/
theorem run_append_inputs (cap : Nat) {chain : Chain}
    (elementwise : ∀ stage ∈ chain, stage.isElementwise = true) (front back : List Value)
    (within : (chain.outputs cap (front ++ back)).length ≤ cap) :
    (∀ error, chain.run cap .never front = .error error →
        chain.run cap .never (front ++ back) = .error error) ∧
      ∀ value, chain.run cap .never front = .ok value → ∃ first, value = .list first ∧
        (∀ result, chain.run cap .never back = .ok result → ∃ rest, result = .list rest ∧
          chain.run cap .never (front ++ back) = .ok (.list (first ++ rest))) ∧
        ∀ error, chain.run cap .never back = .error error →
          chain.run cap .never (front ++ back) =
            .error (if (chain.outputs cap (front ++ back)).length < cap then error
              else .tooManyElements cap) := by
  obtain ⟨image, through, images⟩ := exists_image elementwise cap .never
  rw [outputs_append_eq_image through images] at within ⊢
  simp only [run_append_eq_image through images, run_eq_image through, map_eq_error, map_eq_ok]
  refine ⟨fun error => Sequence.materialize_append_of_error, ?_⟩
  rintro _ ⟨first, taken, rfl⟩
  refine ⟨first, rfl, ?_, fun error => Sequence.materialize_append_of_ok_error taken within⟩
  rintro _ ⟨rest, behind, rfl⟩
  exact ⟨rest, rfl, _, Sequence.materialize_append_of_ok taken within behind, rfl⟩

/-- The numbers below each element are turned over. There is room for two more behind the eight that
come out before the division by zero. -/
theorem run_append_inputs_ranges :
    let below : Lambda := ⟨"n", .call "range" [.literal (.number (.integer 0)), .reference "n"]⟩
    let inverse : Selector := .lambda ⟨"x", .binary (.arithmetic .divide)
      (.literal (.number (.integer 12)))
      (.binary (.arithmetic .subtract) (.literal (.number (.integer 3))) (.reference "x"))⟩
    let chain : Chain := [.flatMap below, .map inverse]
    let front : List Value := [.integer 2, .integer 3]
    let back : List Value := [.integer 4]
    (∀ stage ∈ chain, stage.isElementwise = true) ∧
      (chain.outputs 10 (front ++ back)).length = 8 ∧
      (chain.run 10 .never front = .ok (.list [.integer 4, .integer 6, .integer 4, .integer 6,
        .integer 12]) ∧ chain.run 10 .never back = .error .divisionByZero) ∧
      chain.run 10 .never (front ++ back) = .error .divisionByZero := by
  intro below inverse chain front back
  have elementwise : ∀ stage ∈ chain, stage.isElementwise = true := by
    simp [chain, Stage.isElementwise]
  have eight : (chain.outputs 10 (front ++ back)).length = 8 := by rfl
  have ran : chain.run 10 .never front = .ok (.list [.integer 4, .integer 6, .integer 4,
    .integer 6, .integer 12]) := by rfl
  have failed : chain.run 10 .never back = .error .divisionByZero := by rfl
  obtain ⟨first, _, _, fails⟩ :=
    (run_append_inputs 10 elementwise front back (by omega)).2 _ ran
  have whole := fails _ failed
  rw [eight] at whole
  exact ⟨elementwise, eight, ⟨ran, failed⟩, whole⟩

/-- There is one element, for which the cap has room, and a failure behind it. -/
theorem run_append_inputs_full :
    let inverse : Selector := .lambda ⟨"x", .binary (.arithmetic .divide)
      (.literal (.number (.integer 1))) (.reference "x")⟩
    let chain : Chain := [.map inverse]
    (chain.outputs 1 ([.integer 1] ++ [.integer 0])).length ≤ 1 ∧
      chain.run 1 .never [.integer 1] = .ok (.list [.integer 1]) ∧
      chain.run 1 .never [.integer 0] = .error .divisionByZero ∧
      chain.run 1 .never ([.integer 1] ++ [.integer 0]) ≠ .error .divisionByZero := by
  intro inverse chain
  have whole : chain.run 1 .never ([.integer 1] ++ [.integer 0]) =
      .error (.tooManyElements 1) := by rfl
  refine ⟨by decide, by rfl, by rfl, ?_⟩
  rw [whole]
  simp

end Chain

end Pipeline
