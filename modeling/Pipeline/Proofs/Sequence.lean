import Pipeline.Proofs.Except
import Pipeline.Run.Sequence

/-! What a lazy sequence can put out. A property of all elements together with one of all
failures passes through every combinator, and through the loops that take elements in. -/

set_option autoImplicit false

namespace Pipeline.Sequence

/-- The sequence puts out the element at some step. -/
inductive Yields (element : Value) : Sequence → Prop where
  | here {rest : Unit → Sequence} : Yields element (.yield element rest)
  | later {value : Value} {rest : Unit → Sequence} :
      Yields element (rest ()) → Yields element (.yield value rest)
  | skip {rest : Unit → Sequence} : Yields element (rest ()) → Yields element (.skip rest)

/-- All elements are `good`, and the sequence can only end in a failure that is `allowed`. -/
inductive Guarded (good : Value → Prop) (allowed : RunError → Prop) : Sequence → Prop where
  | done : Guarded good allowed .done
  | fail {error : RunError} : allowed error → Guarded good allowed (.fail error)
  | skip {rest : Unit → Sequence} :
      Guarded good allowed (rest ()) → Guarded good allowed (.skip rest)
  | yield {value : Value} {rest : Unit → Sequence} :
      good value → Guarded good allowed (rest ()) → Guarded good allowed (.yield value rest)

section Guarded

variable {good kept : Value → Prop} {allowed : RunError → Prop} {sequence : Sequence}

theorem Guarded.good_of_yields {element : Value} (guarded : Guarded good allowed sequence)
    (yields : Yields element sequence) : good element := by
  induction yields with
  | here => cases guarded with | yield holds _ => exact holds
  | later _ ih => cases guarded with | yield _ rest => exact ih rest
  | skip _ ih => cases guarded with | skip rest => exact ih rest

/-- A property of every element that is put out may be added to what is known of them. -/
theorem Guarded.and_yields (guarded : Guarded good allowed sequence) :
    Guarded (fun value => good value ∧ Yields value sequence) allowed sequence := by
  have within : ∀ {inner}, Guarded good allowed inner →
      (∀ value, Yields value inner → Yields value sequence) →
      Guarded (fun value => good value ∧ Yields value sequence) allowed inner := by
    intro inner guarded
    induction guarded with
    | done => intro _; exact .done
    | fail holds => intro _; exact .fail holds
    | skip _ ih =>
        intro included
        exact .skip (ih fun value yields => included value (.skip yields))
    | yield holds _ ih =>
        intro included
        exact .yield ⟨holds, included _ .here⟩
          (ih fun value yields => included value (.later yields))
  exact within guarded fun _ yields => yields

theorem Guarded.mono {more : RunError → Prop} (guarded : Guarded good allowed sequence)
    (weaker : ∀ value, good value → kept value) (wider : ∀ error, allowed error → more error) :
    Guarded kept more sequence := by
  induction guarded with
  | done => exact .done
  | fail holds => exact .fail (wider _ holds)
  | skip _ ih => exact .skip ih
  | yield holds _ ih => exact .yield (weaker _ holds) ih

theorem guarded_ofList {values : List Value} (holds : ∀ value ∈ values, good value) :
    Guarded good allowed (ofList values) := by
  induction values with
  | nil => exact .done
  | cons value rest ih =>
      rw [List.forall_mem_cons] at holds
      exact .yield holds.1 (ih holds.2)

theorem guarded_consecutive (holds : ∀ n, good (.integer n)) (first : Int) (count : Nat) :
    Guarded good allowed (consecutive first count) := by
  induction count generalizing first with
  | zero => exact .done
  | succ count ih => exact .yield (holds _) (ih (first + 1))

theorem Guarded.filter {test : Value → Except RunError Bool}
    (guarded : Guarded good allowed sequence)
    (tested : ∀ value, good value → Ensures (fun _ => True) allowed (test value)) :
    Guarded good allowed (sequence.filter test) := by
  induction guarded with
  | done => exact .done
  | fail holds => exact .fail holds
  | skip _ ih => exact .skip ih
  | @yield value rest holds _ ih =>
      have ensured := tested value holds
      rw [Sequence.filter]
      cases result : test value with
      | ok passed =>
          cases passed with
          | true => exact .yield holds ih
          | false => exact .skip ih
      | error error => exact .fail (by rwa [result] at ensured)

theorem Guarded.map {image : Value → Except RunError Value}
    (guarded : Guarded good allowed sequence)
    (mapped : ∀ value, good value → Ensures kept allowed (image value)) :
    Guarded kept allowed (sequence.map image) := by
  induction guarded with
  | done => exact .done
  | fail holds => exact .fail holds
  | skip _ ih => exact .skip ih
  | @yield value rest holds _ ih =>
      have ensured := mapped value holds
      rw [Sequence.map]
      cases result : image value with
      | ok mapped => exact .yield (by rwa [result] at ensured) ih
      | error error => exact .fail (by rwa [result] at ensured)

theorem Guarded.append {second : Unit → Sequence} (guarded : Guarded good allowed sequence)
    (behind : Guarded good allowed (second ())) :
    Guarded good allowed (sequence.append second) := by
  induction guarded with
  | done => exact .skip behind
  | fail holds => exact .fail holds
  | skip _ ih => exact .skip ih
  | yield holds _ ih => exact .yield holds ih

theorem Guarded.flatMap {expand : Value → Except RunError Sequence}
    (guarded : Guarded good allowed sequence)
    (expanded : ∀ value, good value → Ensures (Guarded kept allowed) allowed (expand value)) :
    Guarded kept allowed (sequence.flatMap expand) := by
  induction guarded with
  | done => exact .done
  | fail holds => exact .fail holds
  | skip _ ih => exact .skip ih
  | @yield value rest holds _ ih =>
      have ensured := expanded value holds
      rw [Sequence.flatMap]
      cases result : expand value with
      | ok expanded => exact Guarded.append (by rwa [result] at ensured) ih
      | error error => exact .fail (by rwa [result] at ensured)

theorem Guarded.take (guarded : Guarded good allowed sequence) (count : Nat) :
    Guarded good allowed (sequence.take count) := by
  induction guarded generalizing count with
  | done => cases count <;> exact .done
  | fail holds =>
      cases count with
      | zero => exact .done
      | succ count => exact .fail holds
  | skip _ ih =>
      cases count with
      | zero => exact .done
      | succ count => exact .skip (ih (count + 1))
  | yield holds _ ih =>
      cases count with
      | zero => exact .done
      | succ count => exact .yield holds (ih count)

theorem Guarded.drop (guarded : Guarded good allowed sequence) (count : Nat) :
    Guarded good allowed (sequence.drop count) := by
  induction guarded generalizing count with
  | done => cases count <;> exact .done
  | fail holds => cases count <;> exact .fail holds
  | skip _ ih => cases count <;> exact .skip (ih _)
  | yield holds rest ih =>
      cases count with
      | zero => exact .yield holds rest
      | succ count => exact .skip (ih count)

/-- What a loop knows of its state it knows at the end, if taking in an element keeps it. -/
theorem Guarded.drain {σ : Type} {room : σ → Option RunError}
    {accept : σ → Value → Except RunError σ} {invariant : σ → Prop}
    (guarded : Guarded good allowed sequence) (cancelled : allowed .cancelled)
    (refused : ∀ state error, invariant state → room state = some error → allowed error)
    (accepted : ∀ state value, invariant state → room state = none → good value →
      Ensures invariant allowed (accept state value))
    (token : CancelToken) {state : σ} (start : invariant state) :
    Ensures invariant allowed (sequence.drain room accept token state) := by
  induction guarded generalizing token state with
  | done => exact start
  | fail holds =>
      rw [Sequence.drain]
      cases token.step? with
      | none => exact cancelled
      | some token =>
          cases refusal : room state with
          | none => exact holds
          | some error => exact refused state error start refusal
  | skip _ ih =>
      rw [Sequence.drain]
      cases token.step? with
      | none => exact cancelled
      | some token => exact ih token start
  | @yield value rest holds _ ih =>
      rw [Sequence.drain]
      cases token.step? with
      | none => exact cancelled
      | some token =>
          cases refusal : room state with
          | some error => exact refused state error start refusal
          | none =>
              have ensured := accepted state value start refusal holds
              cases result : accept state value with
              | ok next => exact ih token (by rwa [result] at ensured)
              | error error => rwa [result] at ensured

theorem Guarded.consume {σ : Type} {accept : σ → Value → Except RunError σ}
    {invariant : σ → Prop} (guarded : Guarded good allowed sequence)
    (cancelled : allowed .cancelled)
    (accepted : ∀ state value, invariant state → good value →
      Ensures invariant allowed (accept state value))
    (token : CancelToken) {state : σ} (start : invariant state) :
    Ensures invariant allowed (sequence.consume accept token state) :=
  guarded.drain cancelled (fun _ _ _ refusal => by cases refusal)
    (fun state value holds _ => accepted state value holds) token start

/-- The elements that are taken in as a list are good, and not more than the cap. -/
theorem Guarded.materialize (guarded : Guarded good allowed sequence)
    (cancelled : allowed .cancelled) (cap : Nat) (tooMany : allowed (.tooManyElements cap))
    (token : CancelToken) :
    Ensures (fun items => items.length ≤ cap ∧ ∀ value ∈ items, good value) allowed
      (sequence.materialize cap token) := by
  refine Ensures.map (?_ : Ensures (fun state : List Value × Nat =>
    state.1.length = state.2 ∧ state.2 ≤ cap ∧ ∀ value ∈ state.1, good value) allowed _) ?_
  · refine guarded.drain cancelled ?_ ?_ token ⟨rfl, Nat.zero_le _, List.forall_mem_nil _⟩
    · intro state error _ refusal
      simp only [capRoom] at refusal
      split at refusal <;> simp_all
    · rintro ⟨items, size⟩ value holds free element
      simp only [capRoom] at free
      split at free
      · cases free
      · exact ⟨by simp [holds.1], by omega, List.forall_mem_cons.2 ⟨element, holds.2.2⟩⟩
  · rintro ⟨items, size⟩ holds
    simp only [List.length_reverse, List.mem_reverse]
    exact ⟨holds.1 ▸ holds.2.1, holds.2.2⟩

end Guarded

end Pipeline.Sequence
