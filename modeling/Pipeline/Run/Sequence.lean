import Pipeline.Run.Error

/-!
# Lazy sequences

The elements that flow from stage to stage. A sequence is unrolled one step at a time,
and every step is short: a stage that passes over an element says so by a step of its
own. Elements that nobody asks for are never computed, and neither are the failures
behind them.
-/

set_option autoImplicit false

namespace Pipeline

/-- A sequence of values that may end in a failure. -/
inductive Sequence where
  | done
  | fail (error : RunError)
  /-- A step without an element. -/
  | skip (rest : Unit → Sequence)
  | yield (value : Value) (rest : Unit → Sequence)

/-- A request to stop, seen whenever a sequence is asked for a step. It is in force from
the start, or after a number of steps of the sequence, or never. -/
structure CancelToken where
  stepsLeft : Option Nat

namespace CancelToken

def never : CancelToken := ⟨none⟩

def cancelled : CancelToken := ⟨some 0⟩

/-- The token after one more step, unless it asks to stop. -/
def step? (token : CancelToken) : Option CancelToken :=
  match token.stepsLeft with
  | none => some never
  | some 0 => none
  | some (steps + 1) => some ⟨some steps⟩

end CancelToken

namespace Sequence

def ofList : List Value → Sequence
  | [] => done
  | value :: rest => yield value fun _ => ofList rest

/-- The sequence of consecutive integers, as many as given, from a first one on. -/
def consecutive (first : Int) : Nat → Sequence
  | 0 => done
  | count + 1 => yield (.integer (Int64.ofInt first)) fun _ => consecutive (first + 1) count

def filter (test : Value → Except RunError Bool) : Sequence → Sequence
  | done => done
  | fail error => fail error
  | skip rest => skip fun _ => (rest ()).filter test
  | yield value rest =>
    match test value with
    | .ok true => yield value fun _ => (rest ()).filter test
    | .ok false => skip fun _ => (rest ()).filter test
    | .error error => fail error

def map (image : Value → Except RunError Value) : Sequence → Sequence
  | done => done
  | fail error => fail error
  | skip rest => skip fun _ => (rest ()).map image
  | yield value rest =>
    match image value with
    | .ok value => yield value fun _ => (rest ()).map image
    | .error error => fail error

def append (second : Unit → Sequence) : Sequence → Sequence
  | done => skip second
  | fail error => fail error
  | skip rest => skip fun _ => (rest ()).append second
  | yield value rest => yield value fun _ => (rest ()).append second

/-- The elements of the sequences that the elements expand to. -/
def flatMap (expand : Value → Except RunError Sequence) : Sequence → Sequence
  | done => done
  | fail error => fail error
  | skip rest => skip fun _ => (rest ()).flatMap expand
  | yield value rest =>
    match expand value with
    | .ok expanded => expanded.append fun _ => (rest ()).flatMap expand
    | .error error => fail error

/-- The first elements, at most `count` of them. Behind them the sequence is not asked for
another step. -/
def take : Nat → Sequence → Sequence
  | 0, _ => done
  | _, done => done
  | _, fail error => fail error
  | count, skip rest => skip fun _ => (rest ()).take count
  | count + 1, yield value rest => yield value fun _ => (rest ()).take count

/-- The elements behind the first ones. A failure among the first ones is not passed
over. -/
def drop : Nat → Sequence → Sequence
  | _, done => done
  | _, fail error => fail error
  | count, skip rest => skip fun _ => (rest ()).drop count
  | 0, yield value rest => yield value rest
  | count + 1, yield _ rest => skip fun _ => (rest ()).drop count

/-- Takes in all elements, one after the other. Before each step the token is looked at;
before an element or failure is, `room` may refuse it. -/
def drain {σ : Type} (room : σ → Option RunError) (accept : σ → Value → Except RunError σ)
    (token : CancelToken) (state : σ) : Sequence → Except RunError σ
  | done => .ok state
  | fail error =>
    match token.step? with
    | none => .error .cancelled
    | some _ => .error ((room state).getD error)
  | skip rest =>
    match token.step? with
    | none => .error .cancelled
    | some token => (rest ()).drain room accept token state
  | yield value rest =>
    match token.step?, room state with
    | none, _ => .error .cancelled
    | some _, some refusal => .error refusal
    | some token, none =>
      match accept state value with
      | .ok state => (rest ()).drain room accept token state
      | .error error => .error error

/-- Takes in all elements, without a bound on their number. -/
def consume {σ : Type} (accept : σ → Value → Except RunError σ) (token : CancelToken)
    (state : σ) (sequence : Sequence) : Except RunError σ :=
  sequence.drain (fun _ => none) accept token state

/-- Refuses an element more than the cap. -/
def capRoom (cap size : Nat) : Option RunError :=
  if cap ≤ size then some (.tooManyElements cap) else none

def materialize (cap : Nat) (token : CancelToken) (sequence : Sequence) :
    Except RunError (List Value) :=
  (sequence.drain (fun state : List Value × Nat => capRoom cap state.2)
    (fun (items, size) value => .ok (value :: items, size + 1)) token ([], 0)).map
      fun (items, _) => items.reverse

end Sequence

end Pipeline
