import Pipeline.Proofs.Except
import Pipeline.Script.ExprParser

/-! What the single steps of parsers do to the cursor. A parser that succeeds never leaves
the fault with which the tokens break off in view. -/

set_option autoImplicit false

namespace Pipeline

/-- There is no fault, or there are tokens enough in front of it. -/
def Cursor.FaultOutOfView (cursor : Cursor) : Prop :=
  cursor.fault = none ∨ 2 ≤ cursor.tokens.length

/-- The second cursor is reached from the first one without coming upon a fault. -/
structure Cursor.Reaches (cursor after : Cursor) : Prop where
  fault : after.fault = cursor.fault
  outOfView : cursor.FaultOutOfView → after.FaultOutOfView

namespace Cursor

theorem Reaches.refl (cursor : Cursor) : cursor.Reaches cursor :=
  ⟨rfl, id⟩

theorem Reaches.trans {cursor middle after : Cursor} (first : cursor.Reaches middle)
    (second : middle.Reaches after) : cursor.Reaches after :=
  ⟨second.fault.trans first.fault, second.outOfView ∘ first.outOfView⟩

theorem advance_reaches {cursor after : Cursor} (advanced : cursor.advance = .ok after) :
    cursor.Reaches after ∧ after.tokens = cursor.tokens.tail := by
  unfold advance at advanced
  split at advanced
  · cases advanced
  · rename_i inView
    cases advanced
    refine ⟨⟨rfl, fun _ => ?_⟩, rfl⟩
    cases fault : cursor.fault with
    | none => exact .inl rfl
    | some error =>
        have further : cursor.tokens.drop 2 ≠ [] := fun none => inView error fault none
        have length := List.length_pos_iff.2 further
        rw [List.length_drop] at length
        exact .inr (by simp only [List.length_tail]; omega)

/-- The cursor moves on by the given token. -/
def Passes (token : Token) (cursor after : Cursor) : Prop :=
  cursor.tokens = token :: after.tokens ∧ cursor.Reaches after

theorem passes_of_advance {token : Token} {cursor after : Cursor}
    (current : cursor.current = some token) (advanced : cursor.advance = .ok after) :
    Passes token cursor after := by
  obtain ⟨reaches, tail⟩ := advance_reaches advanced
  obtain ⟨rest, same⟩ := List.head?_eq_some_iff.1 current
  rw [same] at tail
  exact ⟨tail ▸ same, reaches⟩

end Cursor

namespace Parse

variable {α β : Type} {cursor after : Cursor}

/-! ## Steps that succeed -/

theorem run_bind_eq_ok {first : Parse α} {next : α → Parse β} {result : β} :
    (first >>= next).run cursor = .ok (result, after) ↔
      ∃ value middle, first.run cursor = .ok (value, middle) ∧
        (next value).run middle = .ok (result, after) := by
  rw [StateT.run_bind, bind_eq_ok]
  exact ⟨fun ⟨(value, middle), first, second⟩ => ⟨value, middle, first, second⟩,
    fun ⟨value, middle, first, second⟩ => ⟨(value, middle), first, second⟩⟩

theorem run_bind_ok {first : Parse α} {next : α → Parse β} {middle : Cursor} {value : α}
    (ran : first.run cursor = .ok (value, middle)) :
    (first >>= next).run cursor = (next value).run middle := by
  rw [StateT.run_bind, ran]
  rfl

theorem run_map_eq_ok {first : Parse α} {image : α → β} {result : β} :
    (image <$> first).run cursor = .ok (result, after) ↔
      ∃ value, first.run cursor = .ok (value, after) ∧ image value = result := by
  rw [map_eq_pure_bind, run_bind_eq_ok]
  constructor
  · rintro ⟨value, middle, first, second⟩
    cases second
    exact ⟨value, first, rfl⟩
  · rintro ⟨value, first, rfl⟩
    exact ⟨value, after, first, rfl⟩

/-- A step that looks at the cursor leaves it where it is. -/
theorem run_current_bind {next : Option Token → Parse β} :
    (current >>= next).run cursor = (next cursor.current).run cursor :=
  rfl

theorem run_atSymbol_bind {symbol : Symbol} {next : Bool → Parse β} :
    (atSymbol symbol >>= next).run cursor =
      (next (cursor.current == some (.symbol symbol))).run cursor :=
  rfl

theorem run_get_bind {next : Cursor → Parse β} :
    (get >>= next).run cursor = (next cursor).run cursor :=
  rfl

theorem run_atName_bind {name : String} {next : Bool → Parse β} :
    (atName name >>= next).run cursor =
      (next (cursor.current == some (.name name))).run cursor :=
  rfl

theorem run_atNameThen_bind {name : String} {token : Token} {next : Bool → Parse β} :
    (atNameThen name token >>= next).run cursor =
      (next (cursor.current == some (.name name) && cursor.peek == some token)).run cursor :=
  rfl

theorem run_remaining_bind {next : Nat → Parse β} :
    (remaining >>= next).run cursor = (next cursor.tokens.length).run cursor :=
  rfl

theorem run_advance : advance.run cursor = cursor.advance.map ((), ·) := by
  simp only [advance, StateT.run_bind, StateT.run_get, pure_bind, StateT.run_monadLift,
    bind_assoc, StateT.run_set]
  cases cursor.advance <;> rfl

theorem passes_of_run_advance {token : Token} {result : Unit}
    (current : cursor.current = some token) (passed : advance.run cursor = .ok (result, after)) :
    cursor.Passes token after := by
  rw [run_advance, map_eq_ok] at passed
  obtain ⟨_, advanced, same⟩ := passed
  cases same
  exact Cursor.passes_of_advance current advanced

theorem passes_of_expect {symbol : Symbol} {result : Unit}
    (passed : (expect symbol).run cursor = .ok (result, after)) :
    cursor.Passes (.symbol symbol) after := by
  rw [expect, run_atSymbol_bind] at passed
  split at passed
  · rename_i found
    exact passes_of_run_advance (beq_iff_eq.1 found) passed
  · cases passed

theorem passes_of_expectName {expected : Expected} {name : String}
    (passed : (expectName expected).run cursor = .ok (name, after)) :
    cursor.Passes (.name name) after := by
  rw [expectName, run_current_bind] at passed
  split at passed
  · rename_i found current
    obtain ⟨_, middle, advanced, same⟩ := run_bind_eq_ok.1 passed
    cases same
    exact passes_of_run_advance current advanced
  · cases passed

theorem of_expectEnd {result : Unit} (passed : expectEnd.run cursor = .ok (result, after)) :
    cursor.tokens = [] ∧ after = cursor := by
  rw [expectEnd, run_current_bind] at passed
  split at passed
  · rename_i none
    cases passed
    exact ⟨List.head?_eq_none_iff.1 none, rfl⟩
  · cases passed

end Parse

end Pipeline
