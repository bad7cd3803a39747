import Pipeline.Proofs.Grouping

/-! Induction over flows, group by group, and what a stage and the end of a chain make of groups
in terms of the first of them and the others. -/

set_option autoImplicit false

namespace Pipeline

/-- A map with one more entry in front; no other value has entries. -/
def Value.withEntry (value : Value) (key : Key) (first : Value) : Value :=
  match value with
  | map entries => map ((key, first) :: entries)
  | other => other

namespace Flow

@[elab_as_elim]
theorem induct {motive : Flow → Prop} (sequence : ∀ elements, motive (.sequence elements))
    (single : ∀ value, motive (.single value)) (noGroups : motive (.groups []))
    (group : ∀ key part parts, motive part → motive (.groups parts) →
      motive (.groups ((key, part) :: parts))) (flow : Flow) : motive flow :=
  @Flow.rec motive (fun parts => motive (.groups parts)) (fun entry => motive entry.2)
    sequence single (fun _ parts => parts) noGroups
    (fun (key, part) parts first rest => group key part parts first rest) (fun _ _ part => part)
    flow

/-- Groups with one more in front; no other flow has groups. -/
def withGroup (flow : Flow) (key : Key) (part : Flow) : Flow :=
  match flow with
  | groups parts => groups ((key, part) :: parts)
  | other => other

variable {cap : Nat} {token : CancelToken} {key : Key} {part : Flow} {rest : List (Key × Flow)}

theorem apply_groups_cons (stage : Stage) :
    (groups ((key, part) :: rest)).apply cap token stage = (do
      let first ← part.apply cap token stage
      let others ← (groups rest).apply cap token stage
      .ok (others.withGroup key first)) := by
  simp only [apply, applyParts]
  cases part.apply cap token stage with
  | error error => rfl
  | ok first => cases applyParts cap token stage rest <;> rfl

theorem finish_groups_cons :
    (groups ((key, part) :: rest)).finish cap token = (do
      let first ← part.finish cap token
      let others ← (groups rest).finish cap token
      .ok (others.withEntry key first)) := by
  simp only [finish, finishParts]
  cases part.finish cap token with
  | error error => rfl
  | ok first => cases finishParts cap token rest <;> rfl

theorem apply_group_eq_ok {stage : Stage} {flow : Flow} :
    (groups ((key, part) :: rest)).apply cap token stage = .ok flow ↔
      ∃ first others, part.apply cap token stage = .ok first ∧
        (groups rest).apply cap token stage = .ok (groups others) ∧
        flow = groups ((key, first) :: others) := by
  simp only [apply_groups_eq_ok, applyParts_cons_eq_ok, groups.injEq, exists_eq_right']
  constructor
  · rintro ⟨_, ⟨first, others, applied, appliedRest, rfl⟩, rfl⟩
    exact ⟨first, others, applied, appliedRest, rfl⟩
  · rintro ⟨first, others, applied, appliedRest, rfl⟩
    exact ⟨_, ⟨first, others, applied, appliedRest, rfl⟩, rfl⟩

theorem finish_group_eq_ok {value : Value} :
    (groups ((key, part) :: rest)).finish cap token = .ok value ↔
      ∃ first entries, part.finish cap token = .ok first ∧
        (groups rest).finish cap token = .ok (.map entries) ∧
        value = .map ((key, first) :: entries) := by
  simp only [finish_groups_eq_ok, finishParts_cons_eq_ok, Value.map.injEq, exists_eq_right']
  constructor
  · rintro ⟨_, ⟨first, entries, finished, finishedRest, rfl⟩, rfl⟩
    exact ⟨first, entries, finished, finishedRest, rfl⟩
  · rintro ⟨first, entries, finished, finishedRest, rfl⟩
    exact ⟨_, ⟨first, entries, finished, finishedRest, rfl⟩, rfl⟩

end Flow

end Pipeline
