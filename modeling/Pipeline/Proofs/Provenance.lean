import Pipeline.Proofs.BuiltValues
import Pipeline.Proofs.Conformance

/-! Where the parts of a result come from. What a script did not find in its input it made itself:
scalars, and lists and maps that are not longer than the cap. So the cap bounds the parts of a
result at every depth, and its records are those of the input. -/

set_option autoImplicit false

namespace Pipeline

/-- The values that scripts make, whatever stands inside them. -/
inductive Value.IsMade (cap : Nat) : Value → Prop where
  | scalar {s : Scalar} : IsMade cap (.scalar s)
  | list {items : List Value} : items.length ≤ cap → IsMade cap (.list items)
  | map {entries : List (Key × Value)} : entries.length ≤ cap → InKeyOrder entries →
      IsMade cap (.map entries)

/-- The value is an element of the input or stands inside one. -/
def Value.OccursIn (input : List Value) (value : Value) : Prop :=
  ∃ element ∈ input, value.Within element

/-- There is nothing inside the elements of an input without lists and maps. -/
theorem Value.OccursIn.mem_of_flat {input : List Value} {value : Value}
    (occurs : value.OccursIn input)
    (flat : ∀ element ∈ input, (∀ items, element ≠ .list items) ∧
      ∀ entries, element ≠ .map entries) : value ∈ input := by
  obtain ⟨element, member, within⟩ := occurs
  cases within with
  | self => exact member
  | item => exact absurd rfl ((flat _ member).1 _)
  | entry => exact absurd rfl ((flat _ member).2 _)

theorem holdsOfBuilt_made (cap : Nat) (input : List Value) :
    HoldsOfBuilt cap fun value => value.IsMade cap ∨ value.OccursIn input :=
  .of_scalars (fun _ => .inl .scalar) (fun _ few => .inl (.list few))
    fun _ few ordered => .inl (.map few ordered)

section Runs

variable {cap : Nat} {token : CancelToken} {chain : Chain} {input : List Value} {value : Value}

/-- Every part of a result was made by the script or is a part of the input. -/
theorem Chain.run_made_or_occurs (ran : chain.run cap token input = .ok value) :
    value.Everywhere fun part => part.IsMade cap ∨ part.OccursIn input := by
  refine chain.run_everywhere (holdsOfBuilt_made cap input) ?_ ?_ ran
  · intro _ _ selector _
    exact selector.literals_of_forall fun _ => .inl .scalar
  · intro element member inner within
    exact .inr ⟨element, member, within⟩

/-- Without lists and maps in the input, none in the result is longer than the cap. -/
theorem Chain.run_within_cap
    (flat : ∀ element ∈ input, (∀ items, element ≠ .list items) ∧
      ∀ entries, element ≠ .map entries)
    (ran : chain.run cap token input = .ok value) :
    (∀ items, (Value.list items).Within value → items.length ≤ cap) ∧
      ∀ entries, (Value.map entries).Within value → entries.length ≤ cap := by
  have parts := Chain.run_made_or_occurs ran
  constructor
  · intro items within
    cases parts _ within with
    | inl made =>
        cases made
        assumption
    | inr occurs => exact absurd rfl ((flat _ (occurs.mem_of_flat flat)).1 items)
  · intro entries within
    cases parts _ within with
    | inl made =>
        cases made
        assumption
    | inr occurs => exact absurd rfl ((flat _ (occurs.mem_of_flat flat)).2 entries)

/-- Groups of lists, one of which is as long as the cap. -/
theorem Chain.run_within_cap_ranges :
    let below : Lambda := ⟨"n", .call "range" [.literal (.number (.integer 0)), .reference "n"]⟩
    let length : Lambda := ⟨"items", .method (.reference "items") "length" []⟩
    let chain : Chain := [.map (.lambda below), .groupBy (.lambda length)]
    let input : List Value := [.integer 2, .integer 3, .integer 2]
    let pair : Value := .list [.integer 0, .integer 1]
    let triple : Value := .list [.integer 0, .integer 1, .integer 2]
    let groups : Value := .map [(.integer 2, .list [pair, pair]), (.integer 3, .list [triple])]
    chain.run 3 .never input = .ok groups ∧
      (∀ items, (Value.list items).Within groups → items.length ≤ 3) ∧
        ∀ entries, (Value.map entries).Within groups → entries.length ≤ 3 := by
  intro below length chain input pair triple groups
  have ran : chain.run 3 .never input = .ok groups := by rfl
  refine ⟨ran, Chain.run_within_cap ?_ ran⟩
  simp [input]

/-- Scripts build no records and change none: those in a result are records of the input. They hold
what their schema declares, as records do that a schema has built. -/
theorem Chain.run_records (ran : chain.run cap token input = .ok value) :
    ∀ r, (Value.record r).Within value →
      (Value.record r).OccursIn input ∧
        ((∀ other, (Value.record other).OccursIn input →
            ∃ values, other.schema.record values = .ok other) →
          r.values.length = r.schema.fields.length ∧
            List.Forall₂ (fun field s => s.fieldKind = field.kind) r.schema.fields r.values) := by
  intro r within
  have occurs : (Value.record r).OccursIn input := by
    cases Chain.run_made_or_occurs ran _ within with
    | inl made => cases made
    | inr occurs => exact occurs
  refine ⟨occurs, fun built => ?_⟩
  have conforms := Record.conforms_iff_built.2 (built r occurs)
  have kinds : r.schema.fields.map Field.kind = r.values.map Scalar.fieldKind :=
    beq_iff_eq.1 conforms
  have pairs : List.Forall₂ (fun kind found => found = kind) (r.schema.fields.map Field.kind)
      (r.values.map Scalar.fieldKind) := kinds ▸ List.forall₂_same.2 fun _ _ => rfl
  rw [List.forall₂_map_left_iff, List.forall₂_map_right_iff] at pairs
  exact ⟨Record.length_of_conforms conforms, pairs⟩

/-- The oldest animal of each species. -/
theorem Chain.run_records_oldest :
    let schema : Schema := ⟨"Animal", [⟨"species", .text⟩, ⟨"age", .number⟩], none⟩
    let cub : Record := ⟨schema, [.text "Lion", .number (.integer 2)]⟩
    let lion : Record := ⟨schema, [.text "Lion", .number (.integer 9)]⟩
    let zebra : Record := ⟨schema, [.text "Zebra", .number (.integer 4)]⟩
    let chain : Chain := [.groupBy (.field "species"), .max ⟨[⟨.field "age", .ascending⟩]⟩]
    let input : List Value := [.record cub, .record zebra, .record lion]
    let oldest : Value := .map [(.text "Lion", .record lion), (.text "Zebra", .record zebra)]
    chain.run 10 .never input = .ok oldest ∧ (Value.record lion).Within oldest ∧
      (Value.record lion).OccursIn input ∧ lion.values.length = schema.fields.length ∧
        List.Forall₂ (fun field s => s.fieldKind = field.kind) schema.fields lion.values := by
  intro schema cub lion zebra chain input oldest
  have ran : chain.run 10 .never input = .ok oldest := by rfl
  have within : (Value.record lion).Within oldest := .entry (.head _) .self
  obtain ⟨occurs, declared⟩ := Chain.run_records ran lion within
  refine ⟨ran, within, occurs, declared ?_⟩
  intro other inside
  have member := inside.mem_of_flat (by simp [input])
  simp only [input, List.mem_cons, List.not_mem_nil, or_false, Value.record.injEq] at member
  obtain rfl | rfl | rfl := member
  · exact ⟨[.text "Lion", .integer 2], rfl⟩
  · exact ⟨[.text "Zebra", .integer 4], rfl⟩
  · exact ⟨[.text "Lion", .integer 9], rfl⟩

end Runs

end Pipeline
