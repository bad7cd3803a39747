import Pipeline.Output
import Pipeline.Proofs.Except
import Pipeline.Proofs.Lookup

/-! The values inside a value and the outputs inside an output, at any depth, and properties that
all of them have. -/

set_option autoImplicit false

namespace Pipeline

namespace Value

/-- The value is the other one or stands somewhere inside it. -/
inductive Within (inner : Value) : Value → Prop where
  | self : Within inner inner
  | item {items : List Value} {part : Value} :
      part ∈ items → Within inner part → Within inner (.list items)
  | entry {entries : List (Key × Value)} {key : Key} {part : Value} :
      (key, part) ∈ entries → Within inner part → Within inner (.map entries)

/-- A property of a value and of all values inside it. -/
def Everywhere (p : Value → Prop) (value : Value) : Prop :=
  ∀ inner : Value, inner.Within value → p inner

variable {p : Value → Prop}

theorem Everywhere.self {value : Value} (all : value.Everywhere p) : p value :=
  all value .self

theorem everywhere_scalar_iff {s : Scalar} : (scalar s).Everywhere p ↔ p (.scalar s) := by
  refine ⟨Everywhere.self, fun holds inner within => ?_⟩
  cases within
  exact holds

theorem everywhere_record_iff {r : Record} : (record r).Everywhere p ↔ p (.record r) := by
  refine ⟨Everywhere.self, fun holds inner within => ?_⟩
  cases within
  exact holds

theorem everywhere_list_iff {items : List Value} :
    (list items).Everywhere p ↔ p (.list items) ∧ ∀ item ∈ items, item.Everywhere p := by
  refine ⟨fun all => ⟨all.self, fun item member inner within => all inner (.item member within)⟩,
    fun ⟨own, inside⟩ inner within => ?_⟩
  cases within with
  | self => exact own
  | item member within => exact inside _ member inner within

theorem everywhere_map_iff {entries : List (Key × Value)} : (map entries).Everywhere p ↔
    p (.map entries) ∧ ∀ key value, (key, value) ∈ entries → value.Everywhere p := by
  refine ⟨fun all => ⟨all.self, fun key value member inner within => ?_⟩,
    fun ⟨own, inside⟩ inner within => ?_⟩
  · exact all inner (.entry member within)
  · cases within with
    | self => exact own
    | entry member within => exact inside _ _ member inner within

@[elab_as_elim]
theorem induct {motive : Value → Prop} (scalar : ∀ s, motive (.scalar s))
    (list : ∀ items, (∀ item ∈ items, motive item) → motive (.list items))
    (map : ∀ entries, (∀ key value, (key, value) ∈ entries → motive value) →
      motive (.map entries))
    (record : ∀ r, motive (.record r)) (value : Value) : motive value :=
  @Value.rec motive (fun items => ∀ item ∈ items, motive item)
    (fun entries => ∀ key value, (key, value) ∈ entries → motive value)
    (fun entry => motive entry.2) scalar list map record
    (List.forall_mem_nil _) (fun _ _ first rest => List.forall_mem_cons.2 ⟨first, rest⟩)
    (fun _ _ member => nomatch member)
    (fun _ _ first rest key value member => by
      rcases List.mem_cons.1 member with rfl | behind
      · exact first
      · exact rest key value behind)
    (fun _ _ value => value) value

end Value

namespace Output

/-- The output is the other one or stands somewhere inside it. -/
inductive Within (inner : Output) : Output → Prop where
  | self : Within inner inner
  | item {items : List Output} {part : Output} :
      part ∈ items → Within inner part → Within inner (.list items)
  | entry {entries : List (Key × Output)} {key : Key} {part : Output} :
      (key, part) ∈ entries → Within inner part → Within inner (.map entries)

/-- A property of an output and of all outputs inside it. -/
def Everywhere (p : Output → Prop) (output : Output) : Prop :=
  ∀ inner : Output, inner.Within output → p inner

variable {p : Output → Prop}

theorem Everywhere.self {output : Output} (all : output.Everywhere p) : p output :=
  all output .self

theorem everywhere_number_iff {n : Number} : (number n).Everywhere p ↔ p (.number n) := by
  refine ⟨Everywhere.self, fun holds inner within => ?_⟩
  cases within
  exact holds

theorem everywhere_text_iff {s : String} : (text s).Everywhere p ↔ p (.text s) := by
  refine ⟨Everywhere.self, fun holds inner within => ?_⟩
  cases within
  exact holds

theorem everywhere_record_iff {r : Record} : (record r).Everywhere p ↔ p (.record r) := by
  refine ⟨Everywhere.self, fun holds inner within => ?_⟩
  cases within
  exact holds

theorem everywhere_list_iff {items : List Output} :
    (list items).Everywhere p ↔ p (.list items) ∧ ∀ item ∈ items, item.Everywhere p := by
  refine ⟨fun all => ⟨all.self, fun item member inner within => all inner (.item member within)⟩,
    fun ⟨own, inside⟩ inner within => ?_⟩
  cases within with
  | self => exact own
  | item member within => exact inside _ member inner within

theorem everywhere_map_iff {entries : List (Key × Output)} : (map entries).Everywhere p ↔
    p (.map entries) ∧ ∀ key output, (key, output) ∈ entries → output.Everywhere p := by
  refine ⟨fun all => ⟨all.self, fun key output member inner within => ?_⟩,
    fun ⟨own, inside⟩ inner within => ?_⟩
  · exact all inner (.entry member within)
  · cases within with
    | self => exact own
    | entry member within => exact inside _ _ member inner within

@[elab_as_elim]
theorem induct {motive : Output → Prop} (number : ∀ n, motive (.number n))
    (text : ∀ s, motive (.text s)) (list : ∀ items, (∀ item ∈ items, motive item) →
      motive (.list items))
    (map : ∀ entries, (∀ key output, (key, output) ∈ entries → motive output) →
      motive (.map entries))
    (record : ∀ r, motive (.record r)) (output : Output) : motive output :=
  @Output.rec motive (fun items => ∀ item ∈ items, motive item)
    (fun entries => ∀ key output, (key, output) ∈ entries → motive output)
    (fun entry => motive entry.2) number text list map record
    (List.forall_mem_nil _) (fun _ _ first rest => List.forall_mem_cons.2 ⟨first, rest⟩)
    (fun _ _ member => nomatch member)
    (fun _ _ first rest key output member => by
      rcases List.mem_cons.1 member with rfl | behind
      · exact first
      · exact rest key output behind)
    (fun _ _ output => output) output

/-! ## Outputs that values are -/

theorem of_ofItems_cons {item : Value} {rest : List Value} {outputs : List Output}
    (made : ofItems (item :: rest) = .ok outputs) : ∃ output others, ofValue item = .ok output ∧
      ofItems rest = .ok others ∧ output :: others = outputs := by
  unfold ofItems at made
  split at made
  · rename_i none
    cases none
  · cases made
  · rename_i same
    obtain ⟨rfl, rfl⟩ := List.cons.inj same
    obtain ⟨output, first, made⟩ := bind_eq_ok.1 made
    obtain ⟨others, later, same⟩ := bind_eq_ok.1 made
    exact ⟨output, others, first, later, Except.ok.inj same⟩

theorem of_ofEntries_cons {key : Key} {value : Value} {rest : List (Key × Value)}
    {outputs : List (Key × Output)} (made : ofEntries ((key, value) :: rest) = .ok outputs) :
    ∃ output others, ofValue value = .ok output ∧ ofEntries rest = .ok others ∧
      (key, output) :: others = outputs := by
  unfold ofEntries at made
  split at made
  · rename_i none
    cases none
  · cases made
  · rename_i same
    obtain ⟨first, rfl⟩ := List.cons.inj same
    cases first
    obtain ⟨output, made?, made⟩ := bind_eq_ok.1 made
    obtain ⟨others, later, same⟩ := bind_eq_ok.1 made
    exact ⟨output, others, made?, later, Except.ok.inj same⟩

theorem forall₂_ofItems {items : List Value} {outputs : List Output}
    (made : ofItems items = .ok outputs) :
    List.Forall₂ (fun item output => ofValue item = .ok output) items outputs := by
  induction items generalizing outputs with
  | nil =>
      cases made
      exact .nil
  | cons item rest ih =>
      obtain ⟨output, others, first, later, rfl⟩ := of_ofItems_cons made
      exact .cons first (ih later)

theorem forall₂_ofEntries {entries : List (Key × Value)} {outputs : List (Key × Output)}
    (made : ofEntries entries = .ok outputs) :
    List.Forall₂ (fun entry output => entry.1 = output.1 ∧ ofValue entry.2 = .ok output.2) entries
      outputs := by
  induction entries generalizing outputs with
  | nil =>
      cases made
      exact .nil
  | cons entry rest ih =>
      obtain ⟨output, others, first, later, rfl⟩ := of_ofEntries_cons made
      exact .cons ⟨rfl, first⟩ (ih later)

/-- What stands inside an output comes from what stands inside the value. -/
theorem Within.of_value {inner output : Output} (within : inner.Within output) {value : Value}
    (made : ofValue value = .ok output) :
    ∃ part : Value, part.Within value ∧ ofValue part = .ok inner := by
  induction within generalizing value with
  | self => exact ⟨value, .self, made⟩
  | item member _ ih =>
      cases value with
      | list items =>
          obtain ⟨outputs, parts, same⟩ := map_eq_ok.1 made
          cases same
          obtain ⟨item, among, made⟩ := exists_of_forall₂ (forall₂_ofItems parts) _ member
          obtain ⟨part, within, made⟩ := ih made
          exact ⟨part, .item among within, made⟩
      | scalar s => cases s <;> cases made
      | map entries =>
          obtain ⟨_, _, same⟩ := map_eq_ok.1 made
          cases same
      | record r => cases made
  | entry member _ ih =>
      cases value with
      | map entries =>
          obtain ⟨outputs, parts, same⟩ := map_eq_ok.1 made
          cases same
          obtain ⟨entry, among, -, made⟩ := exists_of_forall₂ (forall₂_ofEntries parts) _ member
          obtain ⟨part, within, made⟩ := ih made
          exact ⟨part, .entry among within, made⟩
      | scalar s => cases s <;> cases made
      | list items =>
          obtain ⟨_, _, same⟩ := map_eq_ok.1 made
          cases same
      | record r => cases made

end Output

end Pipeline
