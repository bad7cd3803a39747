import Pipeline.Proofs.Conformance
import Pipeline.Proofs.Decoding
import Pipeline.Proofs.OutputEquality

/-! An output is decoded from its own JSON as it was, down to the sign of a zero, where its maps can
be read back and its records are of the element type. -/

set_option autoImplicit false

namespace Pipeline

/-! ## Records -/

theorem Scalar.toScalar_json (s : Scalar) : s.json.toScalar s.fieldKind = .ok s := by
  cases s <;> rfl

/-- Scalars that stand under the names of the fields that they are values of are read back. -/
theorem Schema.scalarsOfMembers_of_lookup {schema : Schema} {members : List (String × Json)}
    {fields : List Field} {scalars : List Scalar}
    (kinds : fields.map Field.kind = scalars.map Scalar.fieldKind)
    (found : ∀ name s, (name, s) ∈ (fields.map Field.name).zip scalars →
      members.lookup name = some s.json) :
    schema.scalarsOfMembers members fields = .ok scalars := by
  induction fields generalizing scalars with
  | nil =>
      cases List.map_eq_nil_iff.1 kinds.symm
      rfl
  | cons field fields ih =>
      cases scalars with
      | nil => cases kinds
      | cons s scalars =>
          obtain ⟨kind, others⟩ := List.cons.inj kinds
          have first : Json.member? field.name members = some s.json :=
            found field.name s (.head _)
          have rest := ih others fun name s member => found name s (.tail _ member)
          rw [scalarsOfMembers, first]
          change Except.bind (s.json.toScalar field.kind) _ = _
          rw [kind, Scalar.toScalar_json, rest]
          rfl

namespace Output

variable {elementType : ElementType}

/-- Records are those of the element type, with the values that it declares. -/
def HasRecordsOf (elementType : ElementType) : Output → Prop
  | record r => elementType.schema? = some r.schema ∧ r.conforms = true
  | number _ | text _ | list _ | map _ => True

theorem ofJson_json_record {r : Record} (own : (record r).HasRecordsOf elementType)
    (distinct : (r.schema.fields.map Field.name).Nodup) :
    ofJson elementType (record r).json = .ok (record r) := by
  obtain ⟨schema, conforms⟩ := own
  have names := Record.names_fields (Record.length_of_conforms conforms)
  have distinctFields : (r.fields.map Prod.fst).Nodup := names ▸ distinct
  have written : r.members.map Prod.fst = r.schema.fields.map Field.name :=
    r.names_members.trans names
  have matched : r.schema.matchesNames r.members = true := by
    rw [Schema.matchesNames_iff distinct (written ▸ distinct), written]
    exact fun _ => Iff.rfl
  have values : r.schema.scalarsOfMembers r.members r.schema.fields = .ok r.values := by
    refine Schema.scalarsOfMembers_of_lookup (beq_iff_eq.1 conforms) fun name s member => ?_
    rw [Record.lookup_members, (lookup_eq_some_iff distinctFields).2 member, Option.map_some]
  rw [json_record distinctFields, ofJson, schema]
  dsimp only
  rw [if_pos matched, Schema.recordOfJson_of_matchesNames matched, values]
  rfl

/-! ## Lists and maps -/

theorem itemsOfJson_map {items : List Output}
    (parts : ∀ item ∈ items, ofJson elementType item.json = .ok item) :
    itemsOfJson elementType (items.map json) = .ok items := by
  induction items with
  | nil => rfl
  | cons item rest ih =>
      obtain ⟨first, others⟩ := List.forall_mem_cons.1 parts
      rw [List.map_cons, itemsOfJson, first, ih others]
      rfl

theorem entriesOfJson_written {entries : List (Key × Output)}
    (plain : ∀ key ∈ entries.map Prod.fst, key.IsPlain)
    (parts : ∀ key part, (key, part) ∈ entries → ofJson elementType part.json = .ok part) :
    entriesOfJson elementType (entries.map fun (key, value) => (key.written, value.json)) =
      .ok entries := by
  induction entries with
  | nil => rfl
  | cons entry rest ih =>
      obtain ⟨key, part⟩ := entry
      obtain ⟨first, others⟩ := List.forall_mem_cons.1 plain
      have later := ih others fun key part member => parts key part (.tail _ member)
      rw [List.map_cons, entriesOfJson, parts key part (.head _), later, Key.read_written first]
      rfl

theorem ofJson_json_map {entries : List (Key × Output)} (ordered : InKeyOrder entries)
    (fields : ∀ schema, elementType.schema? = some schema → (schema.fields.map Field.name).Nodup)
    (back : (map entries).ReadsBack elementType)
    (parts : ∀ key part, (key, part) ∈ entries → ofJson elementType part.json = .ok part) :
    ofJson elementType (map entries).json = .ok (map entries) := by
  obtain ⟨plain, others⟩ := back
  have distinct := nodup_written ordered.nodup plain
  have asMap : ((entriesOfJson elementType
      (entries.map fun (key, value) => (key.written, value.json))).map fun found =>
        map (entriesOf found)) = .ok (map entries) := by
    rw [entriesOfJson_written plain parts]
    exact congrArg (fun found => Except.ok (map found)) (entriesOf_of_inKeyOrder ordered)
  rw [json_map, Json.foldMembers_of_nodup distinct, ofJson]
  split
  · rename_i schema found
    have unmatched : ¬ schema.matchesNames
        (entries.map fun (key, value) => (key.written, value.json)) = true := by
      rw [Schema.matchesNames_iff (fields schema found) distinct, List.map_map]
      exact others schema found
    rw [if_neg unmatched]
    exact asMap
  · exact asMap

/-- Decoding undoes encoding: an output is decoded from its JSON as it was. -/
theorem ofJson_json
    (fields : ∀ schema, elementType.schema? = some schema → (schema.fields.map Field.name).Nodup)
    {output : Output} (proper : output.Everywhere Proper)
    (own : output.Everywhere (HasRecordsOf elementType))
    (back : output.Everywhere (ReadsBack elementType)) :
    ofJson elementType output.json = .ok output ∧ output.equals output = true := by
  refine ⟨?_, (equals_iff_canonical proper proper).2 rfl⟩
  induction output using Output.induct with
  | number n | text s => rfl
  | list items ih =>
      have inside := fun item member => ih item member
        ((everywhere_list_iff.1 proper).2 item member) ((everywhere_list_iff.1 own).2 item member)
        ((everywhere_list_iff.1 back).2 item member)
      rw [json_list, ofJson, itemsOfJson_map inside]
      rfl
  | map entries ih =>
      obtain ⟨ordered, properParts⟩ := everywhere_map_iff.1 proper
      obtain ⟨-, ownParts⟩ := everywhere_map_iff.1 own
      obtain ⟨backSelf, backParts⟩ := everywhere_map_iff.1 back
      exact ofJson_json_map ordered fields backSelf fun key part member =>
        ih key part member (properParts key part member) (ownParts key part member)
          (backParts key part member)
  | record r => exact ofJson_json_record own.self (fields r.schema own.self.1)

/-- Zeros of both signs, a double that is an integer, an empty map, and a map with some but not all
of the names that a record has. -/
theorem ofJson_json_animals :
    let schema : Schema :=
      ⟨"Animal", [⟨"name", .text⟩, ⟨"weight", .number⟩, ⟨"tame", .boolean⟩], some "name"⟩
    let lion : Record :=
      ⟨schema, [.text "Lion", .number (.float ⟨0x4067c00000000000⟩), .boolean false]⟩
    let zeros : Output := list [number (.float ⟨0⟩), number (.float ⟨0x8000000000000000⟩)]
    let named : Output := map [(.text "name", text "Lion"), (.text "weight", number (.integer 190))]
    let output : Output := map [(.boolean true, zeros), (.integer (-4), map []),
      (.text "first", record lion), (.text "second", named)]
    ((schema.fields.map Field.name).Nodup ∧ output.Everywhere Proper ∧
        output.Everywhere (HasRecordsOf (.record schema)) ∧
        output.Everywhere (ReadsBack (.record schema))) ∧
      ofJson (.record schema) output.json = .ok output ∧ output.equals output = true := by
  intro schema lion zeros named output
  have distinct : (schema.fields.map Field.name).Nodup := by decide
  have everywhere : ∀ p : Output → Prop, p output → p zeros → p (number (.float ⟨0⟩)) →
      p (number (.float ⟨0x8000000000000000⟩)) → p (map []) → p (record lion) → p named →
      p (text "Lion") → p (number (.integer 190)) → output.Everywhere p := by
    intro p onOutput onZeros onZero onNegative onEmpty onLion onNamed onText onWeight
    have zerosEverywhere : zeros.Everywhere p := by
      simp [zeros, everywhere_list_iff, everywhere_number_iff, onZeros, onZero, onNegative]
    have namedEverywhere : named.Everywhere p := by
      simp [named, everywhere_map_iff, everywhere_text_iff, everywhere_number_iff, onNamed, onText,
        onWeight, or_imp, forall_and]
    simp [output, everywhere_map_iff, everywhere_record_iff, onOutput, onEmpty, onLion,
      zerosEverywhere, namedEverywhere, or_imp, forall_and]
  have proper : output.Everywhere Proper := by
    refine everywhere _ ?_ trivial rfl rfl .nil ?_ ?_ trivial trivial
    · simp only [Proper, output, InKeyOrder]
      decide
    · intro name n member
      have own : name = "weight" ∧ n = .float ⟨0x4067c00000000000⟩ := by
        simpa [lion, schema, Record.fields] using member
      exact own.2 ▸ rfl
    · simp only [Proper, named, InKeyOrder]
      decide
  have own : output.Everywhere (HasRecordsOf (.record schema)) :=
    everywhere _ trivial trivial trivial trivial trivial ⟨rfl, rfl⟩ trivial trivial trivial
  have back : output.Everywhere (ReadsBack (.record schema)) := by
    have noRecord : ∀ entries : List (Key × Output),
        "tame" ∉ entries.map (fun entry => entry.1.written) →
        ∀ found, (ElementType.record schema).schema? = some found →
          ¬ ∀ name, name ∈ found.fields.map Field.name ↔
            name ∈ entries.map fun entry => entry.1.written := by
      intro entries missing found same all
      cases same
      exact missing ((all "tame").1 (by decide))
    have words : ∀ word ∈ ["first", "second", "name", "weight"], (Key.text word).IsPlain := by
      simp only [Key.IsPlain]
      decide
    refine everywhere _ ⟨?_, noRecord _ (by decide)⟩ trivial trivial trivial
      ⟨List.forall_mem_nil _, noRecord _ (by decide)⟩ trivial ⟨?_, noRecord _ (by decide)⟩ trivial
      trivial
    · simpa using ⟨trivial, trivial, words "first" (by decide), words "second" (by decide)⟩
    · simpa using ⟨words "name" (by decide), words "weight" (by decide)⟩
  refine ⟨⟨distinct, proper, own, back⟩, ofJson_json (fun found same => ?_) proper own back⟩
  cases same
  exact distinct

end Output

end Pipeline
