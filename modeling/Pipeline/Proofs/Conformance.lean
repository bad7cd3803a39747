import Pipeline.Dataset
import Pipeline.Proofs.Lookup
import Pipeline.Proofs.Shape

/-! Values of an element type are of the shape that the policy starts from, and every way to
build a record or to read a dataset gives records that conform to their schema. -/

set_option autoImplicit false

namespace Pipeline

/-- The value is of the element type; a record holds what its schema declares. -/
def ElementType.Contains (elementType : ElementType) (value : Value) : Prop :=
  elementType.admits value = true ∧ ∀ r, value = .record r → r.conforms = true

theorem ElementType.Contains.admits {elementType : ElementType} {value : Value}
    (contained : elementType.Contains value) : (Shape.ofElementType elementType).Admits value := by
  obtain ⟨admitted, conforms⟩ := contained
  fun_cases ElementType.admits elementType value with
  | case1 => exact Value.isNumber_iff.1 admitted
  | case2 s => exact ⟨s, rfl⟩
  | case3 schema r => exact ⟨r, rfl, beq_iff_eq.1 admitted, conforms r rfl⟩
  | case4 other => simp [ElementType.admits] at admitted

private theorem takeValues_kinds {schema : Schema} {fields : List Field} {values : List Value}
    {scalars : List Scalar} (same : fields.length = values.length)
    (taken : schema.takeValues fields values = .ok scalars) :
    fields.map Field.kind = scalars.map Scalar.fieldKind := by
  fun_induction Schema.takeValues schema fields values generalizing scalars with
  | case1 field fields value values scalar found ih =>
      obtain ⟨rest, others, rfl⟩ := map_eq_ok.1 taken
      have kind : scalar.fieldKind = field.kind := by
        unfold FieldKind.take? at found
        split at found
        · split at found <;> simp_all
        · cases found
      rw [List.map_cons, List.map_cons, kind, ih (Nat.succ.inj same) others]
  | case2 => cases taken
  | case3 fields values short =>
      cases taken
      cases fields with
      | nil => rfl
      | cons field fields =>
          cases values with
          | nil => cases same
          | cons value values => exact absurd rfl (short field fields value values rfl)

theorem Schema.record_conforms {schema : Schema} {values : List Value} {r : Record}
    (built : schema.record values = .ok r) : r.schema = schema ∧ r.conforms = true := by
  unfold Schema.record at built
  split at built
  · cases built
  · rename_i same
    obtain ⟨scalars, all, rfl⟩ := map_eq_ok.1 built
    exact ⟨rfl, beq_iff_eq.2 (takeValues_kinds (Decidable.not_not.1 same).symm all)⟩

private theorem takeValues_scalars {schema : Schema} {fields : List Field} {scalars : List Scalar}
    (kinds : fields.map Field.kind = scalars.map Scalar.fieldKind) :
    schema.takeValues fields (scalars.map Value.scalar) = .ok scalars := by
  induction fields generalizing scalars with
  | nil =>
      cases List.map_eq_nil_iff.1 kinds.symm
      rfl
  | cons field fields ih =>
      cases scalars with
      | nil => cases kinds
      | cons scalar scalars =>
          obtain ⟨kind, others⟩ := List.cons.inj kinds
          rw [List.map_cons, Schema.takeValues, FieldKind.take?, if_pos kind.symm]
          simp [ih others, Except.map]

/-- Scalars of the kinds of the fields are a record. -/
theorem Schema.record_scalars {schema : Schema} {scalars : List Scalar}
    (kinds : schema.fields.map Field.kind = scalars.map Scalar.fieldKind) :
    schema.record (scalars.map Value.scalar) = .ok ⟨schema, scalars⟩ := by
  have same : scalars.length = schema.fields.length := by
    simpa using (congrArg List.length kinds).symm
  rw [Schema.record, List.length_map, if_neg (not_not.2 same), takeValues_scalars kinds]
  rfl

theorem Record.length_of_conforms {r : Record} (conforms : r.conforms = true) :
    r.values.length = r.schema.fields.length := by
  simpa using (congrArg List.length (beq_iff_eq.1 conforms)).symm

/-- The records that conform are those that can be built. -/
theorem Record.conforms_iff_built {r : Record} :
    r.conforms = true ↔ ∃ values, r.schema.record values = .ok r := by
  constructor
  · intro conforms
    exact ⟨r.values.map Value.scalar, Schema.record_scalars (beq_iff_eq.1 conforms)⟩
  · intro built
    obtain ⟨values, built⟩ := built
    exact (Schema.record_conforms built).2

theorem Json.fieldKind_of_toScalar {kind : FieldKind} {json : Json} {scalar : Scalar}
    (read : json.toScalar kind = .ok scalar) : scalar.fieldKind = kind := by
  unfold Json.toScalar at read
  split at read <;> cases read <;> rfl

private theorem scalarsOfMembers_kinds {schema : Schema} {members : List (String × Json)}
    {fields : List Field} {scalars : List Scalar}
    (read : schema.scalarsOfMembers members fields = .ok scalars) :
    fields.map Field.kind = scalars.map Scalar.fieldKind := by
  induction fields generalizing scalars with
  | nil =>
      cases read
      rfl
  | cons field rest ih =>
      rw [Schema.scalarsOfMembers] at read
      split at read
      · cases read
      · obtain ⟨scalar, first, read⟩ := bind_eq_ok.1 read
        obtain ⟨others, later, same⟩ := bind_eq_ok.1 read
        cases same
        rw [List.map_cons, List.map_cons, Json.fieldKind_of_toScalar first, ih later]

/-- The scalars that members give to the fields are never refused as a record. -/
theorem Schema.scalarsOfMembers_record (schema : Schema) (members : List (String × Json)) :
    (do
      let scalars ← schema.scalarsOfMembers members schema.fields
      schema.record (scalars.map .scalar)) =
      (schema.scalarsOfMembers members schema.fields).map (⟨schema, ·⟩) := by
  cases read : schema.scalarsOfMembers members schema.fields with
  | error e => rfl
  | ok scalars => exact Schema.record_scalars (scalarsOfMembers_kinds read)

theorem Schema.recordOfJson_conforms {schema : Schema} {json : Json} {r : Record}
    (read : schema.recordOfJson json = .ok r) : r.schema = schema ∧ r.conforms = true := by
  unfold Schema.recordOfJson at read
  split at read
  · split at read
    · cases read
    · obtain ⟨_, _, built⟩ := bind_eq_ok.1 read
      exact Schema.record_conforms built
  · cases read

theorem ElementType.elementOfJson_contains {elementType : ElementType} {json : Json}
    {value : Value} (read : elementType.elementOfJson json = .ok value) :
    elementType.Contains value := by
  cases elementType with
  | number | text =>
      obtain ⟨scalar, scalarRead, rfl⟩ := map_eq_ok.1 read
      have kind := Json.fieldKind_of_toScalar scalarRead
      refine ⟨?_, fun r same => nomatch same⟩
      cases scalar <;> cases kind
      rfl
  | record schema =>
      obtain ⟨r, recordRead, rfl⟩ := map_eq_ok.1 read
      obtain ⟨same, conforms⟩ := Schema.recordOfJson_conforms recordRead
      exact ⟨beq_iff_eq.2 same, fun _ same => by cases same; exact conforms⟩

theorem ElementType.forall₂_elementsOfJson {elementType : ElementType} {items : List Json}
    {elements : List Value} (read : elementType.elementsOfJson items = .ok elements) :
    List.Forall₂ (fun element item => elementType.elementOfJson item = .ok element) elements
      items := by
  induction items generalizing elements with
  | nil =>
      cases read
      exact .nil
  | cons item rest ih =>
      obtain ⟨first, here, read⟩ := bind_eq_ok.1 read
      obtain ⟨others, later, same⟩ := bind_eq_ok.1 read
      cases same
      exact .cons here (ih later)

theorem Dataset.ofJson_eq_ok_iff {json : Json} {recordName naturalKey : Option String}
    {dataset : Dataset} :
    ofJson json recordName naturalKey = .ok dataset ↔
      ∃ items, json = .array items ∧
        ElementType.infer items recordName naturalKey = .ok dataset.elementType ∧
        dataset.elementType.elementsOfJson items = .ok dataset.elements := by
  cases json with
  | array items =>
      simp only [ofJson, bind_eq_ok, Json.array.injEq, exists_eq_left', Except.ok.injEq]
      constructor
      · intro read
        obtain ⟨elementType, inferred, elements, read, rfl⟩ := read
        exact ⟨inferred, read⟩
      · intro both
        exact ⟨dataset.elementType, both.1, dataset.elements, both.2, rfl⟩
  | null | boolean _ | number _ | string _ | object _ => simp [ofJson]

/-- Every element of a dataset that is read is of the dataset's element type. -/
theorem Dataset.ofJson_contains {json : Json} {recordName naturalKey : Option String}
    {dataset : Dataset} (read : Dataset.ofJson json recordName naturalKey = .ok dataset) :
    ∀ value ∈ dataset.elements, dataset.elementType.Contains value := by
  obtain ⟨items, _, _, elements⟩ := ofJson_eq_ok_iff.1 read
  intro value member
  obtain ⟨item, _, here⟩ :=
    exists_of_forall₂ (ElementType.forall₂_elementsOfJson elements).flip value member
  exact ElementType.elementOfJson_contains here

end Pipeline
