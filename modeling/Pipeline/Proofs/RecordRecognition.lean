import Pipeline.Proofs.OutputRoundTrip
import Pipeline.Proofs.UniformDatasets

/-! Objects that are taken for records are those whose members have the names of the fields, in any
order. Nothing is left to refuse in them but a member of another kind than its field, and of these
the one whose field is declared first is reported. -/

set_option autoImplicit false

namespace Pipeline

/-! ## Scalars -/

namespace Json

variable {json : Json} {kind : FieldKind}

theorem toScalar_eq_ok_iff {s : Scalar} :
    json.toScalar kind = .ok s ↔ s.fieldKind = kind ∧ s.json = json := by
  constructor
  · intro read
    exact ⟨fieldKind_of_toScalar read, toScalar_eq_ok read⟩
  · rintro ⟨rfl, rfl⟩
    exact s.toScalar_json

theorem toScalar_eq_error_iff {error : SchemaError} :
    json.toScalar kind = .error error ↔
      json.fieldKind? ≠ some kind ∧ error = .json (.field kind) json.kind := by
  cases json <;> cases kind <;> simp [toScalar, fieldKind?, Json.kind, eq_comm]

end Json

/-! ## Fields and their members -/

/-- The field is bound to the scalar: its member is the scalar, which is of the field's kind. -/
def Field.Binds (field : Field) (members : List (String × Json)) (s : Scalar) : Prop :=
  s.fieldKind = field.kind ∧ (field.name, s.json) ∈ members

/-- The first of the fields whose member is of another kind, and this member. -/
inductive FirstMisfit (members : List (String × Json)) : List Field → Field → Json → Prop where
  | here {field : Field} {rest : List Field} {value : Json}
      (member : (field.name, value) ∈ members) (misfit : value.fieldKind? ≠ some field.kind) :
      FirstMisfit members (field :: rest) field value
  | behind {first field : Field} {rest : List Field} {s : Scalar} {value : Json}
      (binds : first.Binds members s) (later : FirstMisfit members rest field value) :
      FirstMisfit members (first :: rest) field value

/-- The members have the names of the fields and no others, in whatever order. -/
def Schema.SharesNames (schema : Schema) (members : List (String × Json)) : Prop :=
  ∀ name, name ∈ schema.fields.map Field.name ↔ name ∈ members.map Prod.fst

section Members

variable {members : List (String × Json)} (names : (members.map Prod.fst).Nodup)
include names

theorem Field.binds_iff {field : Field} {value : Json} (member : (field.name, value) ∈ members)
    {s : Scalar} : field.Binds members s ↔ value.toScalar field.kind = .ok s := by
  rw [Json.toScalar_eq_ok_iff, Binds, ← lookup_eq_some_iff names,
    (lookup_eq_some_iff names).2 member, Option.some.injEq, eq_comm (a := value)]

theorem Schema.scalarsOfMembers_cons {schema : Schema} {field : Field} {value : Json}
    (member : (field.name, value) ∈ members) (rest : List Field) :
    schema.scalarsOfMembers members (field :: rest) = (do
      let scalar ← value.toScalar field.kind
      let scalars ← schema.scalarsOfMembers members rest
      .ok (scalar :: scalars)) := by
  rw [scalarsOfMembers, Json.member?, (lookup_eq_some_iff names).2 member]

end Members

namespace Schema

variable {schema : Schema} {members : List (String × Json)} {fields : List Field}

section Declared

variable (names : (members.map Prod.fst).Nodup)
  (declared : ∀ field ∈ fields, field.name ∈ members.map Prod.fst)
include names declared

theorem scalarsOfMembers_eq_ok_iff {scalars : List Scalar} :
    schema.scalarsOfMembers members fields = .ok scalars ↔
      List.Forall₂ (fun field s => field.Binds members s) fields scalars := by
  induction fields generalizing scalars with
  | nil => rw [scalarsOfMembers, Except.ok.injEq, List.forall₂_nil_left_iff, eq_comm]
  | cons field rest ih =>
      obtain ⟨here, others⟩ := List.forall_mem_cons.1 declared
      obtain ⟨⟨_, value⟩, member, rfl⟩ := List.mem_map.1 here
      rw [scalarsOfMembers_cons names member, List.forall₂_cons_left_iff]
      simp only [bind_eq_ok, ih others, ← Field.binds_iff names member, Except.ok.injEq]
      constructor
      · rintro ⟨s, binds, scalars, later, rfl⟩
        exact ⟨s, scalars, binds, later, rfl⟩
      · rintro ⟨s, scalars, binds, later, rfl⟩
        exact ⟨s, binds, scalars, later, rfl⟩

theorem scalarsOfMembers_eq_error_iff {error : SchemaError} :
    schema.scalarsOfMembers members fields = .error error ↔
      ∃ field value, FirstMisfit members fields field value ∧
        error = .json (.field field.kind) value.kind := by
  induction fields with
  | nil => exact iff_of_false nofun fun ⟨_, _, misfit, _⟩ => nomatch misfit
  | cons first rest ih =>
      obtain ⟨here, others⟩ := List.forall_mem_cons.1 declared
      obtain ⟨⟨_, value⟩, member, rfl⟩ := List.mem_map.1 here
      have never : ∀ (s : Scalar) (scalars : List Scalar),
          Except.ok (s :: scalars) ≠ Except.error error := nofun
      rw [scalarsOfMembers_cons names member, bind_eq_error, Json.toScalar_eq_error_iff]
      simp only [bind_eq_error_of_ne (never _), ih others, ← Field.binds_iff names member]
      constructor
      · rintro (⟨misfit, same⟩ | ⟨s, binds, field, found, later, same⟩)
        · exact ⟨first, value, .here member misfit, same⟩
        · exact ⟨field, found, .behind binds later, same⟩
      · rintro ⟨field, found, misfit, same⟩
        cases misfit with
        | here among misfit =>
            -- No other member has the name, so the misfit is the member that was found.
            rw [← lookup_eq_some_iff names, (lookup_eq_some_iff names).2 member] at among
            cases among
            exact .inl ⟨misfit, same⟩
        | behind binds later => exact .inr ⟨_, binds, field, found, later, same⟩

end Declared

theorem SharesNames.declared {schema : Schema} (same : schema.SharesNames members) :
    ∀ field ∈ schema.fields, field.name ∈ members.map Prod.fst :=
  fun _ member => (same _).1 (List.mem_map_of_mem member)

end Schema

/-! ## Records -/

theorem Record.get?_eq_lookup (r : Record) (name : String) :
    r.get? name = r.fields.lookup name := by
  obtain ⟨⟨_, fields, _⟩, values⟩ := r
  simp only [get?, Schema.indexOf?, Record.fields]
  induction fields generalizing values with
  | nil => rfl
  | cons field fields ih =>
      cases values with
      | nil => simp
      | cons value values =>
          rw [List.findIdx?_cons, List.map_cons, List.zip_cons_cons, List.lookup_cons, ← ih,
            BEq.comm (a := name)]
          cases field.name == name with
          | true => rfl
          | false => cases fields.findIdx? (·.name == name) <;> rfl

namespace Schema

variable {schema : Schema} {members : List (String × Json)}

/-- A record answers for each name what the member of this name is. -/
theorem get?_of_recordOfJson (fields : (schema.fields.map Field.name).Nodup)
    (names : (members.map Prod.fst).Nodup) {r : Record}
    (read : schema.recordOfJson (.object members) = .ok r) (name : String) :
    (r.get? name).map Scalar.json = Json.member? name members := by
  have perm := perm_of_recordOfJson fields names read
  have distinct : (r.members.map Prod.fst).Nodup :=
    (perm.map Prod.fst).nodup_iff.2 names
  rw [Record.get?_eq_lookup, ← Record.lookup_members, Json.member?]
  refine Option.ext fun value => ?_
  rw [lookup_eq_some_iff distinct, lookup_eq_some_iff names, perm.mem_iff]

variable (fields : (schema.fields.map Field.name).Nodup) (names : (members.map Prod.fst).Nodup)
  (same : schema.SharesNames members)
include fields names same

theorem recordOfJson_eq_ok_iff {r : Record} : schema.recordOfJson (.object members) = .ok r ↔
    r.schema = schema ∧
      List.Forall₂ (fun field s => field.Binds members s) schema.fields r.values := by
  rw [recordOfJson_of_matchesNames ((matchesNames_iff fields names).2 same), map_eq_ok]
  simp only [scalarsOfMembers_eq_ok_iff names same.declared]
  constructor
  · rintro ⟨scalars, binds, rfl⟩
    exact ⟨rfl, binds⟩
  · rintro ⟨rfl, binds⟩
    exact ⟨r.values, binds, rfl⟩

theorem recordOfJson_eq_error_iff {error : SchemaError} :
    schema.recordOfJson (.object members) = .error error ↔
      ∃ field value, FirstMisfit members schema.fields field value ∧
        error = .json (.field field.kind) value.kind := by
  rw [recordOfJson_of_matchesNames ((matchesNames_iff fields names).2 same), map_eq_error,
    scalarsOfMembers_eq_error_iff names same.declared]

end Schema

namespace Output

/-- An object is taken for a record exactly if its members have the names of the fields, and for a
map otherwise. Then it is read as the record that has in the order of the fields what stands under
their names, or the first field whose member is of another kind is refused, and nothing else. -/
theorem recognizesRecords_iff {schema : Schema} {members : List (String × Json)}
    (fields : (schema.fields.map Field.name).Nodup) (names : (members.map Prod.fst).Nodup) :
    (schema.matchesNames members = true ↔ schema.SharesNames members) ∧
    (schema.SharesNames members →
      ofJson (.record schema) (.object members) =
        (schema.recordOfJson (.object members)).map record ∧
      (∀ r, schema.recordOfJson (.object members) = .ok r ↔ r.schema = schema ∧
        List.Forall₂ (fun field s => field.Binds members s) schema.fields r.values) ∧
      (∀ r, schema.recordOfJson (.object members) = .ok r →
        ∀ name, (r.get? name).map Scalar.json = Json.member? name members) ∧
      ∀ error, schema.recordOfJson (.object members) = .error error ↔
        ∃ field value, FirstMisfit members schema.fields field value ∧
          error = .json (.field field.kind) value.kind) ∧
    (¬ schema.SharesNames members → ofJson (.record schema) (.object members) =
      (entriesOfJson (.record schema) members).map fun entries => map (entriesOf entries)) := by
  have recognized : schema.matchesNames members = true ↔ schema.SharesNames members :=
    Schema.matchesNames_iff fields names
  refine ⟨recognized, fun same => ⟨?_, fun r => ?_, fun r read name => ?_, fun error => ?_⟩,
    fun other => ?_⟩
  · exact if_pos (recognized.2 same)
  · exact Schema.recordOfJson_eq_ok_iff fields names same
  · exact Schema.get?_of_recordOfJson fields names read name
  · exact Schema.recordOfJson_eq_error_iff fields names same
  · exact if_neg fun matched => other (recognized.1 matched)

/-- A lion with its members in another order, and one with two of them of other kinds, of which the
one that stands last is declared first. -/
theorem recognizesRecords_iff_lion :
    let schema : Schema :=
      ⟨"Animal", [⟨"name", .text⟩, ⟨"weight", .number⟩, ⟨"tame", .boolean⟩], some "name"⟩
    let lion : List (String × Json) :=
      [("tame", .boolean false), ("name", .string "Lion"), ("weight", .number (.integer 190))]
    let torn : List (String × Json) :=
      [("tame", .null), ("name", .string "Lion"), ("weight", .string "190")]
    ((schema.fields.map Field.name).Nodup ∧ (lion.map Prod.fst).Nodup ∧ (torn.map Prod.fst).Nodup ∧
        schema.SharesNames lion ∧ schema.SharesNames torn ∧ ¬ schema.SharesNames lion.tail) ∧
      ofJson (.record schema) (.object lion) =
        .ok (record ⟨schema, [.text "Lion", .number (.integer 190), .boolean false]⟩) ∧
      ofJson (.record schema) (.object torn) = .error (.json (.field .number) .string) ∧
      ∃ entries, ofJson (.record schema) (.object lion.tail) = .ok (map entries) := by
  intro schema lion torn
  have fields : (schema.fields.map Field.name).Nodup := by decide
  have lionNames : (lion.map Prod.fst).Nodup := by decide
  have tailNames : (lion.tail.map Prod.fst).Nodup := by decide
  have tornNames : (torn.map Prod.fst).Nodup := by decide
  obtain ⟨lionIff, lionTaken, -⟩ := recognizesRecords_iff fields lionNames
  obtain ⟨tornIff, tornTaken, -⟩ := recognizesRecords_iff fields tornNames
  obtain ⟨tailIff, -, tailTaken⟩ := recognizesRecords_iff fields tailNames
  have lionShares := lionIff.1 (by decide)
  have tornShares := tornIff.1 (by decide)
  have tailShares : ¬ schema.SharesNames lion.tail := tailIff.not.1 (by decide)
  obtain ⟨lionRead, lionRecord, -⟩ := lionTaken lionShares
  obtain ⟨tornRead, -, -, tornFault⟩ := tornTaken tornShares
  refine ⟨⟨fields, lionNames, tornNames, lionShares, tornShares, tailShares⟩, ?_, ?_, ?_⟩
  · have binds : List.Forall₂ (fun field s => field.Binds lion s) schema.fields
        [.text "Lion", .number (.integer 190), .boolean false] :=
      .cons ⟨rfl, by simp [lion, Scalar.json]⟩ (.cons ⟨rfl, by simp [lion, Scalar.json]⟩
        (.cons ⟨rfl, by simp [lion, Scalar.json]⟩ .nil))
    rw [lionRead, (lionRecord ⟨schema, _⟩).2 ⟨rfl, binds⟩]
    rfl
  · have named : Field.Binds ⟨"name", .text⟩ torn (.text "Lion") :=
      ⟨rfl, by simp [torn, Scalar.json]⟩
    have misfit : FirstMisfit torn schema.fields ⟨"weight", .number⟩ (.string "190") :=
      .behind named (.here (by simp [torn]) (by simp [Json.fieldKind?]))
    rw [tornRead, (tornFault _).2 ⟨_, _, misfit, rfl⟩]
    rfl
  · exact ⟨_, (tailTaken tailShares).trans rfl⟩

end Output

end Pipeline
