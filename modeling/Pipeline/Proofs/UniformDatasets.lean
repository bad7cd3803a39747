import Pipeline.Proofs.Conformance
import Pipeline.Proofs.Decoding

/-! Which JSON is a dataset: an array of numbers, of strings, or of objects with the same names and
kinds of values. Every element of a dataset is written as the item that it was read from. -/

set_option autoImplicit false

namespace Pipeline

/-! ## Uniform items -/

namespace Json

/-- The members have the names of others, and under each name a number, a string or a boolean, of
the same kind in both. -/
structure SameFields (members others : List (String × Json)) : Prop where
  names : ∀ name, name ∈ members.map Prod.fst ↔ name ∈ others.map Prod.fst
  kinds : ∀ name value other, (name, value) ∈ members → (name, other) ∈ others →
    value.kind = other.kind ∧ other.kind ∈ [Kind.number, .string, .boolean]

/-- The items are all numbers, all strings, or all objects with the fields of the first one, to
which a natural key belongs. -/
inductive Uniform (naturalKey : Option String) : List Json → Prop where
  | numbers {items : List Json} (all : ∀ item ∈ items, ∃ n, item = number n) :
      Uniform naturalKey items
  | strings {items : List Json} (all : ∀ item ∈ items, ∃ s, item = string s) :
      Uniform naturalKey items
  | objects {first : List (String × Json)} {rest : List Json}
      (all : ∀ item ∈ object first :: rest,
        ∃ members, item = object members ∧ SameFields members first)
      (key : ∀ key, naturalKey = some key → key ∈ first.map Prod.fst) :
      Uniform naturalKey (object first :: rest)

/-- The values are equal but for the order of the members of an object. -/
inductive Reorders : Json → Json → Prop where
  | refl (json : Json) : Reorders json json
  | object {members others : List (String × Json)} (perm : members.Perm others) :
      Reorders (object members) (object others)

theorem isSome_fieldKind? {json : Json} :
    json.fieldKind?.isSome = true ↔ json.kind ∈ [Kind.number, .string, .boolean] := by
  cases json <;> simp [fieldKind?, kind]

theorem fieldKind?_eq_iff {json other : Json} {kind : FieldKind}
    (known : other.fieldKind? = some kind) :
    json.fieldKind? = some kind ↔ json.kind = other.kind := by
  cases other <;> cases known <;> cases json <;> simp [fieldKind?, Json.kind]

theorem exists_toScalar_iff {json : Json} {kind : FieldKind} :
    (∃ scalar, json.toScalar kind = .ok scalar) ↔ json.fieldKind? = some kind := by
  cases json <;> cases kind <;> simp [toScalar, fieldKind?]

end Json

/-! ## Records -/

namespace Schema

variable {schema : Schema} {members first : List (String × Json)} {fields : List Field}

theorem forall₂_fieldsOfMembers (declared : fieldsOfMembers members = .ok fields) :
    List.Forall₂ (fun field (member : String × Json) =>
      field.name = member.1 ∧ member.2.fieldKind? = some field.kind) fields members := by
  induction members generalizing fields with
  | nil =>
      cases declared
      exact .nil
  | cons member rest ih =>
      rw [fieldsOfMembers] at declared
      split at declared
      · rename_i kind found
        obtain ⟨others, later, rfl⟩ := map_eq_ok.1 declared
        exact .cons ⟨rfl, found⟩ (ih later)
      · cases declared

theorem names_of_fieldsOfMembers (declared : fieldsOfMembers members = .ok fields) :
    fields.map Field.name = members.map Prod.fst :=
  (map_eq_of_forall₂ (forall₂_fieldsOfMembers declared) fun _ _ same => same.1).symm

theorem exists_fieldsOfMembers_iff : (∃ fields, fieldsOfMembers members = .ok fields) ↔
    ∀ member ∈ members, member.2.fieldKind?.isSome = true := by
  constructor
  · intro declared
    obtain ⟨fields, declared⟩ := declared
    intro member within
    obtain ⟨field, _, _, kind⟩ :=
      exists_of_forall₂ (forall₂_fieldsOfMembers declared) member within
    rw [kind]
    rfl
  · intro kinds
    induction members with
    | nil => exact ⟨[], rfl⟩
    | cons member rest ih =>
        obtain ⟨here, later⟩ := List.forall_mem_cons.1 kinds
        obtain ⟨kind, found⟩ := Option.isSome_iff_exists.1 here
        obtain ⟨fields, declared⟩ := ih later
        refine ⟨⟨member.1, kind⟩ :: fields, ?_⟩
        simp only [fieldsOfMembers, found, declared, Except.map]

theorem exists_scalarsOfMembers_iff :
    (∃ scalars, schema.scalarsOfMembers members fields = .ok scalars) ↔
      ∀ field ∈ fields, ∃ value, members.lookup field.name = some value ∧
        value.fieldKind? = some field.kind := by
  induction fields with
  | nil => exact iff_of_true ⟨[], rfl⟩ (List.forall_mem_nil _)
  | cons field rest ih =>
      rw [List.forall_mem_cons, ← ih, scalarsOfMembers, Json.member?]
      cases members.lookup field.name with
      | none => simp
      | some value =>
          simp only [bind_eq_ok, Option.some.injEq, exists_eq_left', ← Json.exists_toScalar_iff]
          constructor
          · intro read
            obtain ⟨scalars, scalar, here, others, later, _⟩ := read
            exact ⟨⟨scalar, here⟩, others, later⟩
          · intro read
            obtain ⟨⟨scalar, here⟩, others, later⟩ := read
            exact ⟨scalar :: others, scalar, here, others, later, rfl⟩

theorem lookup_of_scalarsOfMembers {scalars : List Scalar}
    (read : schema.scalarsOfMembers members fields = .ok scalars) {name : String} {scalar : Scalar}
    (member : (name, scalar) ∈ (fields.map Field.name).zip scalars) :
    members.lookup name = some scalar.json := by
  induction fields generalizing scalars with
  | nil => cases member
  | cons field rest ih =>
      rw [scalarsOfMembers, Json.member?] at read
      split at read
      · cases read
      · rename_i value found
        obtain ⟨first, here, read⟩ := bind_eq_ok.1 read
        obtain ⟨others, later, same⟩ := bind_eq_ok.1 read
        cases same
        rcases List.mem_cons.1 member with same | behind
        · cases same
          rw [found, Json.toScalar_eq_ok here]
        · exact ih later behind

/-- A record that is read from an object has the members of the object. -/
theorem perm_of_recordOfJson {r : Record} (distinct : (schema.fields.map Field.name).Nodup)
    (names : (members.map Prod.fst).Nodup)
    (read : schema.recordOfJson (.object members) = .ok r) : r.members.Perm members := by
  obtain ⟨rfl, conforms⟩ := recordOfJson_conforms read
  have fields := Record.names_fields (Record.length_of_conforms conforms)
  rcases r.schema.recordOfJson_object members with ⟨known, same⟩ | ⟨_, _, _, failed⟩
  · obtain ⟨scalars, scalarsRead, same⟩ := map_eq_ok.1 (same.symm.trans read)
    obtain rfl : scalars = r.values := congrArg Record.values same
    have written : ∀ {name scalar}, (name, scalar) ∈ r.fields →
        members.lookup name = some scalar.json := lookup_of_scalarsOfMembers scalarsRead
    have distinctMembers : (r.members.map Prod.fst).Nodup := r.names_members ▸ fields ▸ distinct
    rw [List.perm_ext_iff_of_nodup distinctMembers.of_map names.of_map]
    intro (name, value)
    rw [← lookup_eq_some_iff names]
    constructor
    · intro member
      obtain ⟨⟨_, scalar⟩, within, same⟩ := List.mem_map.1 member
      cases same
      exact written within
    · intro found
      have declared : name ∈ r.fields.map Prod.fst :=
        fields ▸ known name (List.mem_map_of_mem (mem_of_lookup found))
      obtain ⟨⟨_, scalar⟩, within, rfl⟩ := List.mem_map.1 declared
      obtain rfl : scalar.json = value := Option.some.inj ((written within).symm.trans found)
      exact List.mem_map.2 ⟨_, within, rfl⟩
  · cases failed.symm.trans read

theorem exists_recordOfJson_object_iff :
    (∃ r, schema.recordOfJson (.object members) = .ok r) ↔
      (∀ name ∈ members.map Prod.fst, name ∈ schema.fields.map Field.name) ∧
        ∃ scalars, schema.scalarsOfMembers members schema.fields = .ok scalars := by
  rcases schema.recordOfJson_object members with ⟨known, read⟩ | ⟨name, within, unknown, failed⟩
  · rw [read]
    constructor
    · intro made
      obtain ⟨r, made⟩ := made
      obtain ⟨scalars, scalarsRead, _⟩ := map_eq_ok.1 made
      exact ⟨known, scalars, scalarsRead⟩
    · intro both
      obtain ⟨-, scalars, scalarsRead⟩ := both
      exact ⟨⟨schema, scalars⟩, map_eq_ok.2 ⟨scalars, scalarsRead, rfl⟩⟩
  · refine iff_of_false (fun made => ?_) fun both => unknown (both.1 name within)
    obtain ⟨r, made⟩ := made
    cases failed.symm.trans made

/-- Where the first object declares the fields, others are read exactly if they have the same. -/
theorem exists_recordOfJson_iff_sameFields (declared : fieldsOfMembers first = .ok schema.fields)
    (names : (members.map Prod.fst).Nodup) :
    (∃ r, schema.recordOfJson (.object members) = .ok r) ↔ Json.SameFields members first := by
  have declares := forall₂_fieldsOfMembers declared
  rw [exists_recordOfJson_object_iff, exists_scalarsOfMembers_iff,
    names_of_fieldsOfMembers declared]
  constructor
  · intro both
    obtain ⟨known, values⟩ := both
    constructor
    · refine fun name => ⟨known name, fun within => ?_⟩
      obtain ⟨member, among, rfl⟩ := List.mem_map.1 within
      obtain ⟨field, isField, same, _⟩ := exists_of_forall₂ declares member among
      obtain ⟨value, found, _⟩ := values field isField
      exact same ▸ List.mem_map_of_mem (mem_of_lookup found)
    · intro name value other member among
      obtain ⟨field, isField, rfl, kind⟩ := exists_of_forall₂ declares (name, other) among
      obtain ⟨value', found, kind'⟩ := values field isField
      obtain rfl : value' = value :=
        Option.some.inj (found.symm.trans ((lookup_eq_some_iff names).2 member))
      refine ⟨(Json.fieldKind?_eq_iff kind).1 kind', Json.isSome_fieldKind?.1 ?_⟩
      rw [kind]
      rfl
  · intro same
    refine ⟨fun name => (same.names name).1, fun field isField => ?_⟩
    obtain ⟨⟨name, other⟩, among, rfl, kind⟩ := exists_of_forall₂ declares.flip field isField
    have within : field.name ∈ members.map Prod.fst :=
      (same.names _).2 (List.mem_map_of_mem among)
    obtain ⟨⟨_, value⟩, member, rfl⟩ := List.mem_map.1 within
    exact ⟨value, (lookup_eq_some_iff names).2 member,
      (Json.fieldKind?_eq_iff kind).2 (same.kinds _ value other member among).1⟩

theorem withNaturalKey_eq_ok_iff {key : String} {keyed : Schema} :
    schema.withNaturalKey key = .ok keyed ↔
      key ∈ schema.fields.map Field.name ∧ keyed = { schema with naturalKey := some key } := by
  have known : (schema.indexOf? key).isSome = true ↔ key ∈ schema.fields.map Field.name := by
    simp [indexOf?, List.findIdx?_isSome]
  rw [← known, withNaturalKey]
  split
  · rename_i found
    rw [Except.ok.injEq, eq_comm]
    exact (and_iff_right found).symm
  · rename_i missing
    exact iff_of_false nofun fun both => missing both.1

end Schema

namespace ElementType

variable {elementType : ElementType} {items : List Json} {recordName naturalKey : Option String}

/-! ## Elements -/

theorem exists_elementsOfJson_iff :
    (∃ elements, elementType.elementsOfJson items = .ok elements) ↔
      ∀ item ∈ items, ∃ element, elementType.elementOfJson item = .ok element := by
  constructor
  · intro read
    obtain ⟨elements, read⟩ := read
    intro item member
    obtain ⟨element, _, here⟩ := exists_of_forall₂ (forall₂_elementsOfJson read) item member
    exact ⟨element, here⟩
  · intro each
    induction items with
    | nil => exact ⟨[], rfl⟩
    | cons item rest ih =>
        obtain ⟨⟨first, here⟩, later⟩ := List.forall_mem_cons.1 each
        obtain ⟨others, read⟩ := ih later
        exact ⟨first :: others, bind_eq_ok.2 ⟨first, here, bind_eq_ok.2 ⟨others, read, rfl⟩⟩⟩

theorem exists_elementOfJson_number_iff {json : Json} :
    (∃ element, number.elementOfJson json = .ok element) ↔ ∃ n, json = .number n := by
  cases json <;> simp [elementOfJson, Json.toScalar, Except.map]

theorem exists_elementOfJson_text_iff {json : Json} :
    (∃ element, text.elementOfJson json = .ok element) ↔ ∃ s, json = .string s := by
  cases json <;> simp [elementOfJson, Json.toScalar, Except.map]

theorem exists_elementOfJson_record_iff {schema : Schema} {json : Json} :
    (∃ element, (record schema).elementOfJson json = .ok element) ↔
      ∃ members, json = .object members ∧ ∃ r, schema.recordOfJson (.object members) = .ok r := by
  cases json with
  | object members =>
      constructor
      · intro read
        obtain ⟨element, read⟩ := read
        obtain ⟨r, made, _⟩ := map_eq_ok.1 read
        exact ⟨members, rfl, r, made⟩
      · intro denoted
        obtain ⟨_, same, r, made⟩ := denoted
        cases same
        exact ⟨.record r, map_eq_ok.2 ⟨r, made, rfl⟩⟩
  | null | boolean _ | number _ | string _ | array _ =>
      simp [elementOfJson, Schema.recordOfJson, Except.map]

theorem exists_output_of_elementOfJson {item : Json} {element : Value}
    (fields : ∀ schema, elementType.schema? = some schema → (schema.fields.map Field.name).Nodup)
    (names : ∀ members, item = .object members → (members.map Prod.fst).Nodup)
    (read : elementType.elementOfJson item = .ok element) :
    ∃ output, Output.ofValue element = .ok output ∧ output.json.Reorders item := by
  cases elementType with
  | number =>
      obtain ⟨n, rfl⟩ := exists_elementOfJson_number_iff.1 ⟨element, read⟩
      cases read
      exact ⟨.number n, rfl, .refl _⟩
  | text =>
      obtain ⟨s, rfl⟩ := exists_elementOfJson_text_iff.1 ⟨element, read⟩
      cases read
      exact ⟨.text s, rfl, .refl _⟩
  | record schema =>
      obtain ⟨r, recordRead, rfl⟩ := map_eq_ok.1 read
      obtain ⟨members, rfl, _⟩ := exists_elementOfJson_record_iff.1 ⟨_, read⟩
      have distinct := fields schema rfl
      have perm := Schema.perm_of_recordOfJson distinct (names members rfl) recordRead
      obtain ⟨rfl, conforms⟩ := Schema.recordOfJson_conforms recordRead
      have written : (Output.record r).json = .object r.members :=
        Output.json_record (Record.names_fields (Record.length_of_conforms conforms) ▸ distinct)
      exact ⟨.record r, rfl, written ▸ .object perm⟩

/-! ## Datasets -/

theorem infer_object_eq_ok_iff {first : List (String × Json)} {rest : List Json} :
    infer (.object first :: rest) recordName naturalKey = .ok elementType ↔
      ∃ fields, Schema.fieldsOfMembers first = .ok fields ∧
        (∀ key, naturalKey = some key → key ∈ fields.map Field.name) ∧
        elementType = record ⟨recordName.getD defaultRecordName, fields, naturalKey⟩ := by
  rw [infer, bind_eq_ok]
  refine exists_congr fun fields => and_congr_right fun _ => ?_
  cases naturalKey with
  | none => simp [eq_comm]
  | some key =>
      simp only [map_eq_ok, Schema.withNaturalKey_eq_ok_iff, Option.some.injEq, forall_eq']
      constructor
      · intro keyed
        obtain ⟨_, ⟨known, rfl⟩, rfl⟩ := keyed
        exact ⟨known, rfl⟩
      · intro both
        exact ⟨_, ⟨both.1, rfl⟩, both.2.symm⟩

theorem infer_fields_nodup
    (names : ∀ members, .object members ∈ items → (members.map Prod.fst).Nodup)
    (inferred : infer items recordName naturalKey = .ok elementType) :
    ∀ schema, elementType.schema? = some schema → (schema.fields.map Field.name).Nodup := by
  intro schema found
  -- Only the first of the items declares the fields.
  cases items with
  | nil =>
      cases inferred
      cases found
  | cons first rest =>
      cases first with
      | object members =>
          obtain ⟨fields, declared, _, rfl⟩ := infer_object_eq_ok_iff.1 inferred
          cases found
          exact Schema.names_of_fieldsOfMembers declared ▸ names members (.head _)
      | number _ | string _ =>
          cases inferred
          cases found
      | null | boolean _ | array _ => cases inferred

/-- The first item decides the element type, and all are of this type exactly if they are
uniform. -/
theorem exists_infer_iff_uniform
    (names : ∀ members, .object members ∈ items → (members.map Prod.fst).Nodup) :
    (∃ elementType, infer items recordName naturalKey = .ok elementType ∧
      ∀ item ∈ items, ∃ element, elementType.elementOfJson item = .ok element) ↔
      Json.Uniform naturalKey items := by
  cases items with
  | nil => exact iff_of_true ⟨number, rfl, List.forall_mem_nil _⟩ (.numbers (List.forall_mem_nil _))
  | cons first rest =>
      constructor
      · intro typed
        obtain ⟨elementType, inferred, each⟩ := typed
        cases first with
        | number n =>
            cases inferred
            exact .numbers fun item member => exists_elementOfJson_number_iff.1 (each item member)
        | string s =>
            cases inferred
            exact .strings fun item member => exists_elementOfJson_text_iff.1 (each item member)
        | object members =>
            obtain ⟨fields, declared, key, rfl⟩ := infer_object_eq_ok_iff.1 inferred
            rw [Schema.names_of_fieldsOfMembers declared] at key
            refine .objects (fun item member => ?_) key
            obtain ⟨others, rfl, read⟩ := exists_elementOfJson_record_iff.1 (each item member)
            exact ⟨others, rfl, (Schema.exists_recordOfJson_iff_sameFields declared
              (names others member)).1 read⟩
        | null | boolean _ | array _ => cases inferred
      · intro uniform
        cases uniform with
        | numbers all =>
            obtain ⟨n, rfl⟩ := all first (.head _)
            exact ⟨number, rfl, fun item member =>
              exists_elementOfJson_number_iff.2 (all item member)⟩
        | strings all =>
            obtain ⟨s, rfl⟩ := all first (.head _)
            exact ⟨text, rfl, fun item member => exists_elementOfJson_text_iff.2 (all item member)⟩
        | objects all key =>
            rename_i members
            obtain ⟨_, same, own⟩ := all (.object members) (.head _)
            cases same
            obtain ⟨fields, declared⟩ := Schema.exists_fieldsOfMembers_iff.2 fun member within =>
              Json.isSome_fieldKind?.2 (own.kinds member.1 member.2 member.2 within within).2
            rw [← Schema.names_of_fieldsOfMembers declared] at key
            refine ⟨_, infer_object_eq_ok_iff.2 ⟨fields, declared, key, rfl⟩, fun item member => ?_⟩
            obtain ⟨others, rfl, same⟩ := all item member
            exact exists_elementOfJson_record_iff.2 ⟨others, rfl,
              (Schema.exists_recordOfJson_iff_sameFields declared (names others member)).2 same⟩

end ElementType

namespace Dataset

variable {json : Json} {recordName naturalKey : Option String} {dataset : Dataset}

/-- JSON whose objects repeat no name is a dataset exactly if it is an array of uniform items. The
elements stand for the items in order: they are of the element type, and each is written as its
item. -/
theorem ofJson_uniform
    (names : ∀ items members, json = .array items → .object members ∈ items →
      (members.map Prod.fst).Nodup)
    (recordName naturalKey : Option String) :
    ((∃ dataset, ofJson json recordName naturalKey = .ok dataset) ↔
      ∃ items, json = .array items ∧ Json.Uniform naturalKey items) ∧
      ∀ dataset, ofJson json recordName naturalKey = .ok dataset →
        ∃ items, json = .array items ∧
          List.Forall₂ (fun element item => dataset.elementType.admits element = true ∧
            ∃ output, Output.ofValue element = .ok output ∧ output.json.Reorders item)
            dataset.elements items := by
  have named := fun items (same : json = .array items) members => names items members same
  constructor
  · constructor
    · intro loaded
      obtain ⟨dataset, loaded⟩ := loaded
      obtain ⟨items, same, inferred, read⟩ := ofJson_eq_ok_iff.1 loaded
      have each := ElementType.exists_elementsOfJson_iff.1 ⟨_, read⟩
      exact ⟨items, same, (ElementType.exists_infer_iff_uniform (named items same)).1
        ⟨_, inferred, each⟩⟩
    · intro uniform
      obtain ⟨items, same, uniform⟩ := uniform
      obtain ⟨elementType, inferred, each⟩ :=
        (ElementType.exists_infer_iff_uniform (named items same)).2 uniform
      obtain ⟨elements, read⟩ := ElementType.exists_elementsOfJson_iff.2 each
      exact ⟨⟨elementType, elements⟩, ofJson_eq_ok_iff.2 ⟨items, same, inferred, read⟩⟩
  · intro dataset loaded
    obtain ⟨items, same, inferred, read⟩ := ofJson_eq_ok_iff.1 loaded
    have fields := ElementType.infer_fields_nodup (named items same) inferred
    have related : List.Forall₂ (fun item element => item ∈ items ∧
        dataset.elementType.elementOfJson item = .ok element) items dataset.elements :=
      (List.forall₂_and_left _ _).2 ⟨fun _ => id, (ElementType.forall₂_elementsOfJson read).flip⟩
    refine ⟨items, same, related.flip.imp fun element item both => ?_⟩
    obtain ⟨member, here⟩ := both
    refine ⟨(ElementType.elementOfJson_contains here).1, ?_⟩
    refine ElementType.exists_output_of_elementOfJson fields (fun members object => ?_) here
    exact named items same members (object ▸ member)

/-- The second animal has its members in another order, and a double for an age. -/
theorem ofJson_uniform_animals :
    let tom : List (String × Json) := [("name", .string "Tom"), ("age", .number (.integer 3))]
    let rex : List (String × Json) :=
      [("age", .number (.float ⟨0x4014000000000000⟩)), ("name", .string "Rex")]
    let items : List Json := [.object tom, .object rex]
    (∀ others members, Json.array items = .array others → .object members ∈ others →
      (members.map Prod.fst).Nodup) ∧
      Json.Uniform (some "age") items ∧
      ∃ dataset, ofJson (.array items) none (some "age") = .ok dataset ∧
        List.Forall₂ (fun element item => dataset.elementType.admits element = true ∧
          ∃ output, Output.ofValue element = .ok output ∧ output.json.Reorders item)
          dataset.elements items := by
  intro tom rex items
  have names : ∀ others members, Json.array items = .array others → .object members ∈ others →
      (members.map Prod.fst).Nodup := by
    intro others members same member
    cases same
    rcases List.mem_cons.1 member with same | member
    · cases same
      decide
    · cases List.mem_singleton.1 member
      decide
  obtain ⟨loads, written⟩ := ofJson_uniform names none (some "age")
  have loaded : ∃ dataset, ofJson (.array items) none (some "age") = .ok dataset := ⟨_, rfl⟩
  obtain ⟨_, same, uniform⟩ := loads.1 loaded
  cases same
  obtain ⟨dataset, read⟩ := loaded
  obtain ⟨_, same, all⟩ := written dataset read
  cases same
  exact ⟨names, uniform, dataset, read, all⟩

end Dataset

end Pipeline
