import Pipeline.Proofs.Conformance
import Pipeline.Proofs.JsonForms
import Pipeline.Proofs.Parts
import Pipeline.Proofs.WrittenKeys

/-! An output next to what is decoded from JSON of the same form. They are equal exactly if every
map inside the output has keys that are read back from their texts, and is not taken for a
record. -/

set_option autoImplicit false

namespace Pipeline

/-! ## Scalars and records -/

namespace Scalar

theorem folded_json (s : Scalar) : s.json.folded = s.json := by
  cases s <;> rfl

theorem equals_of_form {a b : Scalar} (plain : b.json.Plain) (same : a.json.form = b.json.form) :
    a.equals b = true := by
  cases b with
  | number n =>
      have same : a.json.form = .number n.toRat := same.trans (Json.form_number plain.of_number)
      obtain ⟨m, found, finite, denotes⟩ := Json.eq_number_of_form same
      cases a <;> cases found
      exact (Number.equals_iff finite plain.of_number).2 denotes
  | text s =>
      have found := Json.eq_string_of_form same
      cases a <;> cases found
      exact beq_self_eq_true s
  | boolean b =>
      cases a with
      | number n => rcases Json.form_of_number same with none | ⟨q, none⟩ <;> cases none
      | text s => cases same
      | boolean c => simpa [json, Json.form, equals] using same

end Scalar

theorem Json.toScalar_eq_ok {json : Json} {kind : FieldKind} {scalar : Scalar}
    (read : json.toScalar kind = .ok scalar) : scalar.json = json := by
  unfold Json.toScalar at read
  split at read <;> cases read <;> rfl

namespace Record

theorem names_fields {r : Record} (length : r.values.length = r.schema.fields.length) :
    r.fields.map Prod.fst = r.schema.fields.map Field.name :=
  List.map_fst_zip (by rw [List.length_map, length])

/-- The members of the JSON object that a record is. -/
def members (r : Record) : List (String × Json) :=
  r.fields.map fun (name, value) => (name, value.json)

theorem names_members (r : Record) : r.members.map Prod.fst = r.fields.map Prod.fst :=
  List.map_map

theorem lookup_members (r : Record) (name : String) :
    r.members.lookup name = (r.fields.lookup name).map Scalar.json :=
  lookup_map Scalar.json

end Record

/-- The fields of a record next to those that are read by their names. -/
theorem Record.equalFields_of_form {schema : Schema} {members : List (String × Json)}
    (plain : ∀ name value, (name, value) ∈ members → value.Plain) {fields : List Field}
    {values scalars : List Scalar} (length : values.length = fields.length)
    (same : ∀ name value, (name, value) ∈ (fields.map Field.name).zip values →
      (members.lookup name).map Json.form = some value.json.form)
    (read : schema.scalarsOfMembers members fields = .ok scalars) :
    equalFields ((fields.map Field.name).zip values) ((fields.map Field.name).zip scalars) =
      true := by
  induction fields generalizing values scalars with
  | nil => simp [equalFields]
  | cons field fields ih =>
      cases values with
      | nil => cases length
      | cons value values =>
          obtain ⟨json, found, form⟩ := Option.map_eq_some_iff.1 (same field.name value (.head _))
          rw [Schema.scalarsOfMembers, Json.member?, found] at read
          obtain ⟨scalar, first, read⟩ := bind_eq_ok.1 read
          obtain ⟨others, rest, equal⟩ := bind_eq_ok.1 read
          cases equal
          have plainFirst : scalar.json.Plain :=
            Json.toScalar_eq_ok first ▸ plain field.name json (mem_of_lookup found)
          have sameFirst : value.json.form = scalar.json.form := by
            rw [Json.toScalar_eq_ok first, form]
          have behind := ih (Nat.succ.inj length)
            (fun name value member => same name value (.tail _ member)) rest
          simp only [List.map_cons, List.zip_cons_cons, equalFields, beq_self_eq_true,
            Scalar.equals_of_form plainFirst sameFirst, behind, Bool.and_true]

namespace Output

/-! ## The JSON of an output -/

theorem itemsJson_eq (items : List Output) : itemsJson items = items.map entireJson := by
  induction items with
  | nil => rfl
  | cons item rest ih => rw [itemsJson, ih, List.map_cons]

theorem entriesJson_eq (entries : List (Key × Output)) :
    entriesJson entries = entries.map fun (key, value) => (key.written, value.entireJson) := by
  induction entries with
  | nil => rfl
  | cons entry rest ih => rw [entriesJson, ih, List.map_cons]

theorem json_list (items : List Output) : (list items).json = .array (items.map json) := by
  rw [json, entireJson, Json.folded, itemsJson_eq, Json.foldedItems_eq, List.map_map]
  rfl

theorem json_map (entries : List (Key × Output)) : (map entries).json =
    .object (Json.foldMembers (entries.map fun (key, value) => (key.written, value.json))) := by
  rw [json, entireJson, Json.folded, entriesJson_eq, Json.foldedMembers_eq, List.map_map]
  rfl

theorem json_record_folded (r : Record) :
    (record r).json = .object (Json.foldMembers r.members) := by
  rw [json, entireJson, Record.json, Json.folded, Json.foldedMembers_eq, List.map_map,
    Record.members]
  simp only [Function.comp_def, Scalar.folded_json]

theorem json_record {r : Record} (distinct : (r.fields.map Prod.fst).Nodup) :
    (record r).json = .object r.members := by
  rw [json_record_folded, Json.foldMembers_of_nodup (r.names_members ▸ distinct)]

end Output

/-! ## What is decoded -/

theorem Schema.isSome_field? {schema : Schema} {name : String} :
    (schema.field? name).isSome = true ↔ name ∈ schema.fields.map Field.name := by
  simp [field?, List.find?_isSome]

theorem Schema.matchesNames_iff {schema : Schema} {members : List (String × Json)}
    (fields : (schema.fields.map Field.name).Nodup) (names : (members.map Prod.fst).Nodup) :
    schema.matchesNames members = true ↔
      ∀ name, name ∈ schema.fields.map Field.name ↔ name ∈ members.map Prod.fst := by
  have sizes : members.length = schema.fields.length ↔
      (members.map Prod.fst).length = (schema.fields.map Field.name).length := by simp
  rw [matchesNames, Bool.and_eq_true, beq_iff_eq, sizes, List.all_eq_true]
  constructor
  · rintro ⟨size, all⟩ name
    have subset : members.map Prod.fst ⊆ schema.fields.map Field.name := by
      intro name within
      obtain ⟨member, found, rfl⟩ := List.mem_map.1 within
      exact isSome_field?.1 (all member found)
    exact ((names.subperm subset).perm_of_length_le size.ge).mem_iff.symm
  · intro same
    have perm := (List.perm_ext_iff_of_nodup names fields).2 fun name => (same name).symm
    refine ⟨perm.length_eq, fun member found => ?_⟩
    exact isSome_field?.2 ((same _).2 (List.mem_map_of_mem found))

/-- An object is read as a record only if each of its members is a field. -/
theorem Schema.recordOfJson_object (schema : Schema) (members : List (String × Json)) :
    ((∀ name ∈ members.map Prod.fst, name ∈ schema.fields.map Field.name) ∧
      schema.recordOfJson (.object members) =
        (schema.scalarsOfMembers members schema.fields).map (⟨schema, ·⟩)) ∨
      (∃ name ∈ members.map Prod.fst, name ∉ schema.fields.map Field.name ∧
        schema.recordOfJson (.object members) = .error (.unexpectedField schema.name name)) := by
  rw [recordOfJson]
  split
  · rename_i name value found
    refine .inr ⟨name, List.mem_map_of_mem (List.mem_of_find?_eq_some found), fun known => ?_, rfl⟩
    have unknown := List.find?_some found
    dsimp only at unknown
    rw [← isSome_field?, ← Option.not_isNone, unknown] at known
    cases known
  · rename_i none
    refine .inl ⟨fun name within => ?_, schema.scalarsOfMembers_record members⟩
    obtain ⟨member, found, rfl⟩ := List.mem_map.1 within
    have known : (schema.field? member.1).isNone = false :=
      Bool.eq_false_iff.2 (List.find?_eq_none.1 none member found)
    rw [← isSome_field?, ← Option.not_isNone, known]
    rfl

/-- The members of an object that is taken for a record are all fields. -/
theorem Schema.recordOfJson_of_matchesNames {schema : Schema} {members : List (String × Json)}
    (matched : schema.matchesNames members = true) :
    schema.recordOfJson (.object members) =
      (schema.scalarsOfMembers members schema.fields).map (⟨schema, ·⟩) := by
  rw [matchesNames, Bool.and_eq_true, List.all_eq_true] at matched
  rcases schema.recordOfJson_object members with ⟨_, read⟩ | ⟨name, within, unknown, _⟩
  · exact read
  · obtain ⟨member, found, rfl⟩ := List.mem_map.1 within
    exact absurd (isSome_field?.1 (matched.2 member found)) unknown

namespace Output

variable {elementType : ElementType}

theorem forall₂_entriesOfJson {members : List (String × Json)} {decoded : List (Key × Output)}
    (read : entriesOfJson elementType members = .ok decoded) :
    List.Forall₂ (fun member entry => Key.read member.1 = entry.1 ∧
      ofJson elementType member.2 = .ok entry.2) members decoded := by
  induction members generalizing decoded with
  | nil =>
      cases read
      exact .nil
  | cons member rest ih =>
      obtain ⟨part, first, read⟩ := bind_eq_ok.1 read
      obtain ⟨others, later, same⟩ := bind_eq_ok.1 read
      cases same
      exact .cons ⟨rfl, first⟩ (ih later)

theorem keys_entriesOfJson {members : List (String × Json)} {decoded : List (Key × Output)}
    (read : entriesOfJson elementType members = .ok decoded) :
    decoded.map Prod.fst = members.map fun member => Key.read member.1 :=
  map_eq_of_forall₂ (forall₂_entriesOfJson read) fun _ _ both => both.1

/-- An object is taken for a record if it has the names of the fields, and for a map otherwise. -/
theorem ofJson_object {members : List (String × Json)} {decoded : Output}
    (read : ofJson elementType (.object members) = .ok decoded) :
    (∃ schema r, elementType.schema? = some schema ∧ schema.matchesNames members = true ∧
        schema.recordOfJson (.object members) = .ok r ∧ decoded = .record r) ∨
      (∀ schema, elementType.schema? = some schema → schema.matchesNames members = false) ∧
        ∃ entries, entriesOfJson elementType members = .ok entries ∧
          decoded = .map (entriesOf entries) := by
  rw [ofJson] at read
  have map : ((entriesOfJson elementType members).map fun entries =>
      Output.map (entriesOf entries)) = .ok decoded →
        ∃ entries, entriesOfJson elementType members = .ok entries ∧
          decoded = .map (entriesOf entries) := by
    intro read
    obtain ⟨entries, found, same⟩ := map_eq_ok.1 read
    exact ⟨entries, found, same.symm⟩
  split at read
  · rename_i schema found
    split at read
    · rename_i names
      obtain ⟨r, made, same⟩ := map_eq_ok.1 read
      exact .inl ⟨schema, r, found, names, made, same.symm⟩
    · rename_i names
      refine .inr ⟨fun other same => ?_, map read⟩
      cases found.symm.trans same
      exact Bool.eq_false_iff.2 names
  · rename_i none
    exact .inr ⟨fun schema same => (nomatch none.symm.trans same), map read⟩

/-! ## Equal outputs -/

theorem keys_of_equalEntries {as bs : List (Key × Output)} (equal : equalEntries as bs = true) :
    as.map Prod.fst = bs.map Prod.fst := by
  induction as generalizing bs with
  | nil =>
      cases bs with
      | nil => rfl
      | cons => cases equal
  | cons first as ih =>
      cases bs with
      | nil => cases equal
      | cons other bs =>
          rw [equalEntries, Bool.and_eq_true, Bool.and_eq_true, beq_iff_eq] at equal
          rw [List.map_cons, List.map_cons, equal.1.1, ih equal.2]

theorem equalEntries_iff_of_keys {as bs : List (Key × Output)}
    (keys : as.map Prod.fst = bs.map Prod.fst) (distinct : (as.map Prod.fst).Nodup) :
    equalEntries as bs = true ↔
      ∀ key a b, (key, a) ∈ as → (key, b) ∈ bs → a.equals b = true := by
  induction as generalizing bs with
  | nil =>
      cases bs with
      | nil => simp [equalEntries]
      | cons => cases keys
  | cons first as ih =>
      obtain ⟨key, a⟩ := first
      cases bs with
      | nil => cases keys
      | cons other bs =>
          obtain ⟨other, b⟩ := other
          obtain ⟨rfl, rest⟩ := List.cons.inj keys
          obtain ⟨new, distinct⟩ := List.nodup_cons.1 distinct
          have newB : key ∉ bs.map Prod.fst := rest ▸ new
          rw [equalEntries, Bool.and_eq_true, Bool.and_eq_true, beq_iff_eq, ih rest distinct]
          constructor
          · rintro ⟨⟨-, equal⟩, others⟩ found c d memberC memberD
            rcases List.mem_cons.1 memberC with same | behindC
            · cases same
              rcases List.mem_cons.1 memberD with same | behindD
              · cases same
                exact equal
              · exact absurd (List.mem_map_of_mem behindD) newB
            · rcases List.mem_cons.1 memberD with same | behindD
              · cases same
                exact absurd (List.mem_map_of_mem behindC) new
              · exact others found c d behindC behindD
          · intro all
            exact ⟨⟨rfl, all key a b (.head _) (.head _)⟩, fun found c d memberC memberD =>
              all found c d (.tail _ memberC) (.tail _ memberD)⟩

/-! ## Reading back -/

/-- Maps are in key order, and records are those of the element type, with a value for every
field. -/
def Fits (elementType : ElementType) : Output → Prop
  | map entries => InKeyOrder entries
  | record r => elementType.schema? = some r.schema ∧ r.values.length = r.schema.fields.length
  | number _ | text _ | list _ => True

/-- The keys of a map are no texts that read as integers or booleans, and they are not written as
exactly the names of the fields of the dataset's records. -/
def ReadsBack (elementType : ElementType) : Output → Prop
  | map entries => (∀ key ∈ entries.map Prod.fst, key.IsPlain) ∧
      ∀ schema, elementType.schema? = some schema →
        ¬ ∀ name, name ∈ schema.fields.map Field.name ↔
          name ∈ entries.map fun entry => entry.1.written
  | number _ | text _ | list _ | record _ => True

theorem equalItems_decoded {items : List Output} {jsons : List Json} {decoded : List Output}
    (parts : ∀ item ∈ items, ∀ json ∈ jsons, ∀ decoded, item.json.form = json.form →
      ofJson elementType json = .ok decoded →
      (item.equals decoded = true ↔ item.Everywhere (ReadsBack elementType)))
    (same : (items.map json).map Json.form = jsons.map Json.form)
    (read : itemsOfJson elementType jsons = .ok decoded) :
    equalItems items decoded = true ↔
      ∀ item ∈ items, item.Everywhere (ReadsBack elementType) := by
  induction items generalizing jsons decoded with
  | nil =>
      cases jsons with
      | nil =>
          cases read
          simp [equalItems]
      | cons => cases same
  | cons item items ih =>
      cases jsons with
      | nil => cases same
      | cons json jsons =>
          obtain ⟨form, forms⟩ := List.cons.inj same
          obtain ⟨first, readFirst, read⟩ := bind_eq_ok.1 read
          obtain ⟨others, readRest, equal⟩ := bind_eq_ok.1 read
          cases equal
          have rest := ih (fun item member json among => parts item (.tail _ member) json
            (.tail _ among)) forms readRest
          have here := parts item (.head _) json (.head _) first form readFirst
          rw [equalItems, Bool.and_eq_true, here, rest, List.forall_mem_cons]

/-- A record is read back as an equal one. -/
theorem equals_decoded_record {r : Record} (fits : (record r).Fits elementType)
    (distinct : (r.schema.fields.map Field.name).Nodup) {json : Json} (plain : json.Plain)
    (same : (record r).json.form = json.form) {decoded : Output}
    (read : ofJson elementType json = .ok decoded) : (record r).equals decoded = true := by
  obtain ⟨found, length⟩ := fits
  have names := Record.names_fields length
  have distinctFields : (r.fields.map Prod.fst).Nodup := names ▸ distinct
  rw [json_record distinctFields, Json.form_object] at same
  obtain ⟨members, rfl, members?⟩ := Json.eq_object_of_form same.symm
  obtain ⟨distinctMembers, plainMembers⟩ := plain.of_object
  have values? : ∀ name, (members.lookup name).map Json.form =
      (r.fields.lookup name).map fun value => value.json.form := by
    intro name
    rw [members?, Record.lookup_members, Option.map_map]
    rfl
  have matched : r.schema.matchesNames members = true := by
    rw [Schema.matchesNames_iff distinct distinctMembers]
    intro name
    rw [← names, mem_keys_iff_of_lookup values?]
  rcases ofJson_object read with ⟨schema, s, other, _, made, rfl⟩ | ⟨unmatched, _⟩
  · cases found.symm.trans other
    rw [Schema.recordOfJson_of_matchesNames matched] at made
    obtain ⟨scalars, scalarsRead, rfl⟩ := map_eq_ok.1 made
    have fields := Record.equalFields_of_form plainMembers length (fun name value member => by
      rw [values?, (lookup_eq_some_iff distinctFields).2 member]
      rfl) scalarsRead
    rw [equals, Record.equals, beq_self_eq_true, Bool.true_and]
    exact fields
  · rw [unmatched r.schema found] at matched
    cases matched

/-- The members of an object as the map entries that they are written for. Only keys that are read
back are known to be written differently. -/
structure WrittenAs (entries : List (Key × Output)) (members : List (String × Json)) : Prop where
  names : ∀ name, name ∈ members.map Prod.fst ↔ name ∈ entries.map fun entry => entry.1.written
  values : ∀ key part, (key, part) ∈ entries →
    ∃ value, (key.written, value) ∈ members ∧ part.json.form = value.form

theorem nodup_written {entries : List (Key × Output)} (distinct : (entries.map Prod.fst).Nodup)
    (plain : ∀ key ∈ entries.map Prod.fst, key.IsPlain) :
    ((entries.map fun (key, value) => (key.written, value.json)).map Prod.fst).Nodup := by
  have names : (entries.map fun (key, value) => (key.written, value.json)).map Prod.fst =
      (entries.map Prod.fst).map Key.written := by simp [List.map_map, Function.comp_def]
  rw [names]
  refine distinct.map_on fun key within other among written => ?_
  rw [← Key.read_written (plain key within), written, Key.read_written (plain other among)]

theorem writtenAs_of_form {entries : List (Key × Output)} {members : List (String × Json)}
    (distinct : (entries.map Prod.fst).Nodup) (plain : ∀ key ∈ entries.map Prod.fst, key.IsPlain)
    (same : ∀ name, (members.lookup name).map Json.form = ((Json.foldMembers
      (entries.map fun (key, value) => (key.written, value.json))).lookup name).map Json.form) :
    WrittenAs entries members := by
  have injective := nodup_written distinct plain
  rw [Json.foldMembers_of_nodup injective] at same
  constructor
  · intro name
    rw [mem_keys_iff_of_lookup same, List.map_map]
    rfl
  · intro key part member
    have found : (entries.map fun (key, value) => (key.written, value.json)).lookup key.written =
        some part.json :=
      (lookup_eq_some_iff injective).2 (List.mem_map_of_mem (f := fun (entry : Key × Output) =>
        (entry.1.written, entry.2.json)) member)
    obtain ⟨value, within, form⟩ := Option.map_eq_some_iff.1 ((same key.written).trans
      (congrArg (Option.map Json.form) found))
    exact ⟨value, mem_of_lookup within, form.symm⟩

theorem isPlain_of_equals_decoded {entries : List (Key × Output)} {members : List (String × Json)}
    {decoded : Output} (read : ofJson elementType (.object members) = .ok decoded)
    (equal : (map entries).equals decoded = true) : ∀ key ∈ entries.map Prod.fst, key.IsPlain := by
  rcases ofJson_object read with ⟨_, r, _, _, _, rfl⟩ | ⟨_, others, readOthers, rfl⟩
  · cases equal
  · intro key within
    rw [keys_of_equalEntries equal, mem_keys_entriesOf, keys_entriesOfJson readOthers] at within
    obtain ⟨member, _, rfl⟩ := List.mem_map.1 within
    exact Key.read_isPlain member.1

theorem keys_entriesOf {entries decoded : List (Key × Output)} {members : List (String × Json)}
    (ordered : InKeyOrder entries) (plain : ∀ key ∈ entries.map Prod.fst, key.IsPlain)
    (written : WrittenAs entries members)
    (keys : decoded.map Prod.fst = members.map fun member => Key.read member.1) :
    entries.map Prod.fst = (entriesOf decoded).map Prod.fst := by
  refine ordered.keys_eq (entriesOf_inKeyOrder decoded) fun key => ?_
  rw [mem_keys_entriesOf, keys]
  constructor
  · intro within
    obtain ⟨entry, found, rfl⟩ := List.mem_map.1 within
    obtain ⟨member, among, same⟩ := List.mem_map.1 ((written.names _).2 (List.mem_map_of_mem found))
    exact List.mem_map.2 ⟨member, among, by rw [same, Key.read_written (plain _ within)]⟩
  · intro within
    obtain ⟨member, among, rfl⟩ := List.mem_map.1 within
    obtain ⟨entry, found, same⟩ := List.mem_map.1 ((written.names _).1 (List.mem_map_of_mem among))
    have key := List.mem_map_of_mem (f := Prod.fst) found
    rwa [← same, Key.read_written (plain _ key)]

/-- A map with keys that are read back equals what is decoded unless that is a record, as far as
the parts do. -/
theorem equals_decoded_map_iff {entries : List (Key × Output)} (ordered : InKeyOrder entries)
    (fields : ∀ schema, elementType.schema? = some schema → (schema.fields.map Field.name).Nodup)
    {members : List (String × Json)} (distinct : (members.map Prod.fst).Nodup)
    (plain : ∀ key ∈ entries.map Prod.fst, key.IsPlain) (written : WrittenAs entries members)
    (parts : ∀ key part, (key, part) ∈ entries → ∀ name json, (name, json) ∈ members →
      ∀ decoded, part.json.form = json.form → ofJson elementType json = .ok decoded →
      (part.equals decoded = true ↔ part.Everywhere (ReadsBack elementType)))
    {decoded : Output} (read : ofJson elementType (.object members) = .ok decoded) :
    (map entries).equals decoded = true ↔ (map entries).Everywhere (ReadsBack elementType) := by
  rw [everywhere_map_iff, ReadsBack, and_iff_right plain]
  rcases ofJson_object read with
    ⟨schema, r, found, matched, _, rfl⟩ | ⟨unmatched, others, readOthers, rfl⟩
  · have names := (Schema.matchesNames_iff (fields schema found) distinct).1 matched
    refine iff_of_false Bool.false_ne_true fun back => back.1 schema found fun name => ?_
    rw [names, written.names]
  · have others? : ∀ schema, elementType.schema? = some schema →
        ¬ ∀ name, name ∈ schema.fields.map Field.name ↔
          name ∈ entries.map fun entry => entry.1.written := by
      intro schema found same
      have matched : schema.matchesNames members = true :=
        (Schema.matchesNames_iff (fields schema found) distinct).2 fun name =>
          (same name).trans (written.names name).symm
      rw [unmatched schema found] at matched
      cases matched
    have sameKeys := keys_entriesOf ordered plain written (keys_entriesOfJson readOthers)
    -- An entry is compared with what its own member is decoded to.
    have own : ∀ key part, (key, part) ∈ entries → ∀ other, (key, other) ∈ entriesOf others →
        (part.equals other = true ↔ part.Everywhere (ReadsBack elementType)) := by
      intro key part within other among
      obtain ⟨⟨name, json⟩, member, rfl, decode⟩ :=
        exists_of_forall₂ (forall₂_entriesOfJson readOthers) _ (mem_of_mem_entriesOf among)
      have listed := (written.names name).1 (List.mem_map_of_mem member)
      obtain ⟨entry, found, same⟩ := List.mem_map.1 listed
      have written? : (Key.read name).written = name := by
        rw [← same, Key.read_written (plain _ (List.mem_map_of_mem found))]
      obtain ⟨value, valueMember, form⟩ := written.values _ part within
      rw [written?] at valueMember
      have single := List.inj_on_of_nodup_map distinct valueMember member rfl
      obtain rfl : value = json := congrArg Prod.snd single
      exact parts _ part within name value member other form decode
    rw [equals, equalEntries_iff_of_keys sameKeys ordered.nodup, and_iff_right others?]
    constructor
    · intro all key part within
      have among : key ∈ (entriesOf others).map Prod.fst :=
        sameKeys ▸ List.mem_map_of_mem (f := Prod.fst) within
      obtain ⟨⟨key, other⟩, found, rfl⟩ := List.mem_map.1 among
      exact (own _ part within other found).1 (all _ part other within found)
    · intro all key part other within among
      exact (own key part within other among).2 (all key part within)

theorem equals_decoded_number {n : Number} {json : Json} (plain : json.Plain)
    (same : (number n).json.form = json.form) {decoded : Output}
    (read : ofJson elementType json = .ok decoded) : (number n).equals decoded = true := by
  cases json with
  | number m =>
      cases read
      obtain ⟨k, found, finite, denotes⟩ :=
        Json.eq_number_of_form (same.trans (Json.form_number plain.of_number))
      cases found
      exact (Number.equals_iff finite plain.of_number).2 denotes
  | null => cases read
  | boolean _ | string _ | array _ | object _ =>
      rcases Json.form_of_number same with none | ⟨q, none⟩ <;> cases none

/-- An output equals what is decoded from JSON of its form exactly if it is read back. -/
theorem equals_decoded_iff
    (fields : ∀ schema, elementType.schema? = some schema → (schema.fields.map Field.name).Nodup)
    {output : Output} (fits : output.Everywhere (Fits elementType)) {json : Json}
    (plain : json.Plain) (same : output.json.form = json.form) {decoded : Output}
    (read : ofJson elementType json = .ok decoded) :
    output.equals decoded = true ↔ output.Everywhere (ReadsBack elementType) := by
  induction output using Output.induct generalizing json decoded with
  | number n =>
      refine iff_of_true ?_ (everywhere_number_iff.2 trivial)
      exact equals_decoded_number plain same read
  | text s =>
      refine iff_of_true ?_ (everywhere_text_iff.2 trivial)
      cases Json.eq_string_of_form same.symm
      cases read
      exact beq_self_eq_true s
  | list items ih =>
      rw [json_list, Json.form_array] at same
      obtain ⟨jsons, rfl, forms⟩ := Json.eq_array_of_form same.symm
      obtain ⟨others, readOthers, rfl⟩ := map_eq_ok.1 read
      have fitItems := (everywhere_list_iff.1 fits).2
      rw [equals, everywhere_list_iff, ReadsBack, true_and]
      exact equalItems_decoded (fun item member json among decoded same read =>
        ih item member (fitItems item member) (plain.of_array json among) same read)
        forms.symm readOthers
  | map entries ih =>
      rw [json_map, Json.form_object] at same
      obtain ⟨members, rfl, members?⟩ := Json.eq_object_of_form same.symm
      obtain ⟨distinct, plainMembers⟩ := plain.of_object
      obtain ⟨ordered, fitParts⟩ := everywhere_map_iff.1 fits
      by_cases keys : ∀ key ∈ entries.map Prod.fst, key.IsPlain
      · exact equals_decoded_map_iff ordered fields distinct keys
          (writtenAs_of_form ordered.nodup keys members?)
          (fun key part within name json member decoded same read => ih key part within
            (fitParts key part within) (plainMembers name json member) same read) read
      · have fails := fun equal => keys (isPlain_of_equals_decoded read equal)
        exact iff_of_false fails fun back => keys back.self.1
  | record r =>
      refine iff_of_true ?_ (everywhere_record_iff.2 trivial)
      exact equals_decoded_record fits.self (fields r.schema fits.self.1) plain same read

end Output

end Pipeline
