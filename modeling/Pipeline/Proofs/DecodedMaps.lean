import Pipeline.Proofs.FiniteResults
import Pipeline.Proofs.LastEntries
import Pipeline.Proofs.UniformDatasets

/-! Expected outputs as they are decoded from JSON. A map has an entry for every member of its
object exactly if no two names spell one integer, and then stands where the object stood; where two
do, the last of them is kept. -/

set_option autoImplicit false

namespace Pipeline

/-- No two names spell the same integer of 64 bits. -/
def SpelledApart {α : Type} (members : List (String × α)) : Prop :=
  ∀ name ∈ members.map Prod.fst, ∀ other ∈ members.map Prod.fst, ∀ n : Int64,
    Spells name n.toInt → Spells other n.toInt → name = other

/-- An object has not the names of the fields, so that it is taken for a map. -/
def ElementType.TakesForMap (elementType : ElementType) (members : List (String × Json)) : Prop :=
  ∀ schema, elementType.schema? = some schema → schema.matchesNames members = false

theorem nodup_read_iff {α : Type} {members : List (String × α)}
    (names : (members.map Prod.fst).Nodup) :
    ((members.map Prod.fst).map Key.read).Nodup ↔ SpelledApart members := by
  rw [List.nodup_map_iff_inj_on names]
  simp only [Key.read_eq_read_iff]
  constructor
  · intro injective name within other among n first second
    exact injective name within other among (.inr ⟨n, first, second⟩)
  · rintro apart name within other among (same | ⟨n, first, second⟩)
    · exact same
    · exact apart name within other among n first second

theorem exists_image_of_forall₂ {α β : Type} {r : α → β → Prop} {items : List α} {images : List β}
    (related : List.Forall₂ r items images) : ∀ item ∈ items, ∃ image ∈ images, r item image :=
  exists_of_forall₂ related.flip

theorem exists_append_of_forall₂ {α β : Type} {r : α → β → Prop} {front rest : List α}
    {images : List β} (related : List.Forall₂ r (front ++ rest) images) :
    ∃ first last, List.Forall₂ r rest last ∧ images = first ++ last := by
  induction front generalizing images with
  | nil => exact ⟨[], images, related, rfl⟩
  | cons item front ih =>
      cases related with
      | cons _ related =>
          obtain ⟨first, last, later, rfl⟩ := ih related
          exact ⟨_ :: first, last, later, rfl⟩

/-! ## Records -/

/-- The members of a record are scalars. -/
theorem Schema.exists_scalar_of_recordOfJson {schema : Schema} {members : List (String × Json)}
    (names : (members.map Prod.fst).Nodup) {r : Record}
    (read : schema.recordOfJson (.object members) = .ok r) {name : String} {value : Json}
    (member : (name, value) ∈ members) : ∃ s : Scalar, value = s.json := by
  obtain ⟨rfl, conforms⟩ := recordOfJson_conforms read
  rcases r.schema.recordOfJson_object members with ⟨known, own⟩ | ⟨_, _, _, failed⟩
  · obtain ⟨scalars, all, same⟩ := map_eq_ok.1 (own.symm.trans read)
    obtain rfl : scalars = r.values := congrArg Record.values same
    have declared : name ∈ r.fields.map Prod.fst :=
      Record.names_fields (Record.length_of_conforms conforms) ▸
        known name (List.mem_map_of_mem member)
    obtain ⟨⟨_, s⟩, within, rfl⟩ := List.mem_map.1 declared
    have found := lookup_of_scalarsOfMembers all within
    rw [(lookup_eq_some_iff names).2 member] at found
    exact ⟨s, Option.some.inj found⟩
  · cases failed.symm.trans read

theorem Scalar.not_object_within_json {members : List (String × Json)} {s : Scalar} :
    ¬(Json.object members).Within s.json := by
  intro within
  cases s <;> cases within

theorem Json.Plain.names_nodup {json : Json} (plain : json.Plain) {members : List (String × Json)}
    (within : (Json.object members).Within json) : (members.map Prod.fst).Nodup := by
  induction within with
  | self => exact plain.of_object.1
  | item member _ ih => exact ih (plain.of_array _ member)
  | member member _ ih => exact ih (plain.of_object.2 _ _ member)

namespace Output

variable {elementType : ElementType}

theorem forall₂_itemsOfJson {items : List Json} {decoded : List Output}
    (read : itemsOfJson elementType items = .ok decoded) :
    List.Forall₂ (fun item part => ofJson elementType item = .ok part) items decoded := by
  induction items generalizing decoded with
  | nil =>
      cases read
      exact .nil
  | cons item rest ih =>
      obtain ⟨part, first, read⟩ := bind_eq_ok.1 read
      obtain ⟨others, later, same⟩ := bind_eq_ok.1 read
      cases same
      exact .cons first (ih later)

section Object

variable {members : List (String × Json)} {decoded : List (Key × Output)}
  (read : entriesOfJson elementType members = .ok decoded)
include read

/-- Of the members whose names are read as one key the last is kept. -/
theorem lookup_decoded_of_last {front behind : List (String × Json)} {name : String} {value : Json}
    (split : members = front ++ (name, value) :: behind)
    (last : ∀ other ∈ behind.map Prod.fst, Key.read other ≠ Key.read name) :
    ∃ part, ofJson elementType value = .ok part ∧
      (entriesOf decoded).lookup (Key.read name) = some part := by
  have related := forall₂_entriesOfJson read
  rw [split] at related
  obtain ⟨first, rest, parts, rfl⟩ := exists_append_of_forall₂ related
  cases parts with
  | @cons _ entry _ others here later =>
      obtain ⟨key, part⟩ := entry
      obtain ⟨same, found⟩ := here
      cases same
      have keys : others.map Prod.fst = behind.map fun member => Key.read member.1 :=
        map_eq_of_forall₂ later fun _ _ both => both.1
      refine ⟨part, found, ?_⟩
      rw [lookup_entriesOf]
      refine lookup_reverse_of_last part fun within => ?_
      rw [keys] at within
      obtain ⟨member, among, same⟩ := List.mem_map.1 within
      exact last member.1 (List.mem_map_of_mem among) same

theorem keys_decoded : decoded.map Prod.fst = (members.map Prod.fst).map Key.read := by
  rw [keys_entriesOfJson read, List.map_map]
  rfl

theorem length_decoded_iff (names : (members.map Prod.fst).Nodup) :
    (entriesOf decoded).length = members.length ↔ SpelledApart members := by
  rw [(forall₂_entriesOfJson read).length_eq, length_entriesOf_iff, keys_decoded read,
    nodup_read_iff names]

end Object

/-- Objects inside what is decoded are decoded, and where no names of the maps spell one integer
nothing that is decoded is left out. -/
theorem exists_decoded_within {json : Json} (plain : json.Plain) {output : Output}
    (read : ofJson elementType json = .ok output) {members : List (String × Json)}
    (within : (Json.object members).Within json) :
    ∃ part, ofJson elementType (.object members) = .ok part ∧
      ((∀ others, (Json.object others).Within json → elementType.TakesForMap others →
        SpelledApart others) → part.Within output) := by
  induction within generalizing output with
  | self => exact ⟨output, read, fun _ => .self⟩
  | item member within ih =>
      obtain ⟨decoded, parts, rfl⟩ := map_eq_ok.1 read
      obtain ⟨own, among, found⟩ := exists_image_of_forall₂ (forall₂_itemsOfJson parts) _ member
      obtain ⟨part, inner, stays⟩ := ih (plain.of_array _ member) found
      exact ⟨part, inner, fun apart =>
        .item among (stays fun others inside => apart others (.item member inside))⟩
  | member member within ih =>
      rcases ofJson_object read with ⟨schema, r, -, -, made, rfl⟩ | ⟨map, decoded, parts, rfl⟩
      · obtain ⟨s, rfl⟩ := Schema.exists_scalar_of_recordOfJson plain.of_object.1 made member
        exact absurd within Scalar.not_object_within_json
      · obtain ⟨entry, among, same, found⟩ :=
          exists_image_of_forall₂ (forall₂_entriesOfJson parts) _ member
        obtain ⟨part, inner, stays⟩ := ih (plain.of_object.2 _ _ member) found
        refine ⟨part, inner, fun apart => ?_⟩
        have keys := (nodup_read_iff plain.of_object.1).2 (apart _ .self map)
        rw [← keys_decoded parts] at keys
        exact .entry (mem_entriesOf_of_nodup keys among)
          (stays fun others inside => apart others (.member member inside))

/-- What becomes of an object that is taken for a map, at any depth of what is decoded. The map has
as many entries as the object has members exactly if no two names spell the same integer of 64 bits,
and of the members that are read as one key the last is kept. -/
theorem decodesMembers_iff {json : Json} (plain : json.Plain) {output : Output}
    (read : ofJson elementType json = .ok output) {members : List (String × Json)}
    (within : (Json.object members).Within json) (isMap : elementType.TakesForMap members) :
    ∃ entries, ofJson elementType (.object members) = .ok (.map entries) ∧
      (entries.length = members.length ↔ SpelledApart members) ∧
      (∀ front name value behind, members = front ++ (name, value) :: behind →
        (∀ other ∈ behind.map Prod.fst, Key.read other ≠ Key.read name) →
        ∃ part, ofJson elementType value = .ok part ∧
          entries.lookup (Key.read name) = some part) ∧
      ((∀ others, (Json.object others).Within json → elementType.TakesForMap others →
        SpelledApart others) → (map entries).Within output) := by
  obtain ⟨part, inner, stays⟩ := exists_decoded_within plain read within
  rcases ofJson_object inner with ⟨schema, r, found, names, -⟩ | ⟨-, decoded, parts, rfl⟩
  · exact absurd (names.symm.trans (isMap schema found)) (by decide)
  · refine ⟨entriesOf decoded, inner, length_decoded_iff parts (plain.names_nodup within), ?_, stays⟩
    exact fun front name value behind split last => lookup_decoded_of_last parts split last

/-- Names that are read as keys of all three kinds. -/
theorem decodesMembers_iff_kinds :
    let members : List (String × Json) := [("1", .string "a"), ("true", .string "b"),
      ("one", .string "c")]
    let json : Json := .array [.object members]
    ∃ output, (json.Plain ∧ ofJson .number json = .ok output ∧
        (Json.object members).Within json ∧ ElementType.number.TakesForMap members) ∧
      ∃ entries, (map entries).Within output ∧ entries.length = 3 ∧
        entries.lookup (.boolean true) = some (.text "b") := by
  intro members json
  have texts : ∀ name value, (name, value) ∈ members → ∃ s, value = .string s := by
    intro name value member
    simp only [members, List.mem_cons, List.not_mem_nil, or_false, Prod.mk.injEq] at member
    rcases member with ⟨-, rfl⟩ | ⟨-, rfl⟩ | ⟨-, rfl⟩ <;> exact ⟨_, rfl⟩
  have plainMembers : (Json.object members).Plain := by
    refine .object (by decide) fun name value member => ?_
    obtain ⟨s, rfl⟩ := texts name value member
    exact .string s
  have plain : json.Plain := .array (List.forall_mem_singleton.2 plainMembers)
  have within : (Json.object members).Within json := .item (.head _) .self
  have apart : SpelledApart members :=
    (nodup_read_iff plainMembers.of_object.1).1 (by decide)
  have read : ofJson .number json = .ok (.list [.map [(.boolean true, .text "b"),
      (.integer 1, .text "a"), (.text "one", .text "c")]]) := by
    rfl
  have isMap : ElementType.number.TakesForMap members := nofun
  obtain ⟨entries, -, length, last, stays⟩ := decodesMembers_iff plain read within isMap
  obtain ⟨part, found, entry⟩ := last [("1", .string "a")] "true" (.string "b")
    [("one", .string "c")] rfl (by decide)
  cases found
  refine ⟨_, ⟨plain, read, within, isMap⟩, entries, stays fun others inside _ => ?_, length.2 apart,
    entry⟩
  change (Json.object others).Within (.array [.object members]) at inside
  cases inside with
  | item member inside =>
      cases List.mem_singleton.1 member
      cases inside with
      | self => exact apart
      | member member inside =>
          obtain ⟨s, rfl⟩ := texts _ _ member
          cases inside

/-- One spelled in two ways is one entry. -/
theorem decodesMembers_lost :
    let members : List (String × Json) := [("1", .number (.integer 10)), ("01", .number (.integer 20))]
    (Json.object members).Plain ∧
      ∃ entries, ofJson .number (.object members) = .ok (.map entries) ∧ members.length = 2 ∧
        entries.length = 1 := by
  intro members
  refine ⟨.object (by decide) fun name value member => ?_, [(.integer 1, .number (.integer 20))],
    by rfl, rfl, rfl⟩
  simp only [members, List.mem_cons, List.not_mem_nil, or_false, Prod.mk.injEq] at member
  rcases member with ⟨-, rfl⟩ | ⟨-, rfl⟩ <;> exact .number trivial

end Output

end Pipeline
