import Pipeline.Proofs.FiniteResults
import Pipeline.Proofs.LastEntries

/-! Maps as JSON objects. An object has a member for every entry of the map exactly if no key but a
text is written as a text that is a key itself; where one is, the entry of the text is left. -/

set_option autoImplicit false

namespace Pipeline

namespace Key

/-- Only a text is written like another key. -/
theorem written_eq_iff {a b : Key} :
    a.written = b.written ↔ a = b ∨ a = .text b.written ∨ b = .text a.written := by
  refine ⟨fun same => ?_, ?_⟩
  · cases a with
    | text s => exact .inr (.inl (congrArg text same))
    | boolean _ | integer _ =>
        cases b with
        | text t => exact .inr (.inr (congrArg text same.symm))
        | boolean _ | integer _ =>
            have read := congrArg Key.read same
            rw [read_written, read_written] at read
            · exact .inl read
            all_goals trivial
  · rintro (rfl | rfl | rfl) <;> rfl

/-- Texts are behind all other keys. -/
theorem eq_text_of_order_lt {s : String} {other : Key} (less : (text s).order other = .lt) :
    other = .text other.written := by
  cases other with
  | text t => rfl
  | boolean _ | integer _ => cases less

end Key

/-- No key but a text is written as a text that is a key as well. -/
def KeysApart {α : Type} (entries : List (Key × α)) : Prop :=
  ∀ key ∈ entries.map Prod.fst, .text key.written ∈ entries.map Prod.fst → key = .text key.written

instance {α : Type} (entries : List (Key × α)) : Decidable (KeysApart entries) :=
  inferInstanceAs (Decidable (∀ key ∈ entries.map Prod.fst,
    .text key.written ∈ entries.map Prod.fst → key = .text key.written))

section Written

variable {α β : Type} {entries : List (Key × α)}

theorem names_written (image : α → β) :
    (entries.map fun (key, value) => (key.written, image value)).map Prod.fst =
      (entries.map Prod.fst).map Key.written := by
  simp [List.map_map, Function.comp_def]

variable (ordered : InKeyOrder entries)
include ordered

theorem nodup_written_iff : ((entries.map Prod.fst).map Key.written).Nodup ↔ KeysApart entries := by
  rw [List.nodup_map_iff_inj_on ordered.nodup]
  constructor
  · intro injective key within twin
    exact injective key within _ twin rfl
  · intro apart key within other among same
    rcases Key.written_eq_iff.1 same with equal | text | text
    · exact equal
    · rw [text] at within
      exact text.trans (apart other among within).symm
    · rw [text] at among
      exact (apart key within among).trans text.symm

/-- Behind an entry no key is written like its own, unless that is a text and the own key is
none. -/
theorem not_mem_written_behind {front behind : List (Key × α)} {key : Key} {value : α}
    (split : entries = front ++ (key, value) :: behind)
    (own : .text key.written ∈ entries.map Prod.fst → key = .text key.written) :
    key.written ∉ (behind.map Prod.fst).map Key.written := by
  subst split
  intro twice
  obtain ⟨other, among, same⟩ := List.mem_map.1 twice
  have less : key.order other = .lt :=
    InKeyOrder.lt_of_mem (List.pairwise_append.1 ordered).2.1 among
  have within : other ∈ (front ++ (key, value) :: behind).map Prod.fst := by
    rw [List.map_append, List.map_cons]
    exact List.mem_append_right _ (.tail _ among)
  refine Key.ne_of_order_lt less ?_
  rcases Key.written_eq_iff.1 same with equal | text | text
  · exact equal.symm
  · rw [text] at within
    exact (own within).trans text.symm
  · rw [text] at less
    exact text.trans (Key.eq_text_of_order_lt less).symm

end Written

namespace Output

/-- Maps are in key order. -/
def KeyOrdered : Output → Prop
  | map entries => InKeyOrder entries
  | number _ | text _ | list _ | record _ => True

/-- The keys of a map are written differently. -/
def WritesApart : Output → Prop
  | map entries => KeysApart entries
  | number _ | text _ | list _ | record _ => True

section Members

variable {entries : List (Key × Output)} (ordered : InKeyOrder entries)
include ordered

theorem json_map_of_apart (apart : KeysApart entries) : (map entries).json =
    .object (entries.map fun (key, value) => (key.written, value.json)) := by
  rw [json_map, Json.foldMembers_of_nodup]
  rw [names_written]
  exact (nodup_written_iff ordered).2 apart

theorem lookup_rendered {key : Key} {value : Output} (member : (key, value) ∈ entries)
    (own : .text key.written ∈ entries.map Prod.fst → key = .text key.written) :
    (Json.foldMembers (entries.map fun (key, value) => (key.written, value.json))).lookup
      key.written = some value.json := by
  obtain ⟨front, behind, split⟩ := List.append_of_mem member
  have last := not_mem_written_behind ordered split own
  rw [← names_written json] at last
  rw [Json.lookup_foldMembers, split, List.map_append, List.map_cons]
  exact lookup_reverse_of_last _ last

end Members

/-- Where the keys of all maps are written differently, nothing inside an output is left out. -/
theorem json_within {output : Output} (ordered : output.Everywhere KeyOrdered)
    (apart : output.Everywhere WritesApart) {inner : Output} (within : inner.Within output) :
    inner.json.Within output.json := by
  induction within with
  | self => exact .self
  | item member within ih =>
      rw [json_list]
      exact .item (List.mem_map_of_mem member)
        (ih ((everywhere_list_iff.1 ordered).2 _ member) ((everywhere_list_iff.1 apart).2 _ member))
  | entry member within ih =>
      rw [json_map_of_apart ordered.self apart.self]
      exact .member
        (List.mem_map_of_mem (f := fun (entry : Key × Output) => (entry.1.written, entry.2.json))
          member)
        (ih ((everywhere_map_iff.1 ordered).2 _ _ member)
          ((everywhere_map_iff.1 apart).2 _ _ member))

/-- What becomes of a map inside an output. Its object has the entries as members, each under its
key, exactly if no key but a text is written as a text that is a key as well; else it has fewer, and
the entries of the texts are left. Written with all members, it has a name twice instead. -/
theorem rendersEntries_iff {output : Output} (ordered : output.Everywhere KeyOrdered)
    {entries : List (Key × Output)} (within : (map entries).Within output) :
    (∃ members, (map entries).json = .object members ∧ (members.map Prod.fst).Nodup ∧
      (members.length = entries.length ↔ KeysApart entries) ∧
      ∀ key value, (key, value) ∈ entries →
        (.text key.written ∈ entries.map Prod.fst → key = .text key.written) →
        members.lookup key.written = some value.json) ∧
    (∃ members, (map entries).entireJson = .object members ∧ members.length = entries.length ∧
      ((members.map Prod.fst).Nodup ↔ KeysApart entries)) ∧
    (output.Everywhere WritesApart → (map entries).json.Within output.json) := by
  have own : InKeyOrder entries := ordered _ within
  refine ⟨⟨_, json_map entries, Json.foldMembers_nodup _, ?_, fun key value member twin =>
    lookup_rendered own member twin⟩, ⟨_, rfl, ?_, ?_⟩, fun apart => json_within ordered apart within⟩
  · rw [← nodup_written_iff own, ← names_written json, ← Json.length_foldMembers_iff]
    simp
  · rw [entriesJson_eq, List.length_map]
  · rw [entriesJson_eq, names_written, nodup_written_iff own]

/-- Keys of all three kinds. -/
theorem rendersEntries_iff_kinds :
    let entries : List (Key × Output) := [(.boolean true, .text "a"), (.integer 1, .text "b"),
      (.text "one", .text "c")]
    let output : Output := .list [.map entries]
    output.Everywhere KeyOrdered ∧ (map entries).Within output ∧
      ∃ members, (map entries).json = .object members ∧ members.length = 3 ∧
        members.lookup "true" = some (.string "a") ∧ members.lookup "1" = some (.string "b") ∧
        members.lookup "one" = some (.string "c") := by
  intro entries output
  have within : (map entries).Within output := .item (.head _) .self
  have own : InKeyOrder entries := by
    unfold InKeyOrder
    decide
  have ordered : output.Everywhere KeyOrdered := by
    refine everywhere_list_iff.2 ⟨trivial, List.forall_mem_singleton.2 ?_⟩
    refine everywhere_map_iff.2 ⟨own, fun key part member => ?_⟩
    simp only [entries, List.mem_cons, List.not_mem_nil, or_false, Prod.mk.injEq] at member
    rcases member with ⟨-, rfl⟩ | ⟨-, rfl⟩ | ⟨-, rfl⟩ <;> exact everywhere_text_iff.2 trivial
  have apart : KeysApart entries := by decide
  obtain ⟨⟨members, same, -, length, values⟩, -, -⟩ := rendersEntries_iff ordered within
  refine ⟨ordered, within, members, same, length.2 apart, ?_, ?_, ?_⟩
  · exact values (.boolean true) (.text "a") (by simp [entries]) (apart _ (by simp [entries]))
  · exact values (.integer 1) (.text "b") (by simp [entries]) (apart _ (by simp [entries]))
  · exact values (.text "one") (.text "c") (by simp [entries]) (apart _ (by simp [entries]))

/-- One is grouped under an integer and under its text, and one of the groups is not shown. -/
theorem rendersEntries_lost :
    let script := ".groupBy(x -> x > 1 ? 1 : \"1\")"
    ∃ chain value entries members, Chain.parse script = .ok chain ∧
      chain.run 10 .never [.integer 1, .integer 2] = .ok value ∧
      Output.ofValue value = .ok (.map entries) ∧ (map entries).json = .object members ∧
      entries.length = 2 ∧ members.length = 1 := by
  intro script
  have lost : ((Chain.parse script).toOption.any fun chain =>
      (chain.run 10 .never [.integer 1, .integer 2]).toOption.any fun value =>
        (Output.ofValue value).toOption.any fun
          | .map entries =>
              let members := entries.map fun (key, part) => (key.written, part.json)
              entries.length == 2 && (Json.foldMembers members).length == 1
          | .number _ | .text _ | .list _ | .record _ => false) = true := by
    decide +kernel
  obtain ⟨chain, accepted, lost⟩ := exists_of_any lost
  obtain ⟨value, ran, lost⟩ := exists_of_any lost
  obtain ⟨output, made, lost⟩ := exists_of_any lost
  split at lost
  · rename_i entries
    rw [Bool.and_eq_true, beq_iff_eq, beq_iff_eq] at lost
    exact ⟨chain, value, entries, _, accepted, ran, made, json_map .., lost⟩
  all_goals cases lost

end Output

end Pipeline
