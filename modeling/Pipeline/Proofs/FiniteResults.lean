import Pipeline.Proofs.BuiltValues
import Pipeline.Proofs.Decoding
import Pipeline.Proofs.Literals

/-! No number in a result is infinite or none at all where there is none such in the input and among
the literals of the script, and then nothing in the result is written as null. -/

set_option autoImplicit false

namespace Pipeline

/-! ## JSON without null -/

namespace Json

/-- The value is the other one or stands somewhere inside it. -/
inductive Within (inner : Json) : Json → Prop where
  | self : Within inner inner
  | item {items : List Json} {part : Json} :
      part ∈ items → Within inner part → Within inner (.array items)
  | member {members : List (String × Json)} {name : String} {part : Json} :
      (name, part) ∈ members → Within inner part → Within inner (.object members)

end Json

namespace Layout

/-- None of the characters that a number is written with is the first of `null`. -/
theorem not_mem_toDigits (n : Nat) : 'n' ∉ Nat.toDigits 10 n := by
  intro member
  exact absurd (isDigit_of_mem_toDigits member) (by decide)

theorem not_mem_positionalText {layout : Layout} {digits : List Char} (none : 'n' ∉ digits)
    (place : Int) : 'n' ∉ layout.positionalText digits place := by
  unfold positionalText
  split
  · simp [none]
  · split
    · split <;> simp [none]
    · have before : 'n' ∉ digits.take place.toNat := fun member =>
        none (List.mem_of_mem_take member)
      have behind : 'n' ∉ digits.drop place.toNat := fun member =>
        none (List.mem_of_mem_drop member)
      simp [before, behind]

theorem not_mem_exponentText {layout : Layout} {digits : List Char} (none : 'n' ∉ digits)
    (exponent : Int) : 'n' ∉ layout.exponentText digits exponent := by
  have sign :
      'n' ∉ (if exponent < 0 then ['-'] else if layout.exponentSign then ['+'] else []) := by
    split
    · simp
    · split <;> simp
  unfold exponentText
  dsimp only
  simp only [List.mem_append, List.mem_cons, not_or]
  refine ⟨⟨?_, by decide, sign⟩, not_mem_toDigits _⟩
  split
  · simpa using none
  · exact none

theorem not_mem_write {layout : Layout} {x : Double} (finite : x.isFinite = true) :
    'n' ∉ (layout.write x).toList := by
  have form : ∀ form : DecimalForm, 'n' ∉ layout.formText form := by
    intro form
    have significant : 'n' ∉
        ((Nat.toDigits 10 form.coefficient).reverse.dropWhile (· == '0')).reverse := by
      intro member
      have digit := (List.dropWhile_sublist _).subset (List.mem_reverse.1 member)
      exact not_mem_toDigits _ (List.mem_reverse.1 digit)
    unfold formText
    dsimp only
    split
    · exact not_mem_positionalText significant _
    · exact not_mem_exponentText significant _
  unfold write
  simp only [Double.isNaN_of_isFinite finite, finite]
  cases x.negative <;> cases x.isZero <;> cases layout.pointZero <;> simp [form]

end Layout

namespace Json

theorem numberText_ne_null {n : Number} (finite : n.IsFinite) : numberText n ≠ "null" := by
  have without : 'n' ∉ (numberText n).toList := by
    cases n with
    | integer n =>
        rw [numberText]
        cases n.toInt with
        | ofNat m =>
            change 'n' ∉ (Nat.repr m).toList
            simp [Nat.repr, Layout.not_mem_toDigits]
        | negSucc m =>
            change 'n' ∉ ("-" ++ Nat.repr (m + 1)).toList
            simp [Nat.repr, Layout.not_mem_toDigits]
    | float x => exact Layout.not_mem_write finite
  intro null
  rw [null] at without
  exact without (by decide)

theorem compact_ne_null {json : Json} (some : json ≠ .null)
    (finite : ∀ n, json = .number n → n.IsFinite) : json.compact ≠ "null" := by
  cases json with
  | null => exact absurd rfl some
  | boolean b => cases b <;> decide
  | number n => exact numberText_ne_null (finite n rfl)
  | string s =>
      intro null
      simpa [compact, stringText] using congrArg String.toList null
  | array items =>
      intro null
      simpa [compact, enclosed] using congrArg String.toList null
  | object members =>
      intro null
      simpa [compact, enclosed] using congrArg String.toList null

end Json

/-! ## Results without infinities -/

/-- No number that stands in the value itself is infinite or none at all. -/
def Value.IsFinite : Value → Prop
  | scalar s => s.IsFinite
  | record r => ∀ s ∈ r.values, s.IsFinite
  | list _ | map _ => True

def Output.IsFinite : Output → Prop
  | number n => n.IsFinite
  | record r => ∀ s ∈ r.values, s.IsFinite
  | text _ | list _ | map _ => True

theorem holdsOfBuilt_finite (cap : Nat) : HoldsOfBuilt cap Value.IsFinite where
  number _ finite := finite
  text _ := trivial
  boolean _ := trivial
  negated x finite := x.isFinite_neg.trans finite
  absolute x finite := x.isFinite_abs.trans finite
  field _ all := all
  list _ _ := trivial
  map _ _ _ := trivial

theorem Output.isFinite_of_value {value : Value} (finite : value.Everywhere Value.IsFinite)
    {output : Output} (made : Output.ofValue value = .ok output) :
    output.Everywhere Output.IsFinite := by
  intro inner within
  obtain ⟨part, among, made⟩ := within.of_value made
  have holds := finite part among
  cases part with
  | scalar s =>
      cases s with
      | number n =>
          cases made
          exact holds
      | text s =>
          cases made
          trivial
      | boolean b => cases made
  | list items =>
      obtain ⟨outputs, _, rfl⟩ := map_eq_ok.1 made
      trivial
  | map entries =>
      obtain ⟨outputs, _, rfl⟩ := map_eq_ok.1 made
      trivial
  | record r =>
      cases made
      exact holds

/-- Nothing in the JSON of an output is null, and its numbers are those of the output. -/
theorem Output.json_finite {output : Output} (finite : output.Everywhere Output.IsFinite) :
    ∀ part : Json, part.Within output.json →
      part ≠ .null ∧ ∀ n, part = .number n → n.IsFinite := by
  induction output using Output.induct with
  | number n =>
      intro part within
      cases within
      exact ⟨Json.noConfusion, fun m same => Json.number.inj same ▸ finite.self⟩
  | text s =>
      intro part within
      cases within
      exact ⟨Json.noConfusion, fun m same => Json.noConfusion same⟩
  | list items ih =>
      rw [json_list]
      intro part within
      cases within with
      | self => exact ⟨Json.noConfusion, fun m same => Json.noConfusion same⟩
      | item member within =>
          obtain ⟨item, among, rfl⟩ := List.mem_map.1 member
          exact ih item among ((everywhere_list_iff.1 finite).2 item among) part within
  | map entries ih =>
      rw [json_map]
      intro part within
      cases within with
      | self => exact ⟨Json.noConfusion, fun m same => Json.noConfusion same⟩
      | member member within =>
          obtain ⟨⟨key, value⟩, among, same⟩ :=
            List.mem_map.1 (Json.mem_of_mem_foldMembers member)
          cases same
          exact ih key value among ((everywhere_map_iff.1 finite).2 key value among) part within
  | record r =>
      rw [json_record_folded]
      intro part within
      cases within with
      | self => exact ⟨Json.noConfusion, fun m same => Json.noConfusion same⟩
      | member member within =>
          obtain ⟨⟨name, s⟩, among, same⟩ := List.mem_map.1 (Json.mem_of_mem_foldMembers member)
          cases same
          have own : s.IsFinite := finite.self s (List.of_mem_zip among).2
          cases s <;> cases within
          · exact ⟨Json.noConfusion, fun m same => Json.number.inj same ▸ own⟩
          · exact ⟨Json.noConfusion, fun m same => Json.noConfusion same⟩
          · exact ⟨Json.noConfusion, fun m same => Json.noConfusion same⟩

/-- Where no literal of a script is infinite, every number in its result is finite and nothing of
that is written as null, provided the same of the input. -/
theorem Chain.run_finite {script : String} {chain : Chain}
    (accepted : Chain.parse script = .ok chain)
    (literals : ∀ entry ∈ (Lexed.ofScript script).tokens, entry.2.isFinite = true)
    {cap : Nat} {token : CancelToken} {input : List Value} {value : Value}
    (inputs : ∀ element ∈ input, element.Everywhere Value.IsFinite)
    (ran : chain.run cap token input = .ok value) :
    value.Everywhere Value.IsFinite ∧ ∀ output, Output.ofValue value = .ok output →
      ∀ part : Json, part.Within output.json → part.compact ≠ "null" := by
  have finite : value.Everywhere Value.IsFinite :=
    chain.run_everywhere (holdsOfBuilt_finite cap) (Chain.parse_literals accepted literals) inputs
      ran
  refine ⟨finite, fun output made part within => ?_⟩
  obtain ⟨some, numbers⟩ := Output.json_finite (Output.isFinite_of_value finite made) part within
  exact Json.compact_ne_null some numbers

/-- A tenth of an integer and of a double. -/
theorem Chain.run_finite_tenths :
    let script := ".map(x -> x * 0.1)"
    let input : List Value := [.integer 3, .float ⟨0x3fe0000000000000⟩]
    ∃ chain value, Chain.parse script = .ok chain ∧ chain.run 10 .never input = .ok value ∧
      value.shown = "[0.3, 0.05]" ∧ value.Everywhere Value.IsFinite ∧
        ∀ output, Output.ofValue value = .ok output →
          ∀ part : Json, part.Within output.json → part.compact ≠ "null" := by
  intro script input
  have shows : ((Chain.parse script).toOption.any fun chain =>
      (Chain.run 10 .never chain input).toOption.any (·.shown == "[0.3, 0.05]")) = true := by
    decide +kernel
  have finite : ∀ entry ∈ (Lexed.ofScript script).tokens, entry.2.isFinite = true := by
    decide +kernel
  obtain ⟨chain, accepted, shows⟩ := exists_of_any shows
  obtain ⟨value, ran, shown⟩ := exists_of_any shows
  refine ⟨chain, value, accepted, ran, beq_iff_eq.1 shown, Chain.run_finite accepted finite ?_ ran⟩
  intro element member
  simp only [input, List.mem_cons, List.not_mem_nil, or_false] at member
  obtain rfl | rfl := member
  · exact Value.everywhere_scalar_iff.2 trivial
  · exact Value.everywhere_scalar_iff.2 (by decide : Double.isFinite _ = true)

/-- The script is given by its characters, as which the kernel reads it much faster. -/
private theorem infinite_of_spelled {script : String}
    (spelled : script.toList = ".map(x -> 1".toList ++ List.replicate 309 '0' ++ ".0)".toList) :
    ((Chain.parse script).toOption.any fun chain =>
      (Chain.run 10 .never chain [.integer 1]).toOption.any fun
        | .list [.float x] => !x.isFinite && (Output.list [.number (.float x)]).shown == "[null]"
        | _ => false) = true := by
  simp only [Chain.parse, Cursor.ofScript, Lexed.ofScript, spelled]
  decide +kernel

/-- A one with as many zeros as no double has is read as an infinity, and that is written as
null. -/
theorem Chain.run_infinite_literal :
    let script := String.ofList (".map(x -> 1".toList ++ List.replicate 309 '0' ++ ".0)".toList)
    (∀ element ∈ [Value.integer 1], element.Everywhere Value.IsFinite) ∧
      ∃ chain x, Chain.parse script = .ok chain ∧
        chain.run 10 .never [.integer 1] = .ok (.list [.float x]) ∧ x.isFinite = false ∧
        (Output.list [.number (.float x)]).shown = "[null]" := by
  refine ⟨List.forall_mem_singleton.2 (Value.everywhere_scalar_iff.2 trivial), ?_⟩
  obtain ⟨chain, accepted, infinite⟩ := exists_of_any (infinite_of_spelled String.toList_ofList)
  obtain ⟨value, ran, infinite⟩ := exists_of_any infinite
  split at infinite
  · rename_i x
    rw [Bool.and_eq_true, Bool.not_eq_true', beq_iff_eq] at infinite
    exact ⟨chain, x, accepted, ran, infinite⟩
  · cases infinite

end Pipeline
