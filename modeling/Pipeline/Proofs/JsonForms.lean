import Pipeline.Json.Raw
import Pipeline.Proofs.Lookup
import Pipeline.Proofs.Overflow

/-! What JSON values amount to: the order of members and the kind of a number do not matter. In what
is read from a text no name is repeated in an object and all numbers are finite. -/

set_option autoImplicit false

namespace Pipeline

namespace Json

/-- A JSON value up to the order of members, its numbers being the rationals that they denote. -/
inductive Form where
  | null
  | boolean (value : Bool)
  | number (value : ℚ)
  | string (value : String)
  | array (items : List Form)
  | object (member? : String → Option Form)

mutual

/-- The form of a value. A number that is not finite is written as null. -/
def form : Json → Form
  | null => .null
  | boolean b => .boolean b
  | number (.integer n) => .number n.toInt
  | number (.float x) => if x.isFinite then .number x.toRat else .null
  | string s => .string s
  | array items => .array (formItems items)
  | object members => .object fun name => (formMembers members).lookup name
termination_by structural json => json

def formItems : List Json → List Form
  | [] => []
  | item :: rest => form item :: formItems rest
termination_by structural items => items

def formMembers : List (String × Json) → List (String × Form)
  | [] => []
  | (name, value) :: rest => (name, form value) :: formMembers rest
termination_by structural members => members

end

theorem formItems_eq (items : List Json) : formItems items = items.map form := by
  induction items with
  | nil => rfl
  | cons item rest ih => rw [formItems, ih, List.map_cons]

theorem formMembers_eq (members : List (String × Json)) :
    formMembers members = members.map fun (name, value) => (name, value.form) := by
  induction members with
  | nil => rfl
  | cons member rest ih => rw [formMembers, ih, List.map_cons]

theorem form_array (items : List Json) : (array items).form = .array (items.map form) := by
  rw [form, formItems_eq]

theorem form_object (members : List (String × Json)) :
    (object members).form = .object fun name => (members.lookup name).map form := by
  rw [form, formMembers_eq]
  simp only [lookup_map]

theorem form_number {n : Number} (finite : n.IsFinite) : (number n).form = .number n.toRat := by
  cases n with
  | integer n => rfl
  | float x => exact if_pos finite

theorem form_of_number {n : Number} {form : Form} (same : (number n).form = form) :
    form = .null ∨ ∃ q, form = .number q := by
  subst same
  cases n with
  | integer n => exact .inr ⟨_, rfl⟩
  | float x =>
      rw [Json.form]
      split
      · exact .inr ⟨_, rfl⟩
      · exact .inl rfl

/-- A value with a number for its form is such a number, and so it is finite. -/
theorem eq_number_of_form {json : Json} {q : ℚ} (same : json.form = .number q) :
    ∃ n : Number, json = .number n ∧ n.IsFinite ∧ n.toRat = q := by
  cases json with
  | number n =>
      cases n with
      | integer n =>
          cases same
          exact ⟨_, rfl, trivial, rfl⟩
      | float x =>
          rw [form] at same
          split at same
          · rename_i finite
            cases same
            exact ⟨_, rfl, finite, rfl⟩
          · cases same
  | null | boolean _ | string _ | array _ | object _ => cases same

theorem eq_string_of_form {json : Json} {s : String} (same : json.form = .string s) :
    json = .string s := by
  cases json with
  | string t => rw [Form.string.inj same]
  | number n => rcases form_of_number same with none | ⟨q, none⟩ <;> cases none
  | null | boolean _ | array _ | object _ => cases same

theorem eq_array_of_form {json : Json} {forms : List Form} (same : json.form = .array forms) :
    ∃ items, json = .array items ∧ items.map form = forms := by
  cases json with
  | array items =>
      rw [form_array] at same
      exact ⟨items, rfl, Form.array.inj same⟩
  | number n => rcases form_of_number same with none | ⟨q, none⟩ <;> cases none
  | null | boolean _ | string _ | object _ => cases same

theorem eq_object_of_form {json : Json} {member? : String → Option Form}
    (same : json.form = .object member?) :
    ∃ members, json = .object members ∧ ∀ name, (members.lookup name).map form = member? name := by
  cases json with
  | object members =>
      rw [form_object] at same
      exact ⟨members, rfl, congrFun (Form.object.inj same)⟩
  | number n => rcases form_of_number same with none | ⟨q, none⟩ <;> cases none
  | null | boolean _ | string _ | array _ => cases same

/-! ## Repeated names -/

theorem mem_names_putMember {name other : String} {value : Json} {members : List (String × Json)} :
    other ∈ (putMember name value members).map Prod.fst ↔
      other = name ∨ other ∈ members.map Prod.fst := by
  fun_induction putMember name value members with
  | case1 => simp
  | case2 old rest => simp
  | case3 found old rest _ ih =>
      simp only [List.map_cons, List.mem_cons, ih]
      exact or_left_comm

theorem mem_putMember {name : String} {value : Json} {members : List (String × Json)}
    {entry : String × Json} (member : entry ∈ putMember name value members) :
    entry = (name, value) ∨ entry ∈ members := by
  fun_induction putMember name value members with
  | case1 => exact .inl (List.mem_singleton.1 member)
  | case2 old rest =>
      rcases List.mem_cons.1 member with same | behind
      · exact .inl same
      · exact .inr (.tail _ behind)
  | case3 found old rest _ ih =>
      rcases List.mem_cons.1 member with same | behind
      · exact .inr (same ▸ .head _)
      · exact (ih behind).imp_right (.tail _)

theorem putMember_nodup {name : String} {value : Json} {members : List (String × Json)}
    (distinct : (members.map Prod.fst).Nodup) :
    ((putMember name value members).map Prod.fst).Nodup := by
  fun_induction putMember name value members with
  | case1 => simp
  | case2 old rest => exact distinct
  | case3 found old rest other ih =>
      obtain ⟨new, rest⟩ := List.nodup_cons.1 distinct
      refine List.nodup_cons.2 ⟨fun within => ?_, ih rest⟩
      exact (mem_names_putMember.1 within).elim other new

theorem putMember_of_not_mem {name : String} {value : Json} {members : List (String × Json)}
    (new : name ∉ members.map Prod.fst) :
    putMember name value members = members ++ [(name, value)] := by
  fun_induction putMember name value members with
  | case1 => rfl
  | case2 old rest => exact absurd (.head _) new
  | case3 found old rest _ ih => rw [ih fun within => new (.tail _ within), List.cons_append]

private theorem foldl_putMember (members before : List (String × Json)) :
    let after := members.foldl (fun folded (name, value) => putMember name value folded) before
    (∀ entry ∈ after, entry ∈ before ++ members) ∧
      ((before.map Prod.fst).Nodup → (after.map Prod.fst).Nodup) ∧
      (((before ++ members).map Prod.fst).Nodup → after = before ++ members) := by
  induction members generalizing before with
  | nil => simp
  | cons member rest ih =>
      obtain ⟨first, value⟩ := member
      obtain ⟨entries, nodup, same⟩ := ih (putMember first value before)
      refine ⟨fun entry within => ?_, fun distinct => ?_, fun distinct => ?_⟩
      · have found := entries entry within
        rw [List.mem_append] at found ⊢
        rcases found with put | later
        · exact (mem_putMember put).elim (fun same => .inr (same ▸ .head _)) .inl
        · exact .inr (.tail _ later)
      · exact nodup (putMember_nodup distinct)
      · have new : first ∉ before.map Prod.fst := by
          rw [List.map_append, List.map_cons] at distinct
          exact fun within => (List.nodup_append.1 distinct).2.2 _ within _ (.head _) rfl
        rw [putMember_of_not_mem new, List.append_assoc, List.singleton_append] at same
        change List.foldl _ (putMember first value before) rest = _
        rw [putMember_of_not_mem new]
        exact same distinct

theorem mem_of_mem_foldMembers {members : List (String × Json)} {entry : String × Json}
    (member : entry ∈ foldMembers members) : entry ∈ members :=
  (foldl_putMember members []).1 entry member

theorem foldMembers_nodup (members : List (String × Json)) :
    ((foldMembers members).map Prod.fst).Nodup :=
  (foldl_putMember members []).2.1 .nil

theorem foldMembers_of_nodup {members : List (String × Json)}
    (distinct : (members.map Prod.fst).Nodup) : foldMembers members = members :=
  (foldl_putMember members []).2.2 distinct

theorem foldedItems_eq (items : List Json) : foldedItems items = items.map folded := by
  induction items with
  | nil => rfl
  | cons item rest ih => rw [foldedItems, ih, List.map_cons]

theorem foldedMembers_eq (members : List (String × Json)) :
    foldedMembers members = members.map fun (name, value) => (name, value.folded) := by
  induction members with
  | nil => rfl
  | cons member rest ih => rw [foldedMembers, ih, List.map_cons]

/-! ## What is read -/

/-- No name is repeated in an object, and all numbers are finite. -/
inductive Plain : Json → Prop where
  | null : Plain null
  | boolean (b : Bool) : Plain (boolean b)
  | number {n : Number} : n.IsFinite → Plain (number n)
  | string (s : String) : Plain (string s)
  | array {items : List Json} : (∀ item ∈ items, Plain item) → Plain (array items)
  | object {members : List (String × Json)} : (members.map Prod.fst).Nodup →
      (∀ name value, (name, value) ∈ members → Plain value) → Plain (object members)

theorem Plain.of_number {n : Number} (plain : (Json.number n).Plain) : n.IsFinite := by
  cases plain
  assumption

theorem Plain.of_array {items : List Json} (plain : (Json.array items).Plain) :
    ∀ item ∈ items, item.Plain := by
  cases plain
  assumption

theorem Plain.of_object {members : List (String × Json)} (plain : (Json.object members).Plain) :
    (members.map Prod.fst).Nodup ∧ ∀ name value, (name, value) ∈ members → value.Plain := by
  cases plain
  constructor <;> assumption

end Json

namespace Json

open NumberLiteral in
/-- A double that has been scaled is finite, as the quotient or product at the last step is. -/
theorem isFinite_of_scale? {steps : Nat} {x y : Double} {exponent : Int}
    (start : steps = 0 → x.isFinite = true) (scaled : scale? steps x exponent = some y) :
    y.isFinite = true := by
  induction steps generalizing x exponent with
  | zero =>
      cases scaled
      exact start rfl
  | succ steps ih =>
      rw [scale?] at scaled
      split at scaled
      · dsimp only at scaled
        split at scaled
        · exact Double.isFinite_of_mul? scaled
        · exact Double.isFinite_of_div? scaled
      · split at scaled
        · rename_i zero
          cases scaled
          exact Double.isFinite_of_isZero zero
        · split at scaled
          · cases scaled
          · obtain ⟨quotient, divided, scaled⟩ := Option.bind_eq_some_iff.1 scaled
            exact ih (fun _ => Double.isFinite_of_div? divided) scaled

theorem isFinite_of_literal {literal : NumberLiteral} {n : Number}
    (found : literal.value? = some n) : n.IsFinite := by
  unfold NumberLiteral.value? at found
  dsimp only at found
  split at found
  · cases found
    trivial
  · obtain ⟨x, double, rfl⟩ := Option.map_eq_some_iff.1 found
    obtain ⟨size, scaled, same⟩ := Option.bind_eq_some_iff.1 double
    have finite : size.isFinite = true := isFinite_of_scale? (by simp) scaled
    cases same
    change (if literal.negative then size.neg else size).isFinite = true
    split
    · rw [Double.isFinite_neg, finite]
    · exact finite

namespace Raw

@[elab_as_elim]
theorem induct {motive : Raw → Prop} (null : motive .null) (boolean : ∀ b, motive (.boolean b))
    (number : ∀ literal, motive (.number literal)) (string : ∀ pieces, motive (.string pieces))
    (array : ∀ items, (∀ item ∈ items, motive item) → motive (.array items))
    (object : ∀ members, (∀ pieces raw, (pieces, raw) ∈ members → motive raw) →
      motive (.object members)) (raw : Raw) : motive raw :=
  @Raw.rec motive (fun items => ∀ item ∈ items, motive item)
    (fun members => ∀ pieces raw, (pieces, raw) ∈ members → motive raw)
    (fun member => motive member.2) null boolean number string array object
    (List.forall_mem_nil _) (fun _ _ first rest => List.forall_mem_cons.2 ⟨first, rest⟩)
    (fun _ _ member => nomatch member)
    (fun _ _ first rest pieces raw member => by
      rcases List.mem_cons.1 member with rfl | behind
      · exact first
      · exact rest pieces raw behind)
    (fun _ _ raw => raw) raw

theorem itemValues?_plain {room : Nat} {items : List Raw} {values : List Json}
    (parts : ∀ item ∈ items, ∀ value, item.value? room = some value → value.Plain)
    (read : itemValues? room items = some values) : ∀ value ∈ values, value.Plain := by
  induction items generalizing values with
  | nil =>
      cases read
      exact List.forall_mem_nil _
  | cons item rest ih =>
      rw [List.forall_mem_cons] at parts
      obtain ⟨value, first, read⟩ := Option.bind_eq_some_iff.1 read
      obtain ⟨others, later, same⟩ := Option.bind_eq_some_iff.1 read
      cases same
      exact List.forall_mem_cons.2 ⟨parts.1 value first, ih parts.2 later⟩

theorem memberValues?_plain {room : Nat} {members : List (List Piece × Raw)}
    {values : List (String × Json)}
    (parts : ∀ pieces raw, (pieces, raw) ∈ members → ∀ value, raw.value? room = some value →
      value.Plain)
    (read : memberValues? room members = some values) :
    ∀ name value, (name, value) ∈ values → value.Plain := by
  induction members generalizing values with
  | nil =>
      cases read
      exact fun _ _ member => nomatch member
  | cons entry rest ih =>
      obtain ⟨name, _, read⟩ := Option.bind_eq_some_iff.1 read
      obtain ⟨value, first, read⟩ := Option.bind_eq_some_iff.1 read
      obtain ⟨others, later, same⟩ := Option.bind_eq_some_iff.1 read
      cases same
      intro other found member
      rcases List.mem_cons.1 member with same | behind
      · cases same
        exact parts entry.1 entry.2 (.head _) value first
      · have partsRest := fun pieces raw member => parts pieces raw (.tail _ member)
        exact ih partsRest later other found behind

theorem value?_plain {raw : Raw} {room : Nat} {json : Json} (read : raw.value? room = some json) :
    json.Plain := by
  induction raw using Raw.induct generalizing room json with
  | null =>
      cases read
      exact .null
  | boolean b =>
      cases read
      exact .boolean b
  | number literal =>
      obtain ⟨n, found, rfl⟩ := Option.map_eq_some_iff.1 read
      exact .number (isFinite_of_literal found)
  | string pieces =>
      obtain ⟨s, _, rfl⟩ := Option.map_eq_some_iff.1 read
      exact .string s
  | array items ih =>
      rw [value?] at read
      split at read
      · cases read
      · obtain ⟨values, found, rfl⟩ := Option.map_eq_some_iff.1 read
        exact .array (itemValues?_plain (fun item member _ => ih item member) found)
  | object members ih =>
      rw [value?] at read
      split at read
      · cases read
      · obtain ⟨values, found, rfl⟩ := Option.map_eq_some_iff.1 read
        have plain := memberValues?_plain (fun pieces raw member _ => ih pieces raw member) found
        exact .object (foldMembers_nodup values) fun name value member =>
          plain name value (mem_of_mem_foldMembers member)

end Raw

end Json

end Pipeline
