import Pipeline.Proofs.Parts

/-! A value is an output exactly if no boolean stands in it by itself, at any depth; records are let
through whole, with the booleans in their fields. A failure is about the first such boolean in
depth-first order and names the list or map right around it. -/

set_option autoImplicit false

namespace Pipeline

/-- What stands at a place, without the parts below it. -/
inductive Node where
  | number (value : Number)
  | text (value : String)
  | boolean (value : Bool)
  | list (size : Nat)
  | map (keys : List Key)
  | record (value : Record)

namespace Value

/-- The values right inside: the items of a list, or those of a map in the order of its keys. -/
def parts : Value → List Value
  | list items => items
  | map entries => entries.map Prod.snd
  | scalar _ | record _ => []

def node : Value → Node
  | number n => .number n
  | text s => .text s
  | boolean b => .boolean b
  | list items => .list items.length
  | map entries => .map (entries.map Prod.fst)
  | record r => .record r

/-- The value at a place, which is a list of positions from the outside in. -/
def at? (value : Value) : List Nat → Option Value
  | [] => some value
  | position :: place => value.parts[position]?.bind (at? · place)

def container? : Value → Option Container
  | list _ => some .list
  | map _ => some .map
  | scalar _ | record _ => none

/-- What the value at a place stands right inside of. -/
def around? (value : Value) (place : List Nat) : Option Container :=
  if place = [] then none else (value.at? place.dropLast).bind container?

def BooleanFree (value : Value) : Prop :=
  ∀ place b, value.at? place ≠ some (.boolean b)

/-- A boolean stands at the place, and none at any place in front of it. Places in lexicographic
order are in depth-first order. -/
def FirstBoolean (value : Value) (place : List Nat) : Prop :=
  (∃ b, value.at? place = some (.boolean b)) ∧
    ∀ earlier < place, ∀ b, value.at? earlier ≠ some (.boolean b)

end Value

namespace Output

def parts : Output → List Output
  | list items => items
  | map entries => entries.map Prod.snd
  | number _ | text _ | record _ => []

def node : Output → Node
  | number n => .number n
  | text s => .text s
  | list items => .list items.length
  | map entries => .map (entries.map Prod.fst)
  | record r => .record r

def at? (output : Output) : List Nat → Option Output
  | [] => some output
  | position :: place => output.parts[position]?.bind (at? · place)

end Output

/-! ## Places -/

namespace Value

variable {value part : Value} {position : Nat}

theorem at?_cons (found : value.parts[position]? = some part) (place : List Nat) :
    value.at? (position :: place) = part.at? place := by
  simp [at?, found]

theorem not_boolean_of_part (found : value.parts[position]? = some part) (b : Bool) :
    value ≠ .boolean b := by
  intro same
  simp [same, parts] at found

@[elab_as_elim]
theorem induct_parts {motive : Value → Prop}
    (step : ∀ value : Value, (∀ part ∈ value.parts, motive part) → motive value)
    (value : Value) : motive value := by
  induction value using Value.induct with
  | scalar s => exact step _ (by simp [parts])
  | list items ih => exact step _ ih
  | map entries ih =>
      refine step _ fun part member => ?_
      obtain ⟨⟨key, found⟩, among, rfl⟩ := List.mem_map.1 member
      exact ih key found among
  | record r => exact step _ (by simp [parts])

theorem booleanFree_iff :
    value.BooleanFree ↔ (∀ b, value ≠ .boolean b) ∧ ∀ part ∈ value.parts, part.BooleanFree := by
  constructor
  · intro free
    refine ⟨fun b same => free [] b (by simp [at?, same]), fun part member place b found => ?_⟩
    obtain ⟨position, here⟩ := List.mem_iff_getElem?.1 member
    exact free (position :: place) b ((at?_cons here place).trans found)
  · intro ⟨own, inside⟩ place b found
    cases place with
    | nil => exact own b (Option.some.inj found)
    | cons position place =>
        obtain ⟨part, here, found⟩ := Option.bind_eq_some_iff.1 found
        exact inside part (List.mem_of_getElem? here) place b found

theorem firstBoolean_nil_iff : value.FirstBoolean [] ↔ ∃ b, value = .boolean b := by
  simp [FirstBoolean, at?]

/-- A place below a value is reached behind everything in the parts before the one it is in. -/
theorem firstBoolean_cons_iff {place : List Nat} :
    value.FirstBoolean (position :: place) ↔ ∃ part, value.parts[position]? = some part ∧
      part.FirstBoolean place ∧
      ∀ index < position, ∀ other, value.parts[index]? = some other → other.BooleanFree := by
  constructor
  · intro ⟨⟨b, found⟩, first⟩
    obtain ⟨part, here, found⟩ := Option.bind_eq_some_iff.1 found
    refine ⟨part, here, ⟨⟨b, found⟩, fun earlier less c before => ?_⟩,
      fun index smaller other there outer c before => ?_⟩
    · have less : position :: earlier < position :: place := by simpa using less
      exact first _ less c ((at?_cons here earlier).trans before)
    · have less : index :: outer < position :: place := List.cons_lt_cons_iff.2 (.inl smaller)
      exact first _ less c ((at?_cons there outer).trans before)
  · intro ⟨part, here, ⟨⟨b, found⟩, first⟩, free⟩
    refine ⟨⟨b, (at?_cons here place).trans found⟩, fun earlier less c before => ?_⟩
    cases earlier with
    | nil => exact not_boolean_of_part here c (Option.some.inj before)
    | cons index outer =>
        obtain ⟨other, there, before⟩ := Option.bind_eq_some_iff.1 before
        rcases List.cons_lt_cons_iff.1 less with smaller | ⟨rfl, lower⟩
        · exact free index smaller other there outer c before
        · obtain rfl : part = other := Option.some.inj (here.symm.trans there)
          exact first outer lower c before

theorem FirstBoolean.eq_nil {place : List Nat} (first : value.FirstBoolean place)
    (empty : value.parts = []) : place = [] := by
  cases place with
  | nil => rfl
  | cons position place =>
      obtain ⟨part, here, -⟩ := firstBoolean_cons_iff.1 first
      simp [empty] at here

theorem at?_append (outer place : List Nat) :
    value.at? (outer ++ place) = (value.at? outer).bind (at? · place) := by
  induction outer generalizing value with
  | nil => rfl
  | cons position outer ih => simp [at?, ih, Option.bind_assoc]

theorem around?_singleton : value.around? [position] = value.container? := by
  simp [around?, at?]

theorem around?_cons (found : value.parts[position]? = some part) {place : List Nat}
    (below : place ≠ []) : value.around? (position :: place) = part.around? place := by
  simp [around?, below, List.dropLast_cons_of_ne_nil below, at?_cons found]

theorem around?_append_singleton (place : List Nat) (position : Nat) :
    value.around? (place ++ [position]) = (value.at? place).bind container? := by
  simp [around?]

theorem isSome_container? (found : value.parts[position]? = some part) :
    value.container?.isSome = true := by
  cases value with
  | list items | map entries => rfl
  | scalar s | record r => simp [parts] at found

theorem around?_eq_none_iff {place : List Nat} (found : value.at? place = some part) :
    value.around? place = none ↔ place = [] := by
  rcases place.eq_nil_or_concat with rfl | ⟨outer, position, rfl⟩
  · simp [around?]
  · rw [List.concat_eq_append, at?_append] at found
    obtain ⟨whole, here, found⟩ := Option.bind_eq_some_iff.1 found
    have held : whole.container?.isSome = true := by
      obtain ⟨part, there, -⟩ := Option.bind_eq_some_iff.1 found
      exact isSome_container? there
    simp [around?_append_singleton, here, ← Option.isNone_iff_eq_none, held]

end Value

/-! ## Parts in order -/

theorem rel_getElem?_of_forall₂ {α β : Type} {r : α → β → Prop} {items : List α} {images : List β}
    (related : List.Forall₂ r items images) (position : Nat) :
    Option.Rel r items[position]? images[position]? := by
  induction related generalizing position with
  | nil => exact .none
  | cons first _ ih =>
      cases position with
      | zero => exact .some first
      | succ position => exact ih position

namespace Output

/-- What a value right inside a list or map is made into. -/
def ofPart (container : Container) : Value → Except OutputError Output
  | .boolean _ => .error (.booleanIn container)
  | value => ofValue value

variable {container : Container} {value : Value}

theorem ofPart_of_not_boolean (other : ∀ b, value ≠ .boolean b) :
    ofPart container value = ofValue value := by
  unfold ofPart
  split
  · exact absurd rfl (other _)
  · rfl

theorem ofPart_eq_ok_iff {output : Output} :
    ofPart container value = .ok output ↔ ofValue value = .ok output := by
  unfold ofPart
  split <;> simp [ofValue]

theorem ofItems_eq_mapM (items : List Value) : ofItems items = items.mapM (ofPart .list) := by
  induction items with
  | nil => rfl
  | cons item rest ih =>
      rw [List.mapM_cons, ← ih]
      fun_cases ofPart .list item with
      | case1 b => rfl
      | case2 =>
          rename_i other
          rw [ofItems]
          · rfl
          · exact other

theorem ofEntries_eq_mapM (entries : List (Key × Value)) :
    ofEntries entries =
      ((entries.map Prod.snd).mapM (ofPart .map)).map (entries.map Prod.fst).zip := by
  induction entries with
  | nil => rfl
  | cons entry rest ih =>
      obtain ⟨key, value⟩ := entry
      rw [List.map_cons, List.map_cons, List.mapM_cons]
      fun_cases ofPart .map value with
      | case1 b => rfl
      | case2 =>
          rename_i other
          rw [ofEntries, ih]
          · cases ofValue value with
            | error error => rfl
            | ok output => cases (rest.map Prod.snd).mapM (ofPart .map) <;> rfl
          · exact other

/-- A list or map is made of its parts, from the first to the last. -/
theorem exists_ofValue_eq_map (held : value.container? = some container) :
    ∃ whole : List Output → Output,
      ofValue value = (value.parts.mapM (ofPart container)).map whole := by
  cases value with
  | list items =>
      cases held
      exact ⟨list, by rw [ofValue, ofItems_eq_mapM]; rfl⟩
  | map entries =>
      cases held
      refine ⟨fun outputs => map ((entries.map Prod.fst).zip outputs), ?_⟩
      rw [ofValue, ofEntries_eq_mapM, Value.parts]
      cases (entries.map Prod.snd).mapM (ofPart .map) <;> rfl
  | scalar s | record r => cases held

/-! ## Success and failure -/

theorem ofValue_boolean (b : Bool) : ofValue (.boolean b) = .error .boolean :=
  rfl

/-- What has no parts is a bare boolean or an output. -/
theorem boolean_or_ok_of_container? (bare : value.container? = none) :
    value.parts = [] ∧ ((∃ b, value = .boolean b) ∨ ∃ output, ofValue value = .ok output) := by
  cases value with
  | scalar s =>
      cases s with
      | number n => exact ⟨rfl, .inr ⟨number n, rfl⟩⟩
      | text s => exact ⟨rfl, .inr ⟨text s, rfl⟩⟩
      | boolean b => exact ⟨rfl, .inl ⟨b, rfl⟩⟩
  | record r => exact ⟨rfl, .inr ⟨record r, rfl⟩⟩
  | list items | map entries => cases bare

theorem not_boolean_of_container? (held : value.container? = some container) (b : Bool) :
    value ≠ .boolean b := by
  rintro rfl
  cases held

theorem exists_ofValue_iff (value : Value) :
    (∃ output, ofValue value = .ok output) ↔ value.BooleanFree := by
  induction value using Value.induct_parts with
  | step value ih =>
      rw [Value.booleanFree_iff]
      cases held : value.container? with
      | none =>
          obtain ⟨empty, bare | made⟩ := boolean_or_ok_of_container? held
          · obtain ⟨b, rfl⟩ := bare
            simp [ofValue_boolean]
          · have other : ∀ b, value ≠ .boolean b := by
              rintro b rfl
              simp [ofValue_boolean] at made
            simp [empty, made, other]
      | some container =>
          obtain ⟨whole, built⟩ := exists_ofValue_eq_map held
          have other : ∀ b, value ≠ .boolean b := not_boolean_of_container? held
          have parts : (∃ output, ofValue value = .ok output) ↔
              ∃ outputs, value.parts.mapM (ofPart container) = .ok outputs := by
            rw [built]
            simp [map_eq_ok]
          rw [parts, exists_mapM_eq_ok_iff]
          simp only [ofPart_eq_ok_iff, other, not_false_eq_true, implies_true, true_and, ne_eq]
          exact forall₂_congr ih

/-- The failure that a bare boolean stands for, by what it stands right inside of. -/
def refusal : Option Container → OutputError
  | none => .boolean
  | some container => .booleanIn container

theorem refusal_eq_boolean_iff {around : Option Container} :
    refusal around = .boolean ↔ around = none := by
  cases around <;> simp [refusal]

theorem refusal_eq_booleanIn_iff {around : Option Container} :
    refusal around = .booleanIn container ↔ around = some container := by
  cases around <;> simp [refusal]

theorem ofPart_eq_error_iff {error : OutputError} {position : Nat} {whole : Value}
    (held : whole.container? = some container) (here : whole.parts[position]? = some value)
    (own : ofValue value = .error error ↔
      ∃ place, value.FirstBoolean place ∧ refusal (value.around? place) = error) :
    ofPart container value = .error error ↔ ∃ place, value.FirstBoolean place ∧
      refusal (whole.around? (position :: place)) = error := by
  by_cases bare : ∃ b, value = .boolean b
  · obtain ⟨b, rfl⟩ := bare
    have top : refusal (whole.around? [position]) = .booleanIn container := by
      rw [Value.around?_singleton, held, refusal]
    constructor
    · intro failed
      cases failed
      exact ⟨[], Value.firstBoolean_nil_iff.2 ⟨b, rfl⟩, top⟩
    · intro ⟨place, first, same⟩
      obtain rfl := first.eq_nil rfl
      rw [← same, top, ofPart]
  · rw [ofPart_of_not_boolean (not_exists.1 bare), own]
    refine exists_congr fun place => and_congr_right fun first => ?_
    have below : place ≠ [] := by
      rintro rfl
      exact bare (Value.firstBoolean_nil_iff.1 first)
    rw [Value.around?_cons here below]

theorem ofValue_eq_error_iff (value : Value) (error : OutputError) :
    ofValue value = .error error ↔
      ∃ place, value.FirstBoolean place ∧ refusal (value.around? place) = error := by
  induction value using Value.induct_parts generalizing error with
  | step value ih =>
      cases held : value.container? with
      | none =>
          obtain ⟨empty, bare | ⟨output, made⟩⟩ := boolean_or_ok_of_container? held
          · obtain ⟨b, rfl⟩ := bare
            constructor
            · intro failed
              cases failed
              exact ⟨[], Value.firstBoolean_nil_iff.2 ⟨b, rfl⟩, rfl⟩
            · intro ⟨place, first, same⟩
              obtain rfl := first.eq_nil rfl
              rw [← same, ofValue_boolean]
              rfl
          · have free : value.BooleanFree := (exists_ofValue_iff value).1 ⟨output, made⟩
            have none : ∀ place, ¬ value.FirstBoolean place := fun place ⟨⟨b, found⟩, _⟩ =>
              free place b found
            simp [made, none]
      | some container =>
          obtain ⟨whole, built⟩ := exists_ofValue_eq_map held
          rw [built, map_eq_error, mapM_eq_error_iff]
          constructor
          · intro ⟨position, part, here, fails, before⟩
            have member : part ∈ value.parts := List.mem_of_getElem? here
            obtain ⟨place, first, same⟩ :=
              (ofPart_eq_error_iff held here (ih part member error)).1 fails
            have free : ∀ index < position, ∀ other, value.parts[index]? = some other →
                other.BooleanFree := by
              intro index smaller other there
              have made := before index smaller other there
              simpa only [ofPart_eq_ok_iff, exists_ofValue_iff] using made
            have first : value.FirstBoolean (position :: place) :=
              Value.firstBoolean_cons_iff.2 ⟨part, here, first, free⟩
            exact ⟨position :: place, first, same⟩
          · intro ⟨place, first, same⟩
            cases place with
            | nil =>
                obtain ⟨b, bare⟩ := Value.firstBoolean_nil_iff.1 first
                exact absurd bare (not_boolean_of_container? held b)
            | cons position place =>
                obtain ⟨part, here, first, free⟩ := Value.firstBoolean_cons_iff.1 first
                have member : part ∈ value.parts := List.mem_of_getElem? here
                refine ⟨position, part, here,
                  (ofPart_eq_error_iff held here (ih part member error)).2 ⟨place, first, same⟩, ?_⟩
                intro index smaller other there
                have free := free index smaller other there
                simpa only [ofPart_eq_ok_iff, exists_ofValue_iff] using free

/-! ## Nodes -/

/-- Parts of an output are made of the parts of the value, one by one. -/
theorem forall₂_parts {output : Output} (made : ofValue value = .ok output) :
    List.Forall₂ (fun part result => ofValue part = .ok result) value.parts output.parts := by
  cases value with
  | scalar s => cases s <;> cases made <;> exact .nil
  | record r =>
      cases made
      exact .nil
  | list items =>
      obtain ⟨outputs, parts, rfl⟩ := map_eq_ok.1 made
      exact forall₂_ofItems parts
  | map entries =>
      obtain ⟨outputs, parts, rfl⟩ := map_eq_ok.1 made
      exact List.forall₂_map_left_iff.2 (List.forall₂_map_right_iff.2
        ((forall₂_ofEntries parts).imp fun _ _ same => same.2))

theorem node_eq {output : Output} (made : ofValue value = .ok output) :
    output.node = value.node := by
  cases value with
  | scalar s => cases s <;> cases made <;> rfl
  | record r =>
      cases made
      rfl
  | list items =>
      obtain ⟨outputs, parts, rfl⟩ := map_eq_ok.1 made
      rw [node, Value.node, (forall₂_ofItems parts).length_eq]
  | map entries =>
      obtain ⟨outputs, parts, rfl⟩ := map_eq_ok.1 made
      rw [node, Value.node, map_eq_of_forall₂ (forall₂_ofEntries parts) fun _ _ same => same.1]

theorem node_at?_eq {output : Output} (made : ofValue value = .ok output) (place : List Nat) :
    (output.at? place).map node = (value.at? place).map Value.node := by
  induction place generalizing value output with
  | nil => exact congrArg some (node_eq made)
  | cons position place ih =>
      have related := rel_getElem?_of_forall₂ (forall₂_parts made) position
      rw [at?, Value.at?]
      generalize value.parts[position]? = part, output.parts[position]? = result at related
      cases related with
      | some made => exact ih made
      | none => rfl

theorem parts_eq_of_node_at? {output other : Output}
    (each : ∀ part ∈ output.parts, ∀ result : Output,
      (∀ place, (part.at? place).map node = (result.at? place).map node) → part = result)
    (same : ∀ place, (output.at? place).map node = (other.at? place).map node)
    (size : output.parts.length = other.parts.length) : output.parts = other.parts := by
  refine List.ext_getElem size fun position here there => ?_
  refine each _ (List.getElem_mem here) _ fun place => ?_
  simpa [at?, here, there] using same (position :: place)

/-- Outputs with the same nodes at all places are the same. -/
theorem eq_of_node_at? {output other : Output}
    (same : ∀ place, (output.at? place).map node = (other.at? place).map node) :
    output = other := by
  have top : output.node = other.node := Option.some.inj (same [])
  induction output using Output.induct generalizing other with
  | number n | text s | record r =>
      cases other <;> cases top
      rfl
  | list items ih =>
      cases other with
      | list others =>
          have size : items.length = others.length := Node.list.inj top
          have equal : (list items).parts = (list others).parts :=
            parts_eq_of_node_at? (fun part member result same =>
              ih part member same (Option.some.inj (same []))) same size
          exact congrArg list equal
      | number n | text s | map entries | record r => cases top
  | map entries ih =>
      cases other with
      | map others =>
          have keys : entries.map Prod.fst = others.map Prod.fst := Node.map.inj top
          have size : (entries.map Prod.snd).length = (others.map Prod.snd).length := by
            simpa using congrArg List.length keys
          have equal : (map entries).parts = (map others).parts := by
            refine parts_eq_of_node_at? (fun part member result same => ?_) same size
            obtain ⟨⟨key, found⟩, among, rfl⟩ := List.mem_map.1 member
            exact ih key found among same (Option.some.inj (same []))
          have zipped : entries = others := by
            rw [List.zip_of_prod keys equal]
            exact (List.zip_of_prod rfl rfl).symm
          exact congrArg map zipped
      | number n | text s | list items | record r => cases top

/-- A value is an output exactly if it is free of bare booleans. The output has the same nodes at
the same places. Otherwise the value is a boolean, or the failure names the list or map that the
first boolean stands right inside of. -/
theorem ofValue_iff_booleanFree (value : Value) :
    ((∃ output, ofValue value = .ok output) ↔ value.BooleanFree) ∧
      (∀ output, ofValue value = .ok output ↔
        ∀ place, (output.at? place).map node = (value.at? place).map Value.node) ∧
      (ofValue value = .error .boolean ↔ ∃ b, value = .boolean b) ∧
      ∀ container, ofValue value = .error (.booleanIn container) ↔
        ∃ outer position, value.FirstBoolean (outer ++ [position]) ∧
          (value.at? outer).bind Value.container? = some container := by
  refine ⟨exists_ofValue_iff value, fun output => ⟨node_at?_eq, fun same => ?_⟩, ?_,
    fun container => ?_⟩
  · have free : value.BooleanFree := by
      intro place b found
      obtain ⟨result, -, node⟩ : ∃ result, output.at? place = some result ∧
          result.node = .boolean b := by
        simpa [found, Value.node] using same place
      cases result <;> cases node
    obtain ⟨made, ofValue⟩ := (exists_ofValue_iff value).2 free
    have nodes : made = output :=
      eq_of_node_at? fun place => (node_at?_eq ofValue place).trans (same place).symm
    rwa [← nodes]
  · simp only [ofValue_eq_error_iff, refusal_eq_boolean_iff]
    constructor
    · intro ⟨place, first, top⟩
      obtain ⟨b, found⟩ := first.1
      obtain rfl := (Value.around?_eq_none_iff found).1 top
      exact Value.firstBoolean_nil_iff.1 first
    · intro bare
      exact ⟨[], Value.firstBoolean_nil_iff.2 bare, rfl⟩
  · simp only [ofValue_eq_error_iff, refusal_eq_booleanIn_iff]
    constructor
    · intro ⟨place, first, held⟩
      rcases place.eq_nil_or_concat with rfl | ⟨outer, position, rfl⟩
      · cases held
      · rw [List.concat_eq_append] at first held
        exact ⟨outer, position, first, Value.around?_append_singleton outer position ▸ held⟩
    · intro ⟨outer, position, first, held⟩
      refine ⟨outer ++ [position], first, ?_⟩
      rwa [Value.around?_append_singleton]

/-- A record keeps its booleans. The first bare one stands in a list inside a map, in front of the
one that stands in the map itself. -/
example :
    let flagged : Record := ⟨⟨"R", [⟨"ok", .boolean⟩], none⟩, [.boolean true]⟩
    Output.ofValue (.list [.record flagged, .map [(.integer 1, .list [.boolean true]),
      (.integer 2, .boolean false)]]) = .error (.booleanIn .list) ∧
    Output.ofValue (.list [.record flagged]) = .ok (.list [.record flagged]) := by
  exact ⟨rfl, rfl⟩

end Output

end Pipeline
