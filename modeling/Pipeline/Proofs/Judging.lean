import Mathlib
import Pipeline.Judge
import Pipeline.Proofs.BuiltValues
import Pipeline.Proofs.Cataloguing
import Pipeline.Proofs.UniformDatasets

/-! The verdict on an output with the JSON that a catalogue expects. -/

set_option autoImplicit false

namespace Pipeline

/-! ## Entries of a catalogue -/

namespace RiddleEntry

theorem plain_of_ofRaw? {raw : Json.Raw} {entry : RiddleEntry} (read : ofRaw? raw = some entry) :
    entry.input.Plain ∧ entry.expectedOutput.Plain := by
  have plain : ∀ id description recordName naturalKey input expectedOutput,
      ofRaws? id description recordName naturalKey input expectedOutput = some entry →
      entry.input.Plain ∧ entry.expectedOutput.Plain := by
    intro id description recordName naturalKey input expectedOutput read
    simp only [ofRaws?, Option.bind_eq_bind, Option.bind_eq_some_iff] at read
    obtain ⟨_, _, _, _, _, _, _, _, json, inputRead, expected, expectedRead, same⟩ := read
    cases same
    exact ⟨Json.Raw.value?_plain inputRead, Json.Raw.value?_plain expectedRead⟩
  unfold ofRaw? at read
  split at read
  · simp only [Option.bind_eq_bind, Option.bind_eq_some_iff] at read
    obtain ⟨_, _, _, _, _, _, _, _, _, _, read⟩ := read
    exact plain _ _ _ _ _ _ read
  · exact plain _ _ _ _ _ _ read
  · cases read

private theorem forall₂_mapM {α β : Type} {image : α → Option β} {items : List α}
    {images : List β} (all : items.mapM image = some images) :
    List.Forall₂ (fun item found => image item = some found) items images := by
  induction items generalizing images with
  | nil =>
      cases all
      exact .nil
  | cons item rest ih =>
      rw [List.mapM_cons] at all
      obtain ⟨first, here, all⟩ := Option.bind_eq_some_iff.1 all
      obtain ⟨others, later, same⟩ := Option.bind_eq_some_iff.1 all
      cases same
      exact .cons here (ih later)

theorem plain_of_entries? {text : String} {entries : List RiddleEntry}
    (listed : Catalogue.entries? text = some entries) :
    ∀ entry ∈ entries, entry.input.Plain ∧ entry.expectedOutput.Plain := by
  unfold Catalogue.entries? at listed
  obtain ⟨raw, _, listed⟩ := Option.bind_eq_some_iff.1 listed
  split at listed
  · rename_i raws
    intro entry member
    obtain ⟨raw, _, read⟩ := exists_of_forall₂ (forall₂_mapM listed) entry member
    exact plain_of_ofRaw? read
  · cases listed

end RiddleEntry

/-! ## Records of a dataset -/

/-- The fields of the records are the members of an object, whose names are not repeated. -/
theorem Dataset.fields_nodup {json : Json} {recordName naturalKey : Option String}
    {dataset : Dataset} (read : Dataset.ofJson json recordName naturalKey = .ok dataset)
    (plain : json.Plain) : ∀ schema, dataset.elementType.schema? = some schema →
      (schema.fields.map Field.name).Nodup := by
  obtain ⟨items, rfl, inferred, _⟩ := Dataset.ofJson_eq_ok_iff.1 read
  exact ElementType.infer_fields_nodup
    (fun members member => (plain.of_array _ member).of_object.1) inferred

/-- Maps are in key order, and records are those of the element type, with a value for every
field. -/
def Value.Fits (elementType : ElementType) : Value → Prop
  | map entries => InKeyOrder entries
  | record r => elementType.schema? = some r.schema ∧ r.values.length = r.schema.fields.length
  | scalar _ | list _ => True

theorem holdsOfBuilt_fits (cap : Nat) (elementType : ElementType) :
    HoldsOfBuilt cap (Value.Fits elementType) :=
  .of_scalars (fun _ => trivial) (fun _ _ => trivial) fun _ _ => id

theorem ElementType.Contains.fits {elementType : ElementType} {value : Value}
    (contained : elementType.Contains value) : value.Everywhere (Value.Fits elementType) := by
  obtain ⟨admitted, conforms⟩ := contained
  fun_cases ElementType.admits elementType value with
  | case1 =>
      obtain ⟨n, rfl⟩ := Value.isNumber_iff.1 admitted
      exact Value.everywhere_scalar_iff.2 trivial
  | case2 s => exact Value.everywhere_scalar_iff.2 trivial
  | case3 schema r =>
      cases beq_iff_eq.1 admitted
      exact Value.everywhere_record_iff.2 ⟨rfl, Record.length_of_conforms (conforms r rfl)⟩
  | case4 other => simp [ElementType.admits] at admitted

/-- The output of a run over a dataset holds no other records than those of its type. -/
theorem Chain.run_fits {cap : Nat} {token : CancelToken} {chain : Chain} {dataset : Dataset}
    (contains : ∀ value ∈ dataset.elements, dataset.elementType.Contains value) {value : Value}
    (ran : chain.run cap token dataset.elements = .ok value) {output : Output}
    (made : Output.ofValue value = .ok output) :
    output.Everywhere (Output.Fits dataset.elementType) := by
  have all : value.Everywhere (Value.Fits dataset.elementType) :=
    chain.run_everywhere (holdsOfBuilt_fits cap _)
      (fun _ _ selector _ => selector.literals_of_forall fun _ => trivial)
      (fun element member => (contains element member).fits) ran
  intro inner within
  obtain ⟨part, among, made⟩ := within.of_value made
  have holds := all part among
  cases part with
  | scalar s => cases s <;> cases made <;> trivial
  | list items =>
      obtain ⟨outputs, _, rfl⟩ := map_eq_ok.1 made
      trivial
  | map entries =>
      obtain ⟨outputs, parts, rfl⟩ := map_eq_ok.1 made
      have keys := map_eq_of_forall₂ (Output.forall₂_ofEntries parts) fun _ _ both => both.1
      exact InKeyOrder.of_keys holds keys
  | record r =>
      cases made
      exact holds

/-! ## Verdicts -/

theorem Sandbox.submit_eq_success {limits : Limits} {script : String} {elementType : ElementType}
    {input : List Value} {chain : Chain} {value : Value} {output : Output}
    (screened : screen limits.maxScriptLength script = .ok ())
    (parsed : Chain.parse script = .ok chain) (checked : chain.check elementType = .ok ())
    (time : limits.deadline ≠ 0)
    (ran : chain.run limits.maxElements ⟨some (limits.deadline * stepsPerMillisecond)⟩ input =
      .ok value) (made : Output.ofValue value = .ok output) :
    (ofLimits limits).submit script elementType input = .success output := by
  have engine : (ofLimits limits).engine chain input (limits.deadline * stepsPerMillisecond) =
      .returned (.ok value) := by
    change Engine.evaluator limits.maxElements chain input _ = _
    rw [Engine.evaluator, ran]
  have limits? : (ofLimits limits).limits = limits := rfl
  rw [submit, limits?, screened]
  simp only [parsed, checked, execute, limits?, engine, made, time, if_false]

theorem Sandbox.of_execute_success {limits : Limits} {chain : Chain} {input : List Value}
    {output : Output} (success : (ofLimits limits).execute chain input = .success output) :
    ∃ token value, chain.run limits.maxElements token input = .ok value ∧
      Output.ofValue value = .ok output := by
  unfold execute at success
  dsimp only at success
  split at success
  · cases success
  · split at success
    · rename_i value returned
      split at success
      · rename_i made
        cases success
        refine ⟨⟨some (limits.deadline * stepsPerMillisecond)⟩, value, ?_, made⟩
        change Engine.evaluator limits.maxElements chain input _ = _ at returned
        unfold Engine.evaluator at returned
        split at returned
        · cases returned
        · exact Ending.returned.inj returned
      · cases success
    all_goals cases success

theorem Sandbox.of_submit_success {limits : Limits} {script : String} {elementType : ElementType}
    {input : List Value} {output : Output}
    (success : (ofLimits limits).submit script elementType input = .success output) :
    ∃ chain token value, Chain.run limits.maxElements token chain input = .ok value ∧
      Output.ofValue value = .ok output := by
  unfold submit at success
  split at success
  · cases success
  · split at success
    · cases success
    · rename_i chain _
      split at success
      · cases success
      · exact ⟨chain, of_execute_success success⟩

namespace Judge

/-- The verdict on a script whose output has the JSON form of what is expected: it is accepted
exactly if the output is read back from its JSON. A text is not read back as a key if an integer is
read from it. That must be so for the texts that integers are written as, but `01` and `+1` are
taken for integers too, and no integer is written so: for outputs with such keys the verdict follows
from a slip in the reading of keys, which also makes one key of the names `1` and `01`. -/
theorem judgeById_accepted_iff_readsBack {text : String} {entries : List RiddleEntry}
    {catalogue : Catalogue} (listed : Catalogue.entries? text = some entries)
    (loaded : Catalogue.ofText text = .ok catalogue) {entry : RiddleEntry}
    (member : entry ∈ entries) (limits : Limits) :
    ∃ riddle, catalogue.find entry.id = .ok riddle ∧ ∀ script output,
      (Sandbox.ofLimits limits).submit script riddle.dataset.elementType riddle.dataset.elements =
        .success output → output.json.form = entry.expectedOutput.form →
      ∃ verdict, (Judge.mk catalogue (.ofLimits limits)).judgeById entry.id script = .ok verdict ∧
        (verdict.kind = .accepted ↔
          output.Everywhere (Output.ReadsBack riddle.dataset.elementType)) := by
  rw [Catalogue.ofText, listed] at loaded
  obtain ⟨riddles, decoded, made⟩ := bind_eq_ok.1 loaded
  obtain ⟨ordered, perm⟩ := Catalogue.of_ofRiddles made
  obtain ⟨riddle, among, found⟩ :=
    exists_of_forall₂ (RiddleEntry.forall₂_riddles decoded) entry member
  obtain ⟨id, _, readDataset, readExpected⟩ := found
  obtain ⟨plainInput, plainExpected⟩ := RiddleEntry.plain_of_entries? listed entry member
  have find : catalogue.find entry.id = .ok riddle :=
    id ▸ Catalogue.find_of_mem ordered (perm.mem_iff.2 among)
  refine ⟨riddle, find, fun script output success same => ?_⟩
  obtain ⟨chain, token, value, ran, ofValue⟩ := Sandbox.of_submit_success success
  have fits := chain.run_fits (Dataset.ofJson_contains readDataset) ran ofValue
  have equal := Output.equals_decoded_iff (Dataset.fields_nodup readDataset plainInput) fits
    plainExpected same readExpected
  refine ⟨_, by rw [judgeById, find], ?_⟩
  rw [← equal, judge, success, Verdict.ofOutcome]
  split
  · rename_i holds
    exact iff_of_true rfl holds
  · rename_i fails
    exact iff_of_false (fun same => by cases same) fails

set_option maxRecDepth 4096 in
/-- The names of cats and dogs, expected with the dogs first. -/
theorem judgeById_accepted_iff_readsBack_names :
    let text := "[\x7b\"id\":\"names\",\"description\":\"\",\"input\":" ++
      "[\x7b\"kind\":\"cat\",\"name\":\"Tom\"\x7d,\x7b\"kind\":\"dog\",\"name\":\"Rex\"\x7d]," ++
      "\"expectedOutput\":\x7b\"dog\":[\"Rex\"],\"cat\":[\"Tom\"]\x7d\x7d]"
    let script := ".groupBy(a -> a.kind).map(a -> a.name)"
    let member (kind name : String) : Json :=
      .object [("kind", .string kind), ("name", .string name)]
    let entry : RiddleEntry :=
      ⟨"names", "", none, none, .array [member "cat" "Tom", member "dog" "Rex"],
        .object [("dog", .array [.string "Rex"]), ("cat", .array [.string "Tom"])]⟩
    let schema : Schema := ⟨"Record", [⟨"kind", .text⟩, ⟨"name", .text⟩], none⟩
    let animal (kind name : String) : Value := .record ⟨schema, [.text kind, .text name]⟩
    let output : Output :=
      .map [(.text "cat", .list [.text "Tom"]), (.text "dog", .list [.text "Rex"])]
    let riddle : Riddle :=
      ⟨"names", "", ⟨.record schema, [animal "cat" "Tom", animal "dog" "Rex"]⟩, output⟩
    (Catalogue.entries? text = some [entry] ∧ Catalogue.ofText text = .ok ⟨[riddle]⟩ ∧
      entry ∈ [entry]) ∧
      ((Sandbox.ofLimits .default).submit script riddle.dataset.elementType
        riddle.dataset.elements = .success output ∧
        output.json.form = entry.expectedOutput.form) ∧
      ∃ verdict, (Judge.mk ⟨[riddle]⟩ (.ofLimits .default)).judgeById "names" script = .ok verdict ∧
        verdict.kind = .accepted := by
  have parsed : Chain.parse ".groupBy(a -> a.kind).map(a -> a.name)" =
      .ok [.groupBy (.lambda ⟨"a", .field (.reference "a") "kind"⟩),
        .map (.lambda ⟨"a", .field (.reference "a") "name"⟩)] := by rfl
  intro text script member entry schema animal output riddle
  have listed : Catalogue.entries? text = some [entry] := by
    simp only [text, Catalogue.entries?, Json.readRaw?, String.reduceAppend, String.reduceToList]
    rfl
  have loaded : Catalogue.ofText text = .ok ⟨[riddle]⟩ := by
    rw [Catalogue.ofText, listed]
    rfl
  have screened : screen Limits.default.maxScriptLength script = .ok () := by decide +kernel
  have ran : Chain.run 1000000 ⟨some 4000000⟩
      [.groupBy (.lambda ⟨"a", .field (.reference "a") "kind"⟩),
        .map (.lambda ⟨"a", .field (.reference "a") "name"⟩)] riddle.dataset.elements =
      .ok (.map [(.text "cat", .list [.text "Tom"]), (.text "dog", .list [.text "Rex"])]) := by rfl
  have submitted : (Sandbox.ofLimits .default).submit script riddle.dataset.elementType
      riddle.dataset.elements = .success output :=
    Sandbox.submit_eq_success screened parsed rfl (by decide) ran rfl
  have same : output.json.form = entry.expectedOutput.form := by
    have swapped : ∀ cats dogs, (Json.object [("cat", cats), ("dog", dogs)]).form =
        (Json.object [("dog", dogs), ("cat", cats)]).form := by
      intro cats dogs
      rw [Json.form_object, Json.form_object, Json.Form.object.injEq]
      funext name
      by_cases cat : name = "cat"
      · subst cat
        rfl
      · simp only [List.lookup_cons, beq_eq_false_iff_ne.2 cat]
    exact swapped _ _
  have reads : output.Everywhere (Output.ReadsBack riddle.dataset.elementType) := by
    have list : ∀ name, (Output.list [.text name]).Everywhere
        (Output.ReadsBack riddle.dataset.elementType) := fun name =>
      Output.everywhere_list_iff.2 ⟨trivial, by simp [Output.everywhere_text_iff, Output.ReadsBack]⟩
    refine Output.everywhere_map_iff.2 ⟨⟨?_, fun schema found same => ?_⟩, ?_⟩
    · simp [Key.IsPlain, signedInteger?, natural?, isDigit]
    · cases found
      exact absurd ((same "cat").2 (List.mem_map_of_mem (.head _))) (by simp [schema])
    · intro key part member
      rcases List.mem_cons.1 member with same | member
      · cases same
        exact list "Tom"
      · cases List.mem_singleton.1 member
        exact list "Rex"
  obtain ⟨found, find, judged⟩ :=
    judgeById_accepted_iff_readsBack listed loaded (.head _) .default
  obtain rfl : riddle = found := Except.ok.inj find
  obtain ⟨verdict, judged, accepted⟩ := judged script output submitted same
  exact ⟨⟨listed, loaded, .head _⟩, ⟨submitted, same⟩, verdict, judged, accepted.2 reads⟩

set_option maxRecDepth 4096 in
/-- The elements by themselves, which are texts. The JSON is that of a map with an integer for a
key, and such a map is expected. -/
theorem judgeById_wrongAnswer_of_same_form :
    let text := "[\x7b\"id\":\"r\",\"description\":\"\",\"input\":[\"1\"]," ++
      "\"expectedOutput\":\x7b\"1\":[\"1\"]\x7d\x7d]"
    let script := ".groupBy(x -> x)"
    let entry : RiddleEntry := ⟨"r", "", none, none, .array [.string "1"],
      .object [("1", .array [.string "1"])]⟩
    let riddle : Riddle := ⟨"r", "", ⟨.text, [.text "1"]⟩, .map [(.integer 1, .list [.text "1"])]⟩
    let output : Output := .map [(.text "1", .list [.text "1"])]
    Catalogue.entries? text = some [entry] ∧ Catalogue.ofText text = .ok ⟨[riddle]⟩ ∧
      (Sandbox.ofLimits .default).submit script riddle.dataset.elementType riddle.dataset.elements =
        .success output ∧ output.json.form = entry.expectedOutput.form ∧
      ∃ verdict, (Judge.mk ⟨[riddle]⟩ (.ofLimits .default)).judgeById "r" script = .ok verdict ∧
        verdict.kind = .wrongAnswer := by
  have parsed : Chain.parse ".groupBy(x -> x)" =
      .ok [.groupBy (.lambda ⟨"x", .reference "x"⟩)] := by rfl
  intro text script entry riddle output
  have listed : Catalogue.entries? text = some [entry] := by
    simp only [text, Catalogue.entries?, Json.readRaw?, String.reduceAppend, String.reduceToList]
    rfl
  have loaded : Catalogue.ofText text = .ok ⟨[riddle]⟩ := by
    rw [Catalogue.ofText, listed]
    rfl
  have screened : screen Limits.default.maxScriptLength script = .ok () := by decide +kernel
  have ran : Chain.run 1000000 ⟨some 4000000⟩ [.groupBy (.lambda ⟨"x", .reference "x"⟩)]
      [.text "1"] = .ok (.map [(.text "1", .list [.text "1"])]) := by rfl
  have submitted : (Sandbox.ofLimits .default).submit script .text [.text "1"] = .success output :=
    Sandbox.submit_eq_success screened parsed rfl (by decide) ran rfl
  refine ⟨listed, loaded, submitted, rfl, ?_⟩
  refine ⟨⟨.wrongAnswer, some output, "Incorrect result, try again"⟩, ?_, rfl⟩
  have found : Catalogue.find ⟨[riddle]⟩ "r" = .ok riddle := rfl
  have judged : Verdict.ofOutcome riddle.expected (.success output) =
      ⟨.wrongAnswer, some output, "Incorrect result, try again"⟩ := rfl
  rw [judgeById, found]
  exact congrArg Except.ok ((congrArg (Verdict.ofOutcome riddle.expected) submitted).trans judged)

end Judge

end Pipeline
