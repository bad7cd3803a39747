import Pipeline.Proofs.Shape
import Pipeline.Proofs.Stage

/-! How elements pass through a chain, next to the shapes that are inferred for them. What
is shown of each stage for the elements that come to it holds behind the whole chain. -/

set_option autoImplicit false

namespace Pipeline

theorem Flow.Guarded.and_carries {good : Value → Prop} {allowed : RunError → Prop} {flow : Flow}
    (guarded : flow.Guarded good allowed) :
    flow.Guarded (fun value => good value ∧ flow.Carries value) allowed := by
  induction guarded with
  | sequence elements =>
      exact .sequence (elements.and_yields.mono (fun _ holds => ⟨holds.1, .sequence holds.2⟩)
        fun _ => id)
  | single holds => exact .single ⟨holds, .single⟩
  | groups _ ih =>
      exact .groups fun key part member => (ih key part member).mono
        (fun _ holds => ⟨holds.1, .groups member holds.2⟩) fun _ => id

/-- What a lambda expands an element to fails as the lambda does, or because it is no list. -/
theorem Lambda.expand_ensures {allowed : RunError → Prop} {kept : Value → Prop} {cap : Nat}
    (ordinary : ∀ error : RunError, error.IsOrdinary → allowed error) {lambda : Lambda}
    {value : Value}
    (integers : (∃ arguments, lambda.body = .call "range" arguments) → ∀ n, kept (.integer n))
    (others : (¬ ∃ arguments, lambda.body = .call "range" arguments) → ∀ value, kept value)
    (evaluates : Ensures (fun _ => True) allowed (lambda.eval cap value)) :
    Ensures (Sequence.Guarded kept allowed) allowed (lambda.expand cap value) := by
  unfold Lambda.expand
  split
  · rename_i arguments body
    rw [Lambda.eval, body, Expr.eval] at evaluates
    cases evaluated : Expr.evalAll cap lambda.parameter value arguments with
    | error error => rwa [evaluated] at evaluates
    | ok values =>
        have bounds : Ensures (fun _ => True) allowed (rangeBounds values) := by
          fun_cases rangeBounds values
          · trivial
          · exact ordinary _ id
        refine bounds.bind ?_
        rintro ⟨lower, upper⟩ _
        exact Sequence.guarded_consecutive (integers ⟨_, body⟩) _ _
  · rename_i other
    refine evaluates.bind fun found _ => ?_
    have kept := others (not_exists.2 other)
    split
    · exact Sequence.guarded_ofList fun value _ => kept value
    · exact ordinary _ id

theorem Lambda.expandedShape_eq (lambda : Lambda) :
    ((∃ arguments, lambda.body = .call "range" arguments) ∧ lambda.expandedShape = .number) ∨
      (¬ (∃ arguments, lambda.body = .call "range" arguments) ∧
        lambda.expandedShape = .unknown) := by
  unfold Lambda.expandedShape
  split
  · exact .inl ⟨⟨_, ‹_›⟩, rfl⟩
  · rename_i other
    exact .inr ⟨fun ⟨arguments, body⟩ => other arguments body, rfl⟩

theorem checkKeys_iff {shape : Shape} {keys : List SortKey} :
    checkKeys shape keys = .ok () ↔
      ∀ key ∈ keys, ∃ found, key.selector.shape shape = .ok found := by
  induction keys with
  | nil => exact ⟨fun _ => List.forall_mem_nil _, fun _ => rfl⟩
  | cons key rest ih =>
      rw [checkKeys, bind_eq_ok, List.forall_mem_cons, ← ih]
      constructor
      · rintro ⟨found, first, others⟩
        exact ⟨⟨found, first⟩, others⟩
      · rintro ⟨⟨found, first⟩, others⟩
        exact ⟨found, first, others⟩

/-- A reading of shapes as properties of values that numbers and texts have, and that says
nothing where nothing is known. -/
structure Shape.IsReading (fits : Shape → Value → Prop) : Prop where
  number : ∀ n, fits .number (.number n)
  text : ∀ s, fits .text (.text s)
  unknown : ∀ value, fits .unknown value

theorem Shape.admits_isReading : IsReading Admits where
  number n := ⟨n, rfl⟩
  text s := ⟨s, rfl⟩
  unknown _ := trivial

theorem Shape.covers_isReading : IsReading Covers where
  number n := ⟨.number n, rfl⟩
  text s := ⟨.text s, rfl⟩
  unknown _ := trivial

/-- The selectors of a stage that is let through are let through. -/
theorem Stage.selectors_shape {stage : Stage} {shape next : Shape}
    (inferred : stage.shape shape = .ok next) {selector : Selector}
    (member : selector ∈ stage.selectors) : ∃ found, selector.shape shape = .ok found := by
  cases stage with
  | filter own | sum own | groupBy own =>
      cases List.mem_singleton.1 member
      obtain ⟨found, same, _⟩ := bind_eq_ok.1 inferred
      exact ⟨found, same⟩
  | map own =>
      cases List.mem_singleton.1 member
      exact ⟨next, inferred⟩
  | flatMap lambda =>
      cases List.mem_singleton.1 member
      obtain ⟨found, same, _⟩ := bind_eq_ok.1 inferred
      exact ⟨found, same⟩
  | sorted comparator =>
      cases comparator with
      | none => cases member
      | some comparator =>
          obtain ⟨_, checked, _⟩ := bind_eq_ok.1 inferred
          obtain ⟨key, within, rfl⟩ := List.mem_map.1 member
          exact checkKeys_iff.1 checked key within
  | max comparator | min comparator =>
      obtain ⟨_, checked, _⟩ := bind_eq_ok.1 inferred
      obtain ⟨key, within, rfl⟩ := List.mem_map.1 member
      exact checkKeys_iff.1 checked key within
  | collect aggregator =>
      cases aggregator with
      | summing own =>
          cases List.mem_singleton.1 member
          obtain ⟨found, same, _⟩ := bind_eq_ok.1 inferred
          exact ⟨found, same⟩
      | toList | toSet | counting | joining => cases member
  | distinct | limit | skip => cases member

/-- A stage that is let through sends on what fits its shape, if its selectors fail only as
allowed and, where it maps, what is taken from the elements fits. -/
theorem Stage.sends_of_shape {fits : Shape → Value → Prop} (reading : Shape.IsReading fits)
    {good : Value → Prop} {allowed : RunError → Prop} {cap : Nat}
    (ordinary : ∀ error : RunError, error.IsOrdinary → allowed error) {stage : Stage}
    {shape next : Shape} (inferred : stage.shape shape = .ok next)
    (holds : ∀ value, good value → fits shape value)
    (selects : ∀ selector ∈ stage.selectors, ∀ value, good value →
      Ensures (fun _ => True) allowed (selector.select cap value))
    (maps : ∀ selector, stage = .map selector → ∀ value, good value →
      Ensures (fits next) allowed (selector.select cap value)) :
    stage.Sends cap good (fits next) allowed := by
  cases stage with
  | filter selector | groupBy selector =>
      obtain ⟨_, _, same⟩ := bind_eq_ok.1 inferred
      cases same
      exact ⟨holds, selects selector (.head _)⟩
  | map selector => exact maps selector rfl
  | flatMap lambda =>
      obtain ⟨_, _, same⟩ := bind_eq_ok.1 inferred
      cases same
      refine fun value element => lambda.expand_ensures ordinary (fun range n => ?_)
        (fun other value => ?_) (selects (.lambda lambda) (.head _) value element)
      · rcases lambda.expandedShape_eq with ⟨_, number⟩ | ⟨other, _⟩
        · exact number ▸ reading.number _
        · exact absurd range other
      · rcases lambda.expandedShape_eq with ⟨range, _⟩ | ⟨_, unknown⟩
        · exact absurd range other
        · exact unknown ▸ reading.unknown value
  | sorted comparator =>
      cases comparator with
      | none =>
          cases inferred
          exact ⟨holds, natural_selects⟩
      | some comparator =>
          obtain ⟨_, _, same⟩ := bind_eq_ok.1 inferred
          cases same
          exact ⟨holds, fun key member => selects key.selector (List.mem_map_of_mem member)⟩
  | max comparator | min comparator =>
      obtain ⟨_, _, same⟩ := bind_eq_ok.1 inferred
      cases same
      exact ⟨holds, fun key member => selects key.selector (List.mem_map_of_mem member)⟩
  | sum selector =>
      obtain ⟨_, _, same⟩ := bind_eq_ok.1 inferred
      cases same
      exact ⟨fun n _ => reading.number n, selects selector (.head _)⟩
  | collect aggregator =>
      cases aggregator with
      | toList | toSet =>
          cases inferred
          exact fun items _ _ => reading.unknown _
      | counting =>
          cases inferred
          exact fun n => reading.number _
      | joining separator =>
          cases inferred
          exact reading.text
      | summing selector =>
          obtain ⟨_, _, same⟩ := bind_eq_ok.1 inferred
          cases same
          exact ⟨fun n _ => reading.number n, selects selector (.head _)⟩
  | distinct | limit | skip =>
      cases inferred
      exact holds

/-- An element comes to a stage of the chain, by itself or in a group, where the elements
are inferred to be of the shape. -/
inductive Chain.Reaches (cap : Nat) (token : CancelToken) (found : Stage) (reached : Shape)
    (element : Value) : Chain → Shape → Flow → Prop where
  | here {rest : Chain} {flow : Flow} :
      flow.Carries element → Reaches cap token found reached element (found :: rest) reached flow
  | later {stage : Stage} {rest : Chain} {shape next : Shape} {flow passed : Flow} :
      stage.shape shape = .ok next → flow.apply cap token stage = .ok passed →
      Reaches cap token found reached element rest next passed →
      Reaches cap token found reached element (stage :: rest) shape flow

/-- What comes to a stage of the first chain comes to it where another chain follows. -/
theorem Chain.Reaches.append {cap : Nat} {token : CancelToken} {found : Stage} {reached : Shape}
    {element : Value} {first : Chain} {shape : Shape} {flow : Flow}
    (reaches : first.Reaches cap token found reached element shape flow) (second : Chain) :
    (first ++ second).Reaches cap token found reached element shape flow := by
  induction reaches with
  | here carries => exact .here carries
  | later inferred applied _ ih => exact .later inferred applied ih

/-- What comes to a stage is carried behind the stages in front of it. -/
theorem Chain.Reaches.carried {cap : Nat} {token : CancelToken} {found : Stage}
    {reached : Shape} {element : Value} {chain : Chain} {shape : Shape} {flow : Flow}
    (reaches : chain.Reaches cap token found reached element shape flow) :
    ∃ before after passed, chain = before ++ found :: after ∧
      Chain.shape before shape = .ok reached ∧
      Chain.through cap token before flow = .ok passed ∧ passed.Carries element := by
  induction reaches with
  | @here rest flow carries => exact ⟨[], rest, flow, rfl, rfl, rfl, carries⟩
  | @later stage _ _ _ _ _ inferred applied _ ih =>
      obtain ⟨before, after, passed, rfl, shapes, through, carries⟩ := ih
      exact ⟨stage :: before, after, passed, rfl, bind_eq_ok.2 ⟨_, inferred, shapes⟩,
        bind_eq_ok.2 ⟨_, applied, through⟩, carries⟩

/-- A part of a chain in front of which nothing is left out is let through with it. -/
theorem Chain.shape_of_append {before after : Chain} {shape last : Shape}
    (inferred : Chain.shape (before ++ after) shape = .ok last) :
    ∃ passed, Chain.shape before shape = .ok passed := by
  induction before generalizing shape with
  | nil => exact ⟨shape, rfl⟩
  | cons stage rest ih =>
      obtain ⟨next, first, others⟩ := bind_eq_ok.1 inferred
      obtain ⟨passed, behind⟩ := ih others
      exact ⟨passed, bind_eq_ok.2 ⟨next, first, behind⟩⟩

/-- What every stage sends on for the elements that come to it is what flows behind the
chain, and nothing else goes wrong on the way. -/
theorem Chain.through_ensures {fits : Shape → Value → Prop} {allowed : RunError → Prop}
    {cap : Nat} {token : CancelToken}
    (ordinary : ∀ error : RunError, error.IsOrdinary → allowed error) {chain : Chain}
    {shape last : Shape} (inferred : chain.shape shape = .ok last) {flow : Flow}
    (guarded : flow.Guarded (fits shape) allowed)
    (sends : ∀ (stage : Stage) (reached next : Shape) (good : Value → Prop),
      stage.shape reached = .ok next →
      (∀ value, good value → fits reached value ∧
        chain.Reaches cap token stage reached value shape flow) →
      stage.Sends cap good (fits next) allowed) :
    Ensures (Flow.Guarded (fits last) allowed) allowed (chain.through cap token flow) := by
  induction chain generalizing shape flow with
  | nil =>
      cases inferred
      exact guarded
  | cons stage rest ih =>
      obtain ⟨next, first, others⟩ := bind_eq_ok.1 inferred
      have sent := sends stage shape next (fun value => fits shape value ∧ flow.Carries value)
        first fun value holds => ⟨holds.1, .here holds.2⟩
      refine (guarded.and_carries.apply ordinary sent).and_result.bind
        fun passed ⟨kept, applied⟩ => ih others kept ?_
      exact fun other reached next good inferred holds => sends other reached next good inferred
        fun value element => (holds value element).imp_right (.later first applied)

end Pipeline
