import Pipeline.Proofs.Conformance
import Pipeline.Proofs.Evaluation
import Pipeline.Proofs.Passage
import Pipeline.Safari

/-! A chain that the policy accepts finds every name at run time that the policy could
check: no reference, method or function is unknown, and no record lacks a field. -/

set_option autoImplicit false

namespace Pipeline

/-- Somewhere in the chain an element comes to a stage that reads a field of an object
inferred to be of the given shape, and the object that is there does not have the field. -/
def Chain.RaisesAt (cap : Nat) (token : CancelToken) (elementType : ElementType)
    (input : List Value) (chain : Chain) (object : Shape) (fault : TypeFault) : Prop :=
  ∃ stage shape element, ∃ selector ∈ Stage.selectors stage,
    chain.Reaches cap token stage shape element (Shape.ofElementType elementType)
      (.sequence (Sequence.ofList input)) ∧
    selector.RaisesAt cap shape element object fault

variable {cap : Nat} {token : CancelToken} {elementType : ElementType} {chain : Chain}
  {input : List Value}

theorem Chain.check_iff : chain.check elementType = .ok () ↔
    ∃ last, chain.shape (Shape.ofElementType elementType) = .ok last := by
  rw [Chain.check, bind_eq_ok]
  exact exists_congr fun last => and_iff_left rfl

theorem Stage.sends_covers {allowed : RunError → Prop} {good : Value → Prop} {stage : Stage}
    {shape next : Shape} (ordinary : ∀ error : RunError, error.IsOrdinary → allowed error)
    (inferred : stage.shape shape = .ok next) (holds : ∀ value, good value → shape.Covers value)
    (sites : ∀ selector ∈ stage.selectors, ∀ value, good value → ∀ fault,
      selector.RaisesAt cap shape value .unknown fault → allowed (.type fault)) :
    stage.Sends cap good next.Covers allowed := by
  refine stage.sends_of_shape Shape.covers_isReading ordinary inferred holds ?_ ?_
  · intro selector member value element
    obtain ⟨found, accepted⟩ := stage.selectors_shape inferred member
    exact (selector.select_ensures ordinary (holds value element) accepted
      (sites selector member value element)).mono (fun _ _ => trivial) fun _ => id
  · rintro selector rfl value element
    exact selector.select_ensures ordinary (holds value element) inferred
      (sites selector (.head _) value element)

/-- An element comes only to stages that are let through, and is what is inferred there. -/
theorem Chain.Reaches.covers {stage : Stage} {reached shape last : Shape} {element : Value}
    {flow : Flow} (reaches : chain.Reaches cap token stage reached element shape flow)
    (accepted : chain.shape shape = .ok last)
    (guarded : flow.Guarded shape.Covers fun _ => True) :
    reached.Covers element ∧ ∃ next, stage.shape reached = .ok next := by
  induction reaches generalizing last with
  | here carries =>
      obtain ⟨next, first, _⟩ := bind_eq_ok.1 accepted
      exact ⟨guarded.good_of_carries carries, next, first⟩
  | @later stage _ _ next flow _ first applied _ ih =>
      obtain ⟨_, same, others⟩ := bind_eq_ok.1 accepted
      cases first.symm.trans same
      have step : Ensures (Flow.Guarded next.Covers fun _ => True) (fun _ => True)
          (flow.apply cap token stage) :=
        guarded.apply (fun _ _ => trivial) (Stage.sends_covers (fun _ _ => trivial) first
          (fun _ holds => holds) fun _ _ _ _ _ _ => trivial)
      rw [applied] at step
      exact ih others step

theorem guarded_input (contained : ∀ value ∈ input, elementType.Contains value)
    {allowed : RunError → Prop} : (Flow.sequence (Sequence.ofList input)).Guarded
      (Shape.ofElementType elementType).Covers allowed :=
  .sequence (Sequence.guarded_ofList fun value member => (contained value member).admits.covers)

/-- A run of an accepted chain only fails to find a name where it reads a field of an
object of unknown shape. -/
theorem Chain.run_ensures (cap : Nat) (token : CancelToken)
    (accepted : chain.check elementType = .ok ())
    (contained : ∀ value ∈ input, elementType.Contains value) :
    Ensures (fun _ => True)
      (fun error => error.IsOrdinary ∨ ∃ fault, error = .type fault ∧
        chain.RaisesAt cap token elementType input .unknown fault)
      (chain.run cap token input) := by
  obtain ⟨last, inferred⟩ := check_iff.1 accepted
  refine (Chain.through_ensures (fun _ => .inl) inferred (guarded_input contained) ?_).bind
    fun flow behind => behind.finish (fun _ => .inl) (fun _ _ => trivial)
      (fun _ _ _ => trivial) fun _ _ => trivial
  intro stage shape next good inferred holds
  refine stage.sends_covers (fun _ => .inl) inferred
    (fun value element => (holds value element).1) ?_
  intro selector member value element fault raises
  exact .inr ⟨fault, rfl, stage, shape, value, selector, member, (holds value element).2, raises⟩

theorem Chain.not_raisesAt_record (accepted : chain.check elementType = .ok ())
    (contained : ∀ value ∈ input, elementType.Contains value) (schema : Schema)
    (fault : TypeFault) : ¬ chain.RaisesAt cap token elementType input (.record schema) fault := by
  rintro ⟨stage, shape, element, selector, member, reaches, raises⟩
  obtain ⟨last, inferred⟩ := check_iff.1 accepted
  obtain ⟨covers, next, passed⟩ := reaches.covers inferred (guarded_input contained)
  obtain ⟨found, selected⟩ := stage.selectors_shape passed member
  exact selector.not_raisesAt_record covers selected schema fault raises

/-- A chain that is accepted for an element type is run over elements of that type. No
reference, method or function in it is unknown, and no field is missing where the object
was inferred to be a record: a field is only missing where nothing was known of the object. -/
theorem Chain.run_resolves_names (cap : Nat) (token : CancelToken) {elementType : ElementType}
    {chain : Chain} (accepted : chain.check elementType = .ok ()) {input : List Value}
    (contained : ∀ value ∈ input, elementType.Contains value) :
    (∀ name, chain.run cap token input ≠ .error (.type (.unknownReference name)) ∧
      chain.run cap token input ≠ .error (.type (.unknownMethod name)) ∧
      chain.run cap token input ≠ .error (.type (.unknownFunction name))) ∧
    (∀ schema fault, ¬ chain.RaisesAt cap token elementType input (.record schema) fault) ∧
    ∀ fault, fault.IsLookup → chain.run cap token input = .error (.type fault) →
      chain.RaisesAt cap token elementType input .unknown fault := by
  have sites : ∀ fault, fault.IsLookup → chain.run cap token input = .error (.type fault) →
      chain.RaisesAt cap token elementType input .unknown fault := by
    intro fault lookup failed
    have ensures := Chain.run_ensures cap token accepted contained
    rw [failed] at ensures
    rcases ensures with ordinary | ⟨_, same, raises⟩
    · exact absurd lookup ordinary
    · cases same
      exact raises
  have fields : ∀ fault, fault.IsLookup → chain.run cap token input = .error (.type fault) →
      ∃ name, (∃ schema, fault = .noField schema name) ∨ ∃ kind, fault = .fieldOf name kind := by
    intro fault lookup failed
    obtain ⟨_, _, _, _, _, _, raises⟩ := sites fault lookup failed
    exact raises.field_fault
  refine ⟨fun name => ⟨?_, ?_, ?_⟩, not_raisesAt_record accepted contained, sites⟩
  · intro failed
    rcases fields (.unknownReference name) trivial failed with ⟨_, ⟨_, same⟩ | ⟨_, same⟩⟩ <;>
      cases same
  · intro failed
    rcases fields (.unknownMethod name) trivial failed with ⟨_, ⟨_, same⟩ | ⟨_, same⟩⟩ <;>
      cases same
  · intro failed
    rcases fields (.unknownFunction name) trivial failed with ⟨_, ⟨_, same⟩ | ⟨_, same⟩⟩ <;>
      cases same

/-- The names of predators by species, and nothing for the other animals. -/
theorem Chain.run_resolves_names_safari :
    let chain : Chain :=
      [.groupBy (.field "species"),
        .map (.lambda ⟨"a", .conditional (.field (.reference "a") "predator")
          (.method (.reference "a") "name" []) (.literal (.text ""))⟩)]
    chain.check (.record Safari.animalSchema) = .ok () ∧
    (∀ value ∈ [Value.record Safari.leo, .record Safari.gigi],
      (ElementType.record Safari.animalSchema).Contains value) ∧
    (∀ name, chain.run 10 .never [.record Safari.leo, .record Safari.gigi] ≠
      .error (.type (.unknownMethod name))) ∧
    ∀ schema fault, ¬ chain.RaisesAt 10 .never (.record Safari.animalSchema)
      [.record Safari.leo, .record Safari.gigi] (.record schema) fault := by
  intro chain
  have accepted : chain.check (.record Safari.animalSchema) = .ok () := rfl
  have contained : ∀ value ∈ [Value.record Safari.leo, .record Safari.gigi],
      (ElementType.record Safari.animalSchema).Contains value := by
    intro value member
    simp only [List.mem_cons, List.not_mem_nil, or_false] at member
    rcases member with rfl | rfl <;> exact ⟨rfl, fun r same => by cases same; rfl⟩
  have resolved := Chain.run_resolves_names 10 .never accepted contained
  exact ⟨accepted, contained, fun name => (resolved.1 name).2.1, resolved.2.1⟩

end Pipeline
