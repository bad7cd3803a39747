import Pipeline.Proofs.Contents
import Pipeline.Proofs.Ordering
import Pipeline.Proofs.Parts
import Pipeline.Run.Flow

/-! Removing repeats keeps the elements that equal none of those kept before them, whatever hash
function the fingerprints are taken with. Equal values have equal imprints, so an element that is
kept can only be missed in the bucket of its own fingerprint. -/

set_option autoImplicit false

namespace Pipeline

/-! ## Imprints -/

namespace Mark

theorem ofDouble_eq {x y : Double} (same : x.numericEq y = true) : ofDouble x = ofDouble y := by
  simp only [Double.numericEq, Bool.and_eq_true, Bool.or_eq_true, beq_iff_eq] at same
  rcases same.2 with rfl | ⟨zeroX, zeroY⟩
  · rfl
  · rw [ofDouble, ofDouble, if_pos zeroX, if_pos zeroY]

theorem ofScalar_eq {a b : Scalar} (same : a.same b = true) : ofScalar a = ofScalar b := by
  cases a with
  | number m =>
      cases b with
      | number n =>
          cases m <;> cases n
          · rw [beq_iff_eq.1 same]
          · cases same
          · cases same
          · rw [ofScalar, ofScalar, ofDouble_eq same]
      | text t | boolean q => cases same
  | text s =>
      cases b with
      | text t => rw [beq_iff_eq.1 same]
      | number n | boolean q => cases same
  | boolean p =>
      cases b with
      | boolean q => rw [beq_iff_eq.1 same]
      | number n | text t => cases same

theorem flatMap_ofScalar_eq {as bs : List Scalar} (same : Record.sameValues as bs = true) :
    as.flatMap ofScalar = bs.flatMap ofScalar := by
  fun_induction Record.sameValues as bs with
  | case1 => rfl
  | case2 a as b bs ih =>
      obtain ⟨first, rest⟩ := Bool.and_eq_true_iff.1 same
      rw [List.flatMap_cons, List.flatMap_cons, ofScalar_eq first, ih rest]
  | case3 => cases same

theorem ofItems_eq {as bs : List Value}
    (each : ∀ a ∈ as, ∀ b, a.same b = true → ofValue a = ofValue b)
    (same : Value.sameItems as bs = true) : as.length = bs.length ∧ ofItems as = ofItems bs := by
  induction as generalizing bs with
  | nil =>
      cases bs with
      | nil => exact ⟨rfl, rfl⟩
      | cons b bs => cases same
  | cons a as ih =>
      cases bs with
      | nil => cases same
      | cons b bs =>
          obtain ⟨first, others⟩ := List.forall_mem_cons.1 each
          obtain ⟨equal, rest⟩ := Bool.and_eq_true_iff.1 same
          obtain ⟨length, behind⟩ := ih others rest
          refine ⟨congrArg (· + 1) length, ?_⟩
          rw [ofItems, ofItems, first b equal, behind]

theorem ofEntries_eq {as bs : List (Key × Value)}
    (each : ∀ key a, (key, a) ∈ as → ∀ b, a.same b = true → ofValue a = ofValue b)
    (same : Value.sameEntries as bs = true) :
    as.length = bs.length ∧ ofEntries as = ofEntries bs := by
  induction as generalizing bs with
  | nil =>
      cases bs with
      | nil => exact ⟨rfl, rfl⟩
      | cons b bs => cases same
  | cons entry as ih =>
      cases bs with
      | nil => cases same
      | cons other bs =>
          obtain ⟨first, rest⟩ := Bool.and_eq_true_iff.1 same
          obtain ⟨keys, equal⟩ := Bool.and_eq_true_iff.1 first
          obtain ⟨length, behind⟩ := ih (fun key a member => each key a (.tail _ member)) rest
          refine ⟨congrArg (· + 1) length, ?_⟩
          rw [ofEntries, ofEntries, beq_iff_eq.1 keys, each _ _ (.head _) _ equal, behind]

/-- Equal values have equal imprints: the parts in which they may differ, the sign of a zero, leave
none. -/
theorem ofValue_eq {a b : Value} (same : a.same b = true) : ofValue a = ofValue b := by
  induction a using Value.induct generalizing b with
  | scalar s =>
      cases b with
      | scalar t => exact ofScalar_eq same
      | list others | map others | record other => cases same
  | list items ih =>
      cases b with
      | list others =>
          obtain ⟨length, equal⟩ := ofItems_eq (fun a member b => ih a member) same
          rw [ofValue, ofValue, length, equal]
      | scalar t | map others | record other => cases same
  | map entries ih =>
      cases b with
      | map others =>
          obtain ⟨length, equal⟩ := ofEntries_eq (fun key a member b => ih key a member) same
          rw [ofValue, ofValue, length, equal]
      | scalar t | list others | record other => cases same
  | record r =>
      cases b with
      | record other =>
          obtain ⟨schemas, values⟩ := Bool.and_eq_true_iff.1 same
          rw [ofValue, ofValue, beq_iff_eq.1 schemas, flatMap_ofScalar_eq values]
      | scalar t | list others | map others => cases same

end Mark

/-! ## The elements that are kept -/

/-- Goes through the elements and compares each one with all those kept before it. -/
def keepNew (kept : List Value) : List Value → List Value
  | [] => []
  | value :: rest =>
    if kept.any (·.same value) then keepNew kept rest
    else value :: keepNew (value :: kept) rest

/-- Among values that equal nothing else, each one is kept once. -/
theorem mem_keepNew {values : List Value}
    (exact : ∀ value ∈ values, ∀ a : Value, a.same value = true ↔ a = value) (kept : List Value) :
    (∀ value, value ∈ keepNew kept values ↔ value ∈ values ∧ value ∉ kept) ∧
      (keepNew kept values).Nodup := by
  induction values generalizing kept with
  | nil => simp [keepNew]
  | cons first rest ih =>
      obtain ⟨own, others⟩ := List.forall_mem_cons.1 exact
      have present : kept.any (·.same first) = true ↔ first ∈ kept := by
        simp [List.any_eq_true, own]
      rw [keepNew]
      split
      · rename_i repeated
        obtain ⟨members, nodup⟩ := ih others kept
        refine ⟨fun value => ?_, nodup⟩
        have old := present.1 repeated
        rw [members, List.mem_cons]
        constructor
        · exact fun ⟨later, new⟩ => ⟨.inr later, new⟩
        · rintro ⟨rfl | later, new⟩
          · exact absurd old new
          · exact ⟨later, new⟩
      · rename_i missing
        obtain ⟨members, nodup⟩ := ih others (first :: kept)
        have new := present.not.1 missing
        refine ⟨fun value => ?_, List.nodup_cons.2 ⟨fun again => ?_, nodup⟩⟩
        · rw [List.mem_cons, members, List.mem_cons, List.mem_cons, not_or]
          by_cases same : value = first
          · simp [same, new]
          · simp [same]
        · exact ((members first).1 again).2 (.head _)

/-! ## Buckets -/

namespace Seen

/-- Every bucket holds the elements kept with its fingerprint. -/
def Filed (hash : List Mark → UInt64) (seen : Seen) : Prop :=
  ∀ fingerprint, seen.buckets.getD fingerprint [] =
    seen.kept.filter fun value => hash (Mark.ofValue value) == fingerprint

variable {hash : List Mark → UInt64} {seen : Seen}

/-- An element equal to one that is kept has its fingerprint, so it is found in the bucket. -/
theorem Filed.any_bucket (filed : seen.Filed hash) (value : Value) :
    (seen.buckets.getD (hash (Mark.ofValue value)) []).any (·.same value) =
      seen.kept.any (·.same value) := by
  rw [filed, List.any_filter]
  congr 1
  funext kept
  cases same : kept.same value with
  | false => exact Bool.and_false _
  | true => simp [Mark.ofValue_eq same]

theorem Filed.add (filed : seen.Filed hash) (value : Value) :
    (seen.add hash value).Filed hash ∧ (seen.add hash value).kept =
      if seen.kept.any (·.same value) then seen.kept else value :: seen.kept := by
  rw [Seen.add, filed.any_bucket]
  split
  · exact ⟨filed, rfl⟩
  · refine ⟨fun fingerprint => ?_, rfl⟩
    rw [Std.HashMap.getD_insert, List.filter_cons]
    split
    · rename_i own
      rw [beq_iff_eq.1 own, filed]
    · exact filed fingerprint

theorem Filed.foldl_add (filed : seen.Filed hash) (values : List Value) :
    (values.foldl (Seen.add hash) seen).kept = (keepNew seen.kept values).reverse ++ seen.kept := by
  induction values generalizing seen with
  | nil => rfl
  | cons value rest ih =>
      obtain ⟨behind, kept⟩ := filed.add value
      rw [List.foldl_cons, ih behind, kept, keepNew]
      split
      · rfl
      · rw [List.reverse_cons, List.append_assoc]
        rfl

end Seen

theorem distinctBy_eq (hash : List Mark → UInt64) (values : List Value) :
    distinctBy hash values = keepNew [] values := by
  have empty : Seen.Filed hash ⟨∅, []⟩ := fun _ => Std.HashMap.getD_empty
  rw [distinctBy, empty.foldl_add, List.append_nil, List.reverse_reverse]

theorem Chain.run_distinct {cap : Nat} {input : List Value} (within : input.length ≤ cap) :
    Chain.run cap .never [.distinct] input =
      .ok (.list (distinctBy Mark.hashAll input)) := by
  have fewer := (distinctBy_sublist Mark.hashAll input).length_le
  simp only [run, through, Flow.apply, Stage.onSequence, Sequence.materialize_ofList within,
    bind, Except.bind, Flow.finish, Sequence.materialize_ofList (fewer.trans within), Except.map]

/-- The repeats that are removed are the elements equal to one kept before them, whatever hash
function sorts them into buckets: equal values share their fingerprint. -/
theorem distinctBy_keepNew (hash : List Mark → UInt64) :
    (∀ values, distinctBy hash values = keepNew [] values) ∧
      (∀ a b : Value, a.same b = true → hash (Mark.ofValue a) = hash (Mark.ofValue b)) ∧
      ∀ cap input, input.length ≤ cap →
        Chain.run cap .never [.distinct] input = .ok (.list (keepNew [] input)) := by
  refine ⟨distinctBy_eq hash, fun a b same => congrArg hash (Mark.ofValue_eq same),
    fun cap input within => ?_⟩
  rw [Chain.run_distinct within, distinctBy_eq]

/-- All elements share one bucket. Values that differ only in the sign of a zero are equal, and what
is no number is not even equal to itself. -/
theorem distinctBy_keepNew_collisions :
    let zero : Double := .ofParts false 0
    let negativeZero : Double := .ofParts true 0
    let invalid : Value := .float (.ofParts false (Double.infinite + 1))
    let weighing (weight : Double) : Value :=
      .record ⟨⟨"Animal", [⟨"weight", .number⟩], none⟩, [.number (.float weight)]⟩
    let grouped (weight : Double) : Value := .map [(.text "a", .list [.float weight])]
    let input := [weighing zero, invalid, grouped negativeZero, weighing negativeZero, invalid,
      .integer 0, grouped zero]
    let kept := [weighing zero, invalid, grouped negativeZero, invalid, .integer 0]
    distinctBy (fun _ => 0) input = kept ∧
      ((grouped zero).same (grouped negativeZero) = true ∧
        Mark.hashAll (Mark.ofValue (grouped zero)) =
          Mark.hashAll (Mark.ofValue (grouped negativeZero))) ∧
      input.length ≤ 7 ∧ Chain.run 7 .never [.distinct] input = .ok (.list kept) := by
  intro zero negativeZero invalid weighing grouped input kept
  obtain ⟨naive, -, -⟩ := distinctBy_keepNew fun _ => 0
  obtain ⟨-, fingerprints, run⟩ := distinctBy_keepNew Mark.hashAll
  have same : (grouped zero).same (grouped negativeZero) = true := by with_unfolding_all rfl
  have first : keepNew [] input = kept := by with_unfolding_all rfl
  refine ⟨(naive input).trans first, ⟨same, fingerprints _ _ same⟩, Nat.le_refl 7, ?_⟩
  rw [run 7 input (Nat.le_refl 7), first]

end Pipeline
