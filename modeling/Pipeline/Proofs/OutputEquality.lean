import Pipeline.Proofs.Denotation
import Pipeline.Proofs.Lookup
import Pipeline.Proofs.Parts

/-! Outputs are equal exactly if they are built alike from what their numbers denote. -/

set_option autoImplicit false

namespace Pipeline

/-- What an output amounts to: each number is the rational that it denotes, and a map is a function
of its keys. Booleans stand only in the fields of records. -/
inductive Canonical where
  | number (value : ℚ)
  | text (value : String)
  | boolean (value : Bool)
  | list (items : List Canonical)
  | map (value? : Key → Option Canonical)
  | record (name : String) (fields : List (String × Canonical))

def Scalar.canonical : Scalar → Canonical
  | number n => .number n.toRat
  | text s => .text s
  | boolean b => .boolean b

def Record.canonical (r : Record) : Canonical :=
  .record r.schema.name (r.fields.map fun (name, value) => (name, value.canonical))

namespace Output

mutual

def canonical : Output → Canonical
  | number n => .number n.toRat
  | text s => .text s
  | list items => .list (canonicalItems items)
  | map entries => .map fun key => (canonicalEntries entries).lookup key
  | record r => r.canonical
termination_by structural output => output

def canonicalItems : List Output → List Canonical
  | [] => []
  | item :: rest => canonical item :: canonicalItems rest
termination_by structural items => items

def canonicalEntries : List (Key × Output) → List (Key × Canonical)
  | [] => []
  | (key, value) :: rest => (key, canonical value) :: canonicalEntries rest
termination_by structural entries => entries

end

theorem canonicalEntries_eq (entries : List (Key × Output)) :
    canonicalEntries entries = entries.map fun (key, value) => (key, value.canonical) := by
  induction entries with
  | nil => rfl
  | cons entry rest ih => rw [canonicalEntries, ih, List.map_cons]

/-- Maps are in the order of their keys, as they are always kept, and no number is infinite or none
at all, also not in a record. -/
def Proper : Output → Prop
  | number n => n.IsFinite
  | map entries => InKeyOrder entries
  | record r => ∀ name n, (name, .number n) ∈ r.fields → n.IsFinite
  | text _ | list _ => True

end Output

theorem Scalar.equals_iff {a b : Scalar} (finiteA : ∀ n, a = .number n → n.IsFinite)
    (finiteB : ∀ n, b = .number n → n.IsFinite) :
    a.equals b = true ↔ a.canonical = b.canonical := by
  cases a with
  | number m =>
      cases b with
      | number n =>
          simpa [equals, canonical] using Number.equals_iff (finiteA m rfl) (finiteB n rfl)
      | text _ | boolean _ => simp [equals, canonical]
  | text _ | boolean _ => cases b <;> simp [equals, canonical]

theorem Record.equalFields_iff {as bs : List (String × Scalar)}
    (finiteA : ∀ name n, (name, .number n) ∈ as → n.IsFinite)
    (finiteB : ∀ name n, (name, .number n) ∈ bs → n.IsFinite) :
    equalFields as bs = true ↔ (as.map fun (name, value) => (name, value.canonical)) =
      bs.map fun (name, value) => (name, value.canonical) := by
  induction as generalizing bs with
  | nil => cases bs <;> simp [equalFields]
  | cons first as ih =>
      cases bs with
      | nil => simp [equalFields]
      | cons other bs =>
          have rest := ih (fun name n member => finiteA name n (.tail _ member))
            (fun name n member => finiteB name n (.tail _ member))
          have values : first.2.equals other.2 = true ↔ first.2.canonical = other.2.canonical :=
            Scalar.equals_iff (fun n same => finiteA first.1 n (same ▸ .head _))
              (fun n same => finiteB other.1 n (same ▸ .head _))
          rw [equalFields, Bool.and_eq_true, Bool.and_eq_true, beq_iff_eq, values, rest,
            List.map_cons, List.map_cons, List.cons.injEq, Prod.mk.injEq]

theorem Record.equals_iff {r s : Record}
    (finiteR : ∀ name n, (name, .number n) ∈ r.fields → n.IsFinite)
    (finiteS : ∀ name n, (name, .number n) ∈ s.fields → n.IsFinite) :
    r.equals s = true ↔ r.canonical = s.canonical := by
  rw [equals, Bool.and_eq_true, beq_iff_eq, equalFields_iff finiteR finiteS, canonical, canonical,
    Canonical.record.injEq]

namespace Output

theorem equalItems_iff {as bs : List Output}
    (parts : ∀ a ∈ as, ∀ b ∈ bs, (a.equals b = true ↔ a.canonical = b.canonical)) :
    equalItems as bs = true ↔ canonicalItems as = canonicalItems bs := by
  induction as generalizing bs with
  | nil => cases bs <;> simp [equalItems, canonicalItems]
  | cons a as ih =>
      cases bs with
      | nil => simp [equalItems, canonicalItems]
      | cons b bs =>
          have rest := ih fun a memberA b memberB => parts a (.tail _ memberA) b (.tail _ memberB)
          rw [equalItems, Bool.and_eq_true, parts a (.head _) b (.head _), rest, canonicalItems,
            canonicalItems, List.cons.injEq]

theorem equalEntries_iff {as bs : List (Key × Output)}
    (parts : ∀ key a, (key, a) ∈ as → ∀ other b, (other, b) ∈ bs →
      (a.equals b = true ↔ a.canonical = b.canonical)) :
    equalEntries as bs = true ↔ canonicalEntries as = canonicalEntries bs := by
  induction as generalizing bs with
  | nil => cases bs <;> simp [equalEntries, canonicalEntries]
  | cons first as ih =>
      cases bs with
      | nil => simp [equalEntries, canonicalEntries]
      | cons other bs =>
          have rest := ih fun key a memberA other b memberB =>
            parts key a (.tail _ memberA) other b (.tail _ memberB)
          rw [equalEntries, Bool.and_eq_true, Bool.and_eq_true, beq_iff_eq,
            parts first.1 first.2 (.head _) other.1 other.2 (.head _), rest, canonicalEntries,
            canonicalEntries, List.cons.injEq, Prod.mk.injEq]

theorem canonical_map_iff {as bs : List (Key × Output)} (orderedA : InKeyOrder as)
    (orderedB : InKeyOrder bs) : (map as).canonical = (map bs).canonical ↔
      canonicalEntries as = canonicalEntries bs := by
  rw [canonical, canonical, Canonical.map.injEq]
  refine ⟨fun same => ?_, fun same => same ▸ rfl⟩
  have ordered : ∀ entries, InKeyOrder entries → InKeyOrder (canonicalEntries entries) :=
    fun entries ordered => canonicalEntries_eq entries ▸ ordered.map _
  exact (ordered as orderedA).eq_of_lookup (ordered bs orderedB) (congrFun same)

theorem equals_iff_canonical {a b : Output} (properA : a.Everywhere Proper)
    (properB : b.Everywhere Proper) : a.equals b = true ↔ a.canonical = b.canonical := by
  induction a using Output.induct generalizing b with
  | number m =>
      cases b with
      | number n => simpa [equals, canonical] using Number.equals_iff properA.self properB.self
      | record s => simp [equals, canonical, Record.canonical]
      | text _ | list _ | map _ => simp [equals, canonical]
  | text s => cases b <;> simp [equals, canonical, Record.canonical]
  | list as ih =>
      cases b with
      | list bs =>
          have partsA := (everywhere_list_iff.1 properA).2
          have partsB := (everywhere_list_iff.1 properB).2
          rw [equals, canonical, canonical, Canonical.list.injEq]
          exact equalItems_iff fun a memberA b memberB =>
            ih a memberA (partsA a memberA) (partsB b memberB)
      | record s => simp [equals, canonical, Record.canonical]
      | number _ | text _ | map _ => simp [equals, canonical]
  | map as ih =>
      cases b with
      | map bs =>
          obtain ⟨orderedA, partsA⟩ := everywhere_map_iff.1 properA
          obtain ⟨orderedB, partsB⟩ := everywhere_map_iff.1 properB
          rw [equals, canonical_map_iff orderedA orderedB]
          exact equalEntries_iff fun key a memberA other b memberB =>
            ih key a memberA (partsA key a memberA) (partsB other b memberB)
      | record s => simp [equals, canonical, Record.canonical]
      | number _ | text _ | list _ => simp [equals, canonical]
  | record r =>
      cases b with
      | record s => exact Record.equals_iff properA.self properB.self
      | number _ | text _ | list _ | map _ => simp [equals, canonical, Record.canonical]

theorem shape_eq_of_equals {a b : Output} (equal : a.equals b = true) : a.shape = b.shape := by
  cases a <;> cases b <;> first | rfl | cases equal

/-- Equality of outputs is that of what they amount to, and so an equivalence that respects their
shapes. -/
theorem equals_structural {a b c : Output} (properA : a.Everywhere Proper)
    (properB : b.Everywhere Proper) (properC : c.Everywhere Proper) :
    (a.equals b = true ↔ a.canonical = b.canonical) ∧ a.equals a = true ∧
      (a.equals b = true → b.equals a = true) ∧
      (a.equals b = true → b.equals c = true → a.equals c = true) ∧
      (a.equals b = true → a.shape = b.shape) := by
  refine ⟨equals_iff_canonical properA properB, (equals_iff_canonical properA properA).2 rfl, ?_,
    ?_, shape_eq_of_equals⟩
  · intro equal
    have same := (equals_iff_canonical properA properB).1 equal
    exact (equals_iff_canonical properB properA).2 same.symm
  · intro first second
    have same := (equals_iff_canonical properA properB).1 first
    have next := (equals_iff_canonical properB properC).1 second
    exact (equals_iff_canonical properA properC).2 (same.trans next)

/-- A map with integers, with doubles of the same values, and with a zero of the other sign and a
schema that orders its records by weight. -/
theorem equals_structural_weights :
    let animal (key : Option String) (weight : Number) : Output :=
      record ⟨⟨"Animal", [⟨"weight", .number⟩], key⟩, [.number weight]⟩
    let output (zero : Double) (three weight : Number) (key : Option String) : Output :=
      map [(.integer 3, list [number three, number (.float zero)]), (.text "a", animal key weight)]
    let a := output ⟨0⟩ (.integer 3) (.integer 6000) none
    let b := output ⟨0⟩ (.float ⟨0x4008000000000000⟩) (.float ⟨0x40b7700000000000⟩) none
    let c := output ⟨0x8000000000000000⟩ (.integer 3) (.integer 6000) (some "weight")
    (a.Everywhere Proper ∧ b.Everywhere Proper ∧ c.Everywhere Proper) ∧
      a.canonical = b.canonical ∧ a.equals a = true ∧ b.equals a = true ∧ a.equals c = true ∧
      a.shape = b.shape := by
  intro animal output a b c
  have proper : ∀ zero three weight key, (Number.float zero).IsFinite → three.IsFinite →
      weight.IsFinite → (output zero three weight key).Everywhere Proper := by
    intro zero three weight key finiteZero finiteThree finiteWeight
    have numbers : (list [number three, number (.float zero)]).Everywhere Proper := by
      simp [everywhere_list_iff, everywhere_number_iff, Proper, finiteZero, finiteThree]
    have record : (animal key weight).Everywhere Proper := by
      simp [animal, everywhere_record_iff, Proper, Record.fields, finiteWeight]
    refine everywhere_map_iff.2 ⟨by simp [Proper, InKeyOrder, Key.order], fun _ _ member => ?_⟩
    rcases List.mem_cons.1 member with same | member
    · cases same
      exact numbers
    · cases List.mem_singleton.1 member
      exact record
  have properA : a.Everywhere Proper := proper _ _ _ _ rfl trivial trivial
  have properB : b.Everywhere Proper := proper _ _ _ _ rfl rfl rfl
  have properC : c.Everywhere Proper := proper _ _ _ _ rfl trivial trivial
  have equal : a.equals b = true := by decide
  have last : b.equals c = true := by decide
  obtain ⟨canonical, self, symm, trans, shape⟩ := equals_structural properA properB properC
  exact ⟨⟨properA, properB, properC⟩, canonical.1 equal, self, symm equal, trans equal last,
    shape equal⟩

end Output

end Pipeline
