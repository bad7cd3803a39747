import Pipeline.Number.Integer
import Pipeline.Proofs.Decimals

/-! The texts that read as an integer: its digits, behind any zeros and a sign that may be left out
if it is no minus. -/

set_option autoImplicit false

namespace Pipeline

/-! ## Digits behind zeros -/

theorem digitChar_of_isDigit {c : Char} (digit : isDigit c = true) :
    ∃ value < 10, Nat.digitChar value = c := by
  rw [isDigit, Bool.and_eq_true, Nat.ble_eq, Nat.ble_eq] at digit
  have low : 48 ≤ c.toNat := digit.1
  have high : c.toNat ≤ 57 := digit.2
  refine ⟨c.toNat - 48, by omega, Char.toNat_inj.1 ?_⟩
  rw [Nat.toNat_digitChar_of_lt_ten (by omega)]
  omega

/-- Digits read onto a number other than zero are written behind it. -/
theorem toDigits_ofDigitChars {value : Nat} (some : 0 < value) {digits : List Char}
    (all : ∀ c ∈ digits, isDigit c = true) :
    Nat.toDigits 10 (Nat.ofDigitChars 10 digits value) = Nat.toDigits 10 value ++ digits := by
  induction digits generalizing value with
  | nil => rw [Nat.ofDigitChars_nil, List.append_nil]
  | cons digit rest ih =>
      rw [List.forall_mem_cons] at all
      obtain ⟨last, less, rfl⟩ := digitChar_of_isDigit all.1
      rw [Nat.ofDigitChars_cons_digitChar_of_lt_ten less, ih (by omega) all.2,
        ← Nat.toDigits_append_toDigits (by decide) some less, Nat.toDigits_of_lt_base less,
        List.append_assoc, List.singleton_append]

theorem exists_zeros {digits : List Char} (some : digits ≠ [])
    (all : ∀ c ∈ digits, isDigit c = true) : ∃ zeros, digits =
      List.replicate zeros '0' ++ Nat.toDigits 10 (Nat.ofDigitChars 10 digits 0) := by
  induction digits with
  | nil => exact absurd rfl some
  | cons digit rest ih =>
      rw [List.forall_mem_cons] at all
      obtain ⟨first, less, rfl⟩ := digitChar_of_isDigit all.1
      rw [Nat.ofDigitChars_cons_digitChar_of_lt_ten less, Nat.mul_zero, Nat.zero_add]
      by_cases zero : first = 0
      · subst zero
        by_cases last : rest = []
        · exact ⟨0, by rw [last, Nat.ofDigitChars_nil, Nat.toDigits_zero]; rfl⟩
        · obtain ⟨zeros, same⟩ := ih last all.2
          refine ⟨zeros + 1, ?_⟩
          rw [List.replicate_succ, List.cons_append, ← same]
          rfl
      · refine ⟨0, ?_⟩
        rw [toDigits_ofDigitChars (Nat.pos_of_ne_zero zero) all.2, Nat.toDigits_of_lt_base less]
        rfl

theorem natural?_eq_some_iff {digits : List Char} {n : Nat} : natural? digits = some n ↔
    ∃ zeros, digits = List.replicate zeros '0' ++ Nat.toDigits 10 n := by
  unfold natural?
  rw [digitsValue_eq]
  constructor
  · intro read
    split at read
    · cases read
    · rename_i valid
      rw [Bool.or_eq_true, not_or, Bool.not_eq_true, Bool.not_eq_true', Bool.not_eq_false,
        List.isEmpty_eq_false_iff, List.all_eq_true] at valid
      cases read
      exact exists_zeros valid.1 valid.2
  · rintro ⟨zeros, rfl⟩
    rw [Nat.ofDigitChars_append, Nat.ofDigitChars_replicate_zero, Nat.mul_zero,
      Nat.ofDigitChars_ten_toDigits]
    refine if_neg ?_
    rw [Bool.or_eq_true, not_or, Bool.not_eq_true, Bool.not_eq_true', Bool.not_eq_false,
      List.isEmpty_eq_false_iff, List.all_eq_true]
    refine ⟨List.append_ne_nil_of_right_ne_nil _ Nat.toDigits_ne_nil, fun c member => ?_⟩
    rcases List.mem_append.1 member with zero | digit
    · rw [List.eq_of_mem_replicate zero]
      rfl
    · exact isDigit_of_mem_toDigits digit

/-! ## Signs -/

/-- Whether a text spells an integer: by its digits behind any zeros and a sign. -/
def Spells (text : String) (n : Int) : Prop :=
  ∃ (sign : List Char) (zeros : Nat),
    text.toList = sign ++ (List.replicate zeros '0' ++ Nat.toDigits 10 n.natAbs) ∧
      (0 ≤ n ∧ (sign = [] ∨ sign = ['+']) ∨ n ≤ 0 ∧ sign = ['-'])

theorem isDigit_of_natural? {digits : List Char} {n : Nat} (read : natural? digits = some n) :
    ∀ c ∈ digits, isDigit c = true := by
  unfold natural? at read
  split at read
  · cases read
  · rename_i valid
    rw [Bool.or_eq_true, not_or, Bool.not_eq_true', Bool.not_eq_false, List.all_eq_true] at valid
    exact valid.2

theorem signedInteger?_minus (digits : List Char) :
    signedInteger? ('-' :: digits) = (natural? digits).map fun n : Nat => -(n : Int) := by
  rw [signedInteger?]
  cases natural? digits <;> rfl

theorem signedInteger?_plus (digits : List Char) :
    signedInteger? ('+' :: digits) = (natural? digits).map fun n : Nat => (n : Int) := by
  rw [signedInteger?]
  cases natural? digits <;> rfl

theorem signedInteger?_unsigned {digits : List Char} (minus : ¬∃ rest, digits = '-' :: rest)
    (plus : ¬∃ rest, digits = '+' :: rest) :
    signedInteger? digits = (natural? digits).map fun n : Nat => (n : Int) := by
  unfold signedInteger?
  split
  · exact absurd ⟨_, rfl⟩ minus
  · exact absurd ⟨_, rfl⟩ plus
  · cases natural? digits <;> rfl

theorem signedInteger?_eq_some_iff {text : String} {n : Int} :
    signedInteger? text.toList = some n ↔ Spells text n := by
  constructor
  · intro read
    rw [Spells]
    by_cases minus : ∃ digits, text.toList = '-' :: digits
    · obtain ⟨digits, same⟩ := minus
      rw [same, signedInteger?_minus] at read
      obtain ⟨size, found, rfl⟩ := Option.map_eq_some_iff.1 read
      obtain ⟨zeros, rfl⟩ := natural?_eq_some_iff.1 found
      refine ⟨['-'], zeros, ?_, .inr ⟨by omega, rfl⟩⟩
      rw [same, Int.natAbs_neg, Int.natAbs_natCast]
      rfl
    by_cases plus : ∃ digits, text.toList = '+' :: digits
    · obtain ⟨digits, same⟩ := plus
      rw [same, signedInteger?_plus] at read
      obtain ⟨size, found, rfl⟩ := Option.map_eq_some_iff.1 read
      obtain ⟨zeros, rfl⟩ := natural?_eq_some_iff.1 found
      exact ⟨['+'], zeros, same, .inl ⟨Int.natCast_nonneg size, .inr rfl⟩⟩
    · rw [signedInteger?_unsigned minus plus] at read
      obtain ⟨size, found, rfl⟩ := Option.map_eq_some_iff.1 read
      obtain ⟨zeros, same⟩ := natural?_eq_some_iff.1 found
      exact ⟨[], zeros, same, .inl ⟨Int.natCast_nonneg size, .inl rfl⟩⟩
  · rintro ⟨sign, zeros, same, signed⟩
    have found : natural? (List.replicate zeros '0' ++ Nat.toDigits 10 n.natAbs) = some n.natAbs :=
      natural?_eq_some_iff.2 ⟨zeros, rfl⟩
    rw [same]
    obtain ⟨least, rfl | rfl⟩ | ⟨most, rfl⟩ := signed
    · have all := isDigit_of_natural? found
      rw [List.nil_append, signedInteger?_unsigned, found, Option.map_some,
        Int.natAbs_of_nonneg least]
      · rintro ⟨rest, head⟩
        exact absurd (all '-' (head ▸ .head _)) (by decide)
      · rintro ⟨rest, head⟩
        exact absurd (all '+' (head ▸ .head _)) (by decide)
    · rw [List.cons_append, List.nil_append, signedInteger?_plus, found, Option.map_some,
        Int.natAbs_of_nonneg least]
    · rw [List.cons_append, List.nil_append, signedInteger?_minus, found, Option.map_some,
        Int.ofNat_natAbs_of_nonpos most, Int.neg_neg]

theorem spells_toString (n : Int) : Spells (toString n) n := by
  cases n with
  | ofNat n =>
      refine ⟨[], 0, ?_, .inl ⟨Int.natCast_nonneg n, .inl rfl⟩⟩
      change (Nat.repr n).toList = Nat.toDigits 10 n
      exact String.toList_ofList
  | negSucc n =>
      refine ⟨['-'], 0, ?_, .inr ⟨by omega, rfl⟩⟩
      change ("-" ++ Nat.repr (n + 1)).toList = '-' :: Nat.toDigits 10 (n + 1)
      simp [Nat.repr]

end Pipeline
