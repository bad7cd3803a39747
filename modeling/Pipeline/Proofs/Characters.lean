import Pipeline.Script.Lexer
import Pipeline.Text.Word

/-! The characters between names: blanks, the signs of symbols and quotes are no characters of
words, whatever version of Unicode decides. -/

set_option autoImplicit false

namespace Pipeline

namespace Text

/-- No range of the one set meets a range of the other one. -/
def CharSet.Apart (first second : CharSet) : Prop :=
  ∀ one ∈ first.ranges, ∀ other ∈ second.ranges, one.2 < other.1 ∨ other.2 < one.1

instance (first second : CharSet) : Decidable (first.Apart second) :=
  inferInstanceAs (Decidable (∀ one ∈ first.ranges, ∀ other ∈ second.ranges,
    one.2 < other.1 ∨ other.2 < one.1))

theorem CharSet.contains_iff {set : CharSet} {c : Char} :
    set.contains c = true ↔ ∃ range ∈ set.ranges, range.1 ≤ c.toNat ∧ c.toNat ≤ range.2 := by
  simp only [contains, List.any_eq_true, Bool.and_eq_true, Nat.ble_eq]

theorem CharSet.Apart.not_contains {first second : CharSet} (apart : first.Apart second) {c : Char}
    (inFirst : first.contains c = true) : second.contains c = false := by
  rw [Bool.eq_false_iff]
  intro inSecond
  obtain ⟨one, oneMember, oneLow, oneHigh⟩ := contains_iff.1 inFirst
  obtain ⟨other, otherMember, otherLow, otherHigh⟩ := contains_iff.1 inSecond
  have := apart one oneMember other otherMember
  omega

theorem CharSet.Apart.symm {first second : CharSet} (apart : first.Apart second) :
    second.Apart first :=
  fun one oneMember other otherMember => (apart other otherMember one oneMember).symm

/-- Comparisons without a decision procedure in between, for sets of many ranges. -/
theorem CharSet.Apart.of_all {first second : CharSet} (all : (first.ranges.all fun one =>
      second.ranges.all fun other => Nat.blt one.2 other.1 || Nat.blt other.2 one.1) = true) :
    first.Apart second := by
  intro one oneMember other otherMember
  have apart := List.all_eq_true.1 (List.all_eq_true.1 all one oneMember) other otherMember
  simpa only [Bool.or_eq_true, Nat.blt_eq] using apart

theorem blank_apart : blank.Apart alphabetic ∧ blank.Apart numeral ∧ blank.Apart mark ∧
    blank.Apart decimalDigit ∧ blank.Apart connector :=
  ⟨.of_all (by decide +kernel), .of_all (by decide +kernel), .of_all (by decide +kernel),
    .of_all (by decide +kernel), .of_all (by decide +kernel)⟩

theorem isWordChar_of_isBlank {c : Char} (isBlank : isBlank c = true) : isWordChar c = false := by
  obtain ⟨letters, -, marks, decimals, connectors⟩ := blank_apart
  have joiners : c ≠ '\u200c' ∧ c ≠ '\u200d' := by
    constructor <;> rintro rfl <;> revert isBlank <;> decide
  simp [isWordChar, isLetter, letters.not_contains isBlank, marks.not_contains isBlank,
    decimals.not_contains isBlank, connectors.not_contains isBlank, joiners]

theorem isLetter_of_isAlpha {c : Char} (letter : c.isAlpha = true) : isLetter c = true := by
  obtain upper | lower := Bool.or_eq_true_iff.1 letter
  · exact CharSet.contains_iff.2 ⟨(0x41, 0x5a), .head _, of_decide_eq_true upper⟩
  · obtain ⟨low, high⟩ := Bool.and_eq_true_iff.1 lower
    exact CharSet.contains_iff.2
      ⟨(0x61, 0x7a), .tail _ (.head _), of_decide_eq_true low, of_decide_eq_true high⟩

end Text

namespace Scan

/-- The characters of which symbols are made. -/
def signs : List Char :=
  ['-', '>', '=', '!', '<', '&', '|', '.', ',', '?', ':', '(', ')', '+', '*', '/', '%']

/-- The character opens and closes texts. -/
def IsQuote (c : Char) : Prop :=
  c = '"' ∨ c = '\''

instance (c : Char) : Decidable (IsQuote c) :=
  inferInstanceAs (Decidable (_ ∨ _))

/-- Quotes and signs are seen, and stand between names. -/
theorem outside_names : ∀ c ∈ '"' :: '\'' :: signs,
    Text.isWordChar c = false ∧ continuesName c = false ∧ Text.isBlank c = false := by
  have none : ('"' :: '\'' :: signs).all
      (fun c => !(Text.isWordChar c || continuesName c || Text.isBlank c)) = true := by
    decide +kernel
  intro c member
  simpa only [Bool.not_eq_true', Bool.or_eq_false_iff, and_assoc] using
    List.all_eq_true.1 none c member

theorem mem_of_isQuote {c : Char} (quote : IsQuote c) : c ∈ '"' :: '\'' :: signs := by
  rcases quote with rfl | rfl
  · exact .head _
  · exact .tail _ (.head _)

theorem isWordChar_of_mem_signs {c : Char} (sign : c ∈ signs) : Text.isWordChar c = false :=
  (outside_names c (.tail _ (.tail _ sign))).1

theorem isWordChar_of_isQuote {c : Char} (quote : IsQuote c) : Text.isWordChar c = false :=
  (outside_names c (mem_of_isQuote quote)).1

theorem continuesName_of_mem_signs {c : Char} (sign : c ∈ signs) : continuesName c = false :=
  (outside_names c (.tail _ (.tail _ sign))).2.1

theorem not_mem_signs_of_continuesName {c : Char} (continues : continuesName c = true) :
    c ∉ signs := by
  intro sign
  rw [continuesName_of_mem_signs sign] at continues
  cases continues

theorem not_isQuote_of_mem_signs {c : Char} (sign : c ∈ signs) : ¬ IsQuote c := by
  rintro (rfl | rfl) <;> simp [signs] at sign

theorem not_isQuote_of_isBlank {c : Char} (blank : Text.isBlank c = true) : ¬ IsQuote c := by
  intro quote
  rw [(outside_names c (mem_of_isQuote quote)).2.2] at blank
  cases blank

theorem not_isQuote_of_continuesName {c : Char} (continues : continuesName c = true) :
    ¬ IsQuote c := by
  intro quote
  rw [(outside_names c (mem_of_isQuote quote)).2.1] at continues
  cases continues

theorem not_isQuote_of_isDigit {c : Char} (digit : isDigit c = true) : ¬ IsQuote c := by
  rintro (rfl | rfl) <;> revert digit <;> decide

theorem continuesName_of_isDigit {c : Char} (digit : isDigit c = true) :
    continuesName c = true := by
  have numeral : Text.numeral.contains c = true := by
    rw [isDigit, Bool.and_eq_true, Nat.ble_eq, Nat.ble_eq] at digit
    exact Text.CharSet.contains_iff.2 ⟨(0x30, 0x39), .head _, digit⟩
  simp [continuesName, Text.isLetterOrNumeral, numeral]

theorem continuesName_of_startsName {c : Char} (starts : startsName c = true) :
    continuesName c = true := by
  simp only [startsName, Bool.or_eq_true] at starts
  rcases starts with letter | underscore
  · simp [continuesName, Text.isLetterOrNumeral, letter]
  · simp [continuesName, underscore]

theorem startsName_of_isAlpha {c : Char} (letter : c.isAlpha = true) : startsName c = true := by
  simp [startsName, Text.isLetter_of_isAlpha letter]

end Scan

end Pipeline
