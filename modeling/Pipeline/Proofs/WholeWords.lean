import Pipeline.Text.Word

/-! Words that stand whole in a text: a search for some words finds one of them exactly if one of
them stands whole somewhere. -/

set_option autoImplicit false

namespace Pipeline.Text

/-- The word starts and ends with characters of words. -/
def IsWord (word : List Char) : Prop :=
  word.head?.any isWordChar = true ∧ word.getLast?.any isWordChar = true

instance (word : List Char) : Decidable (IsWord word) :=
  inferInstanceAs (Decidable (_ ∧ _))

/-- A word between two texts is not part of a longer one. -/
def Whole (front back : List Char) : Prop :=
  (∀ c, front.getLast? = some c → isWordChar c = false) ∧
    ∀ c, back.head? = some c → isWordChar c = false

/-- The word stands whole somewhere in the text. -/
def Holds (word text : List Char) : Prop :=
  ∃ front back, text = front ++ (word ++ back) ∧ Whole front back

theorem any_isWordChar_eq_false {c? : Option Char} :
    c?.any isWordChar = false ↔ ∀ c, c? = some c → isWordChar c = false := by
  cases c? <;> simp

theorem startsInWord_eq (text : List Char) : startsInWord text = text.head?.any isWordChar := by
  cases text <;> rfl

theorem whole_iff {front back : List Char} :
    Whole front back ↔ front.getLast?.any isWordChar = false ∧ startsInWord back = false := by
  rw [Whole, startsInWord_eq, any_isWordChar_eq_false, any_isWordChar_eq_false]

theorem getLast?_append_ends {blanks masked front : List Char} (some : masked ≠ [])
    (frontEnds : ∀ c, front.getLast? = Option.some c → isWordChar c = false)
    (maskedEnds : front = [] → ∀ c, masked.getLast? = Option.some c → isWordChar c = false) :
    ∀ c, (blanks ++ (masked ++ front)).getLast? = Option.some c → isWordChar c = false := by
  intro c last
  rw [List.getLast?_append, List.getLast?_append] at last
  cases found : front.getLast? with
  | some final =>
      rw [found] at last
      cases last
      exact frontEnds c found
  | none =>
      obtain ⟨final, isFinal⟩ := Option.ne_none_iff_exists'.1 (mt List.getLast?_eq_none_iff.1 some)
      rw [found, isFinal] at last
      cases last
      exact maskedEnds (List.getLast?_eq_none_iff.1 found) c isFinal

/-! ## The search -/

/-- A text starts with a whole word where no character of a word stands in front of it or follows
it. -/
theorem startsWithWord_iff {before : Option Char} {text word : List Char} (isWord : IsWord word) :
    startsWithWord before text word = true ↔
      before.any isWordChar = false ∧ ∃ back, text = word ++ back ∧ startsInWord back = false := by
  obtain ⟨starts, ends⟩ := isWord
  have first : ∀ back, startsInWord (word ++ back) = true := by
    intro back
    cases word with
    | nil => cases starts
    | cons c word => exact starts
  have last : (word.getLast?.or before).any isWordChar = true := by
    cases found : word.getLast? with
    | none =>
        rw [found] at ends
        cases ends
    | some c =>
        rw [found] at ends
        exact ends
  simp only [startsWithWord, atBoundary, Bool.and_eq_true, bne_iff_ne, List.isPrefixOf_iff_prefix]
  constructor
  · intro starts
    obtain ⟨⟨⟨back, rfl⟩, front⟩, behind⟩ := starts
    rw [first] at front
    rw [List.drop_left, last] at behind
    exact ⟨by simpa using front, back, rfl, by simpa using behind⟩
  · intro whole
    obtain ⟨front, back, rfl, behind⟩ := whole
    rw [first, List.drop_left, last, front, behind]
    simp

theorem startsWithWord_of_whole {word front back : List Char} (isWord : IsWord word)
    (whole : Whole front back) :
    startsWithWord front.getLast? (word ++ back) word = true := by
  obtain ⟨before, behind⟩ := whole_iff.1 whole
  exact (startsWithWord_iff isWord).2 ⟨before, back, rfl, behind⟩

theorem getLast?_cons_or (c : Char) (front : List Char) (before : Option Char) :
    (c :: front).getLast?.or before = front.getLast?.or (some c) := by
  rw [List.getLast?_cons]
  cases front.getLast? <;> rfl

/-- A word that is found at one place is found, unless another word is found first. -/
theorem firstWord?_isSome {words : List String} {word : String} (member : word ∈ words)
    {before : Option Char} {front back : List Char}
    (found : startsWithWord (front.getLast?.or before) back word.toList = true) :
    (firstWord? words before (front ++ back)).isSome = true := by
  induction front generalizing before with
  | nil =>
      have here : (words.find? fun word => startsWithWord before back word.toList).isSome = true :=
        List.find?_isSome.2 ⟨word, member, found⟩
      cases back with
      | nil => exact here
      | cons c back =>
          obtain ⟨first, here⟩ := Option.isSome_iff_exists.1 here
          rw [List.nil_append, firstWord?, here]
          rfl
  | cons c front ih =>
      rw [getLast?_cons_or] at found
      have further := ih found
      rw [List.cons_append, firstWord?]
      split
      · rfl
      · exact further

theorem of_firstWord? {words : List String} {word : String} {before : Option Char}
    {text : List Char} (found : firstWord? words before text = some word) :
    word ∈ words ∧ ∃ front back, text = front ++ back ∧
      startsWithWord (front.getLast?.or before) back word.toList = true := by
  induction text generalizing before with
  | nil =>
      have starts := List.find?_some found
      exact ⟨List.mem_of_find?_eq_some found, [], [], rfl, starts⟩
  | cons c text ih =>
      rw [firstWord?] at found
      split at found
      · rename_i here
        cases found
        have starts := List.find?_some here
        exact ⟨List.mem_of_find?_eq_some here, [], c :: text, rfl, starts⟩
      · obtain ⟨member, front, back, rfl, starts⟩ := ih found
        rw [← getLast?_cons_or] at starts
        exact ⟨member, c :: front, back, rfl, starts⟩

theorem holds_of_firstWord? {words : List String} {text : List Char}
    (areWords : ∀ word ∈ words, IsWord word.toList) {word : String}
    (found : firstWord? words none text = some word) : word ∈ words ∧ Holds word.toList text := by
  obtain ⟨member, front, back, rfl, starts⟩ := of_firstWord? found
  rw [Option.or_none, startsWithWord_iff (areWords word member)] at starts
  obtain ⟨before, behind, rfl, ends⟩ := starts
  exact ⟨member, front, behind, rfl, whole_iff.2 ⟨before, ends⟩⟩

/-- No word is found exactly if none stands whole in the text. -/
theorem firstWord?_eq_none_iff {words : List String} {text : List Char}
    (areWords : ∀ word ∈ words, IsWord word.toList) :
    firstWord? words none text = none ↔ ∀ word ∈ words, ¬ Holds word.toList text := by
  constructor
  · intro none word member holds
    obtain ⟨front, back, rfl, whole⟩ := holds
    have starts := startsWithWord_of_whole (areWords word member) whole
    rw [← Option.or_none (o := front.getLast?)] at starts
    have found := firstWord?_isSome member starts
    rw [none] at found
    cases found
  · intro absent
    cases found : firstWord? words none text with
    | none => rfl
    | some word =>
        obtain ⟨member, holds⟩ := holds_of_firstWord? areWords found
        exact absurd holds (absent word member)

/-! ## Where a word stands -/

variable {word front back : List Char}

/-- A text that lacks the first letter of the word only comes before it. -/
theorem Holds.of_append_right {first : Char} (starts : word.head? = some first)
    (absent : first ∉ front) (holds : Holds word (front ++ back)) : Holds word back := by
  obtain ⟨before, behind, joined, whole⟩ := holds
  rcases List.append_eq_append_iff.1 joined with ⟨rest, rfl, same⟩ | ⟨rest, rfl, same⟩
  · refine ⟨rest, behind, same, fun c last => whole.1 c ?_, whole.2⟩
    rw [List.getLast?_append, last]
    rfl
  · cases rest with
    | nil => exact ⟨[], behind, same.symm, nofun, whole.2⟩
    | cons c rest =>
        have here : c = first := by
          cases word with
          | nil => cases starts
          | cons d word => simp_all
        exact absurd (by simp [here]) absent

/-- A word in a whole part of a text stands whole in the text. -/
theorem Holds.between {part : List Char} (holds : Holds word part) (whole : Whole front back) :
    Holds word (front ++ (part ++ back)) := by
  obtain ⟨inner, further, rfl, ends, starts⟩ := holds
  refine ⟨front ++ inner, further ++ back, by simp, fun c last => ?_, fun c first => ?_⟩
  · rw [List.getLast?_append] at last
    cases found : inner.getLast? with
    | none => exact whole.1 c (by simpa [found] using last)
    | some final => exact ends c (by simpa [found] using last)
  · rw [List.head?_append] at first
    cases found : further.head? with
    | none => exact whole.2 c (by simpa [found] using first)
    | some initial => exact starts c (by simpa [found] using first)

/-- A word does not reach over the end of a text where what follows stops it. -/
theorem Holds.of_append {continues : Char → Bool} (some : word ≠ [])
    (all : ∀ c ∈ word, continues c = true)
    (stops : ∀ c, back.head? = Option.some c → continues c = false)
    (holds : Holds word (front ++ back)) : Holds word front ∨ Holds word back := by
  obtain ⟨before, behind, joined, whole⟩ := holds
  rcases List.append_eq_append_iff.1 joined with ⟨rest, rfl, same⟩ | ⟨rest, rfl, same⟩
  · refine .inr ⟨rest, behind, same, fun c last => whole.1 c ?_, whole.2⟩
    rw [List.getLast?_append, last]
    rfl
  · rcases List.append_eq_append_iff.1 same with ⟨beyond, rfl, rfl⟩ | ⟨beyond, rfl, rfl⟩
    · refine .inl ⟨before, beyond, rfl, whole.1, fun c first => whole.2 c ?_⟩
      rw [List.head?_append, first]
      rfl
    · cases beyond with
      | nil =>
          refine .inl ⟨before, [], ?_, whole.1, nofun⟩
          simp
      | cons c beyond =>
          have stopped := stops c rfl
          rw [all c (by simp)] at stopped
          cases stopped

/-- In a text of characters of words there is no whole word but the text itself. -/
theorem holds_iff_eq {text : List Char} (all : ∀ c ∈ text, isWordChar c = true) :
    Holds word text ↔ text = word := by
  constructor
  · intro holds
    obtain ⟨front, back, rfl, ends, starts⟩ := holds
    have noFront : front = [] := by
      rw [← List.getLast?_eq_none_iff, Option.eq_none_iff_forall_ne_some]
      intro c last
      have stops := ends c last
      rw [all c (List.mem_append_left _ (List.mem_of_getLast? last))] at stops
      cases stops
    have noBack : back = [] := by
      rw [← List.head?_eq_none_iff, Option.eq_none_iff_forall_ne_some]
      intro c first
      have stops := starts c first
      have member : c ∈ back := List.mem_of_mem_head? first
      rw [all c (by simp [member])] at stops
      cases stops
    simp [noFront, noBack]
  · intro same
    exact ⟨[], [], by simp [same], nofun, nofun⟩

end Pipeline.Text
