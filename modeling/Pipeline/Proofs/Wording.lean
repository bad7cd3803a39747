import Pipeline.Proofs.Lexing

/-! Words, numbers and texts as scripts may write them down, each in front of a rest that does not
go on with it. -/

set_option autoImplicit false

namespace Pipeline.Scan

/-- The text writes the digits down; a digit may be separated from the next one. -/
inductive WritesDigits : List Char → List Char → Prop where
  | last {digit : Char} : isDigit digit = true → WritesDigits [digit] [digit]
  | next {digit : Char} {digits text : List Char} : isDigit digit = true →
      WritesDigits digits text → WritesDigits (digit :: digits) (digit :: text)
  | separated {digit : Char} {digits text : List Char} : isDigit digit = true →
      WritesDigits digits text → WritesDigits (digit :: digits) (digit :: '_' :: text)

/-- The text writes the content down between such quotes. What has an escape may be escaped; the
quote and the backslash have to be. -/
inductive WritesText (quote : Char) : List Char → List Char → Prop where
  | nil : WritesText quote [] []
  | plain {c : Char} {content text : List Char} : c ≠ quote → c ≠ '\\' →
      WritesText quote content text → WritesText quote (c :: content) (c :: text)
  | escape {letter c : Char} {content text : List Char} : escaped? letter = some c →
      WritesText quote content text → WritesText quote (c :: content) ('\\' :: letter :: text)

variable {tail : List Char}

/-! ## Words -/

theorem takes_word {word : String} {first : Char} {others : List Char}
    (same : word.toList = first :: others) (starts : startsName first = true)
    (continues : ∀ c ∈ others, continuesName c = true)
    (ended : ∀ c, tail.head? = some c → continuesName c = false) :
    Takes (word.toList ++ tail) (wordToken word) tail := by
  have all : ∀ c ∈ first :: others, continuesName c = true :=
    List.forall_mem_cons.2 ⟨continuesName_of_startsName starts, continues⟩
  have stopped : tail.takeWhile continuesName = [] ∧ tail.dropWhile continuesName = tail := by
    cases tail with
    | nil => exact ⟨rfl, rfl⟩
    | cons c tail => simp [ended c rfl]
  have takes := @Takes.word first (others ++ tail) starts
  rw [← List.cons_append, List.takeWhile_append_of_pos all, List.dropWhile_append_of_pos all,
    stopped.1, stopped.2, List.append_nil, ← same, String.ofList_toList] at takes
  exact takes

theorem takes_keyword {word : String} (some : word.toList ≠ [])
    (letters : word.toList.all Char.isAlpha = true)
    (ended : ∀ c, tail.head? = Option.some c → continuesName c = false) :
    Takes (word.toList ++ tail) (wordToken word) tail := by
  obtain ⟨first, others, same⟩ := List.exists_cons_of_ne_nil some
  rw [same, List.all_eq_true] at letters
  have starts := fun c member => startsName_of_isAlpha (letters c member)
  exact takes_word same (starts first (.head _))
    (fun c member => continuesName_of_startsName (starts c (.tail _ member))) ended

/-! ## Numbers -/

theorem writesDigits_self {digits : List Char} (some : digits ≠ [])
    (all : ∀ c ∈ digits, isDigit c = true) : WritesDigits digits digits := by
  induction digits with
  | nil => exact absurd rfl some
  | cons digit digits ih =>
      obtain ⟨first, others⟩ := List.forall_mem_cons.1 all
      cases digits with
      | nil => exact .last first
      | cons next digits => exact .next first (ih (List.cons_ne_nil _ _) others)

theorem WritesDigits.exists_cons {digits text : List Char} (writes : WritesDigits digits text) :
    ∃ first others, text = first :: others ∧ isDigit first = true := by
  cases writes with
  | last digit => exact ⟨_, _, rfl, digit⟩
  | next digit _ => exact ⟨_, _, rfl, digit⟩
  | separated digit _ => exact ⟨_, _, rfl, digit⟩

theorem readDigits_separated {first : Char} (digit : isDigit first = true) (text : List Char) :
    readDigits ('_' :: first :: text) = readDigits (first :: text) := by
  rw [readDigits, if_pos digit]

theorem WritesDigits.readDigits {digits text : List Char} (writes : WritesDigits digits text)
    (ended : ∀ c, tail.head? = some c → isDigit c = false ∧ c ≠ '_') :
    readDigits (text ++ tail) = (digits, tail) := by
  induction writes with
  | last digit =>
      have stopped : Scan.readDigits tail = ([], tail) := by
        refine readDigits_of_head? (fun c first => (ended c first).1) fun rest same => ?_
        exact absurd rfl (ended '_' (by rw [same]; rfl)).2
      rw [List.singleton_append, readDigits_cons digit, stopped]
  | next digit _ ih => rw [List.cons_append, readDigits_cons digit, ih]
  | separated digit writes ih =>
      obtain ⟨first, others, rfl, firstDigit⟩ := writes.exists_cons
      rw [List.cons_append] at ih
      rw [List.cons_append, List.cons_append, List.cons_append, readDigits_cons digit,
        readDigits_separated firstDigit, ih]

variable (ended : ∀ c, tail.head? = some c → isDigit c = false ∧ c ≠ '_' ∧ c ≠ '.')
include ended

theorem takes_digits {digits text : List Char} (writes : WritesDigits digits text) :
    Takes (text ++ tail) (.integer (String.ofList digits)) tail := by
  have read := writes.readDigits fun c first => ⟨(ended c first).1, (ended c first).2.1⟩
  have number : readNumber (text ++ tail) = (.integer (String.ofList digits), tail) := by
    refine readNumber_of_whole read fun after same => ?_
    exact absurd rfl (ended '.' (by rw [same]; rfl)).2.2
  obtain ⟨first, others, rfl, digit⟩ := writes.exists_cons
  have takes := @Takes.number first (others ++ tail) digit
  rwa [← List.cons_append, number] at takes

theorem takes_pointed {whole wholeText fraction fractionText : List Char}
    (writesWhole : WritesDigits whole wholeText)
    (writesFraction : WritesDigits fraction fractionText) :
    Takes (wholeText ++ '.' :: fractionText ++ tail)
      (.float (Double.ofDecimal false (digitsValue 0 (whole ++ fraction)) (-fraction.length)))
      tail := by
  have readFraction := writesFraction.readDigits fun c first =>
    ⟨(ended c first).1, (ended c first).2.1⟩
  obtain ⟨next, behind, rfl, nextDigit⟩ := writesFraction.exists_cons
  have point : ∀ c, ('.' :: next :: (behind ++ tail)).head? = some c →
      isDigit c = false ∧ c ≠ '_' := by
    intro c first
    cases first
    decide
  have number := readNumber_of_fraction (writesWhole.readDigits point) nextDigit
  rw [List.cons_append] at readFraction
  rw [readFraction] at number
  obtain ⟨first, others, rfl, digit⟩ := writesWhole.exists_cons
  have takes := @Takes.number first (others ++ '.' :: next :: (behind ++ tail)) digit
  rw [← List.cons_append, number] at takes
  rwa [List.append_assoc]

omit ended

/-! ## Texts -/

theorem WritesText.readText {quote : Char} {content text : List Char}
    (writes : WritesText quote content text) (isQuote : IsQuote quote) (tail : List Char) :
    readText quote (text ++ quote :: tail) = .closed content tail := by
  induction writes with
  | nil =>
      have plain : quote ≠ '\\' := by
        intro same
        subst same
        revert isQuote
        decide
      rw [List.nil_append, readText_cons plain, if_pos rfl]
  | plain other noEscape _ ih =>
      rw [List.cons_append, readText_cons noEscape, if_neg other, ih, TextScan.cons]
  | escape known _ ih => simp only [List.cons_append, Scan.readText, known, ih, TextScan.cons]

theorem takes_quoted {quote : Char} {content text : List Char} (isQuote : IsQuote quote)
    (writes : WritesText quote content text) (tail : List Char) :
    Takes (quote :: (text ++ [quote]) ++ tail) (.text (String.ofList content)) tail := by
  have takes := Takes.text isQuote (writes.readText isQuote tail)
  simpa using takes

end Pipeline.Scan
