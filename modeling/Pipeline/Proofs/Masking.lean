import Pipeline.Proofs.Lexemes
import Pipeline.Proofs.Scanning

/-! The screen and the scanner find the same text literals: what the screen blanks out of a script
is what stands between the quotes of its text tokens, and nothing else. -/

set_option autoImplicit false

namespace Pipeline

/-! ## Bytes -/

theorem utf8ByteSize_blanksFor (c : Char) :
    (String.ofList (blanksFor c)).utf8ByteSize = c.utf8Size := by
  have spaces (n : Nat) : (String.ofList (List.replicate n ' ')).utf8ByteSize = n := by
    induction n with
    | zero => rfl
    | succ n ih =>
        rw [List.replicate_succ, String.ofList_cons, String.utf8ByteSize_append, ih,
          String.utf8ByteSize_singleton, Nat.add_comm n]
        rfl
  exact spaces c.utf8Size

theorem utf8ByteSize_maskFrom (quote : Option Char) (text : List Char) :
    (String.ofList (maskFrom quote text)).utf8ByteSize = (String.ofList text).utf8ByteSize := by
  fun_induction maskFrom quote text with
  | case1 => rfl
  | case2 c rest ih => simp [ih]
  | case3 quote c rest ih =>
      simp [utf8ByteSize_blanksFor, ih]
      rfl
  | case4 rest quote _ ih => simp [ih]
  | case5 quote c rest _ _ ih => simp [utf8ByteSize_blanksFor, ih]

/-! ## Blanking out places of a text -/

/-- The text with the characters blanked out, byte for byte, that stand at such places; its first
character stands at the place that is given. -/
def blankAt (chosen : Nat → Bool) (first : Nat) (text : List Char) : List Char :=
  (text.zipIdx first).flatMap fun (c, place) => if chosen place then blanksFor c else [c]

theorem blankAt_cons (chosen : Nat → Bool) (first : Nat) (c : Char) (text : List Char) :
    blankAt chosen first (c :: text) =
      (if chosen first then blanksFor c else [c]) ++ blankAt chosen (first + 1) text := by
  rw [blankAt, List.zipIdx_cons, List.flatMap_cons]
  rfl

theorem blankAt_append (chosen : Nat → Bool) (first : Nat) (text more : List Char) :
    blankAt chosen first (text ++ more) =
      blankAt chosen first text ++ blankAt chosen (first + text.length) more := by
  rw [blankAt, List.zipIdx_append, List.flatMap_append]
  rfl

theorem blankAt_congr {chosen other : Nat → Bool} {first : Nat} {text : List Char}
    (same : ∀ place, first ≤ place → place < first + text.length → chosen place = other place) :
    blankAt chosen first text = blankAt other first text := by
  induction text generalizing first with
  | nil => rfl
  | cons c text ih =>
      rw [List.length_cons] at same
      rw [blankAt_cons, blankAt_cons, same first (Nat.le_refl _) (by omega),
        ih fun place after before => same place (by omega) (by omega)]

theorem blankAt_none (first : Nat) (text : List Char) :
    blankAt (fun _ => false) first text = text := by
  induction text generalizing first with
  | nil => rfl
  | cons c text ih =>
      rw [blankAt_cons, ih]
      rfl

theorem blankAt_all (first : Nat) (text : List Char) :
    blankAt (fun _ => true) first text = text.flatMap blanksFor := by
  induction text generalizing first with
  | nil => rfl
  | cons c text ih =>
      rw [blankAt_cons, ih, List.flatMap_cons]
      rfl

theorem blankAt_eq_self {chosen : Nat → Bool} {first : Nat} {text : List Char}
    (outside : ∀ place, first ≤ place → place < first + text.length → chosen place = false) :
    blankAt chosen first text = text :=
  (blankAt_congr outside).trans (blankAt_none first text)

/-! ## The places of tokens -/

/-- A token, with the place of its first character and the place behind its last one. -/
structure Span where
  start : Nat
  stop : Nat
  token : Token

namespace Span

/-- The place is strictly between the quotes of a text. -/
def quotes (span : Span) (place : Nat) : Bool :=
  match span.token with
  | .text _ => decide (span.start < place ∧ place + 1 < span.stop)
  | _ => false

theorem quotes_text {start stop place : Nat} {content : String} :
    (mk start stop (.text content)).quotes place = true ↔ start < place ∧ place + 1 < stop :=
  decide_eq_true_iff

theorem quotes_outside {span : Span} {place : Nat}
    (outside : place ≤ span.start ∨ span.stop ≤ place + 1) : span.quotes place = false := by
  unfold quotes
  split
  · exact decide_eq_false (by omega)
  · rfl

theorem quotes_of_not_text {span : Span} (noText : ∀ content, span.token ≠ .text content)
    {place : Nat} : span.quotes place = false := by
  unfold quotes
  split
  · exact absurd ‹_› (noText _)
  · rfl

end Span

/-- Where tokens stand in a text, from a place on: each one from the next character that is no
blank up to the place that is known to be behind it. -/
def spansFrom (text : List Char) : Nat → List (Nat × Token) → List Span
  | _, [] => []
  | here, (stop, token) :: tokens =>
    ⟨here + ((text.drop here).takeWhile Text.isBlank).length, stop, token⟩ ::
      spansFrom text stop tokens

theorem map_spansFrom (text : List Char) (here : Nat) (tokens : List (Nat × Token)) :
    (spansFrom text here tokens).map (fun span => (span.stop, span.token)) = tokens := by
  induction tokens generalizing here with
  | nil => rfl
  | cons token tokens ih => rw [spansFrom, List.map_cons, ih]

/-- In the literal of a text, everything but its quotes is blanked out. -/
theorem blankAt_literal (start : Nat) (content : String) (quote : Char) (inner : List Char) :
    blankAt (Span.mk start (start + (quote :: (inner ++ [quote])).length) (.text content)).quotes
      start (quote :: (inner ++ [quote])) = quote :: (inner.flatMap blanksFor ++ [quote]) := by
  have stop : start + (quote :: (inner ++ [quote])).length = start + inner.length + 2 := by
    simp only [List.length_cons, List.length_append, List.length_nil]
    omega
  rw [stop]
  generalize found : Span.mk start (start + inner.length + 2) (.text content) = span
  have opening : span.quotes start = false := by
    subst found
    exact Span.quotes_outside (.inl (Nat.le_refl _))
  have between : blankAt span.quotes (start + 1) inner = inner.flatMap blanksFor := by
    subst found
    refine (blankAt_congr fun place after before => ?_).trans (blankAt_all _ _)
    exact Span.quotes_text.2 ⟨after, by omega⟩
  have closing : span.quotes (start + 1 + inner.length) = false := by
    subst found
    exact Span.quotes_outside (.inr (by dsimp only; omega))
  rw [blankAt_cons, opening, blankAt_append, between, blankAt_cons, closing]
  rfl

/-- The place is strictly between the quotes of one of the texts. -/
def quoted (spans : List Span) (place : Nat) : Bool :=
  spans.any (·.quotes place)

namespace Scan

theorem WritesDigits.isNumberPart {digits text : List Char} (writes : WritesDigits digits text) :
    ∀ c ∈ text, IsNumberPart c := by
  induction writes with
  | last digit => exact List.forall_mem_singleton.2 (.inl digit)
  | next digit _ ih => exact List.forall_mem_cons.2 ⟨.inl digit, ih⟩
  | separated digit _ ih =>
      exact List.forall_mem_cons.2 ⟨.inl digit, List.forall_mem_cons.2 ⟨.inr (.inl rfl), ih⟩⟩

theorem unquoted_of_all {lexeme : List Char}
    (none : (lexeme.all fun c => !decide (IsQuote c)) = true) : ∀ c ∈ lexeme, ¬ IsQuote c := by
  simpa using none

/-- Quotes stand in the lexemes of texts only. -/
theorem unquoted_of_spelledAs {token : Token} {lexeme : List Char}
    (spelled : token.SpelledAs lexeme) (noText : ∀ content, token ≠ .text content) :
    ∀ c ∈ lexeme, ¬ IsQuote c := by
  cases spelled with
  | integer writes => exact fun c member => (writes.isNumberPart c member).not_isQuote
  | float whole fraction =>
      intro c member
      rcases List.mem_append.1 member with inWhole | inFraction
      · exact (whole.isNumberPart c inWhole).not_isQuote
      · rcases List.mem_cons.1 inFraction with rfl | inFraction
        · decide
        · exact (fraction.isNumberPart c inFraction).not_isQuote
  | text => exact absurd rfl (noText _)
  | @boolean value => cases value <;> exact unquoted_of_all (by decide)
  | name same starts continues =>
      rw [same]
      exact unquoted_of_word starts continues
  | @symbol symbol spelling spelled =>
      cases symbol <;> simp only [Symbol.spellings, List.mem_cons, List.not_mem_nil,
        or_false] at spelled
      all_goals
        rcases spelled with rfl | rfl <;> exact unquoted_of_all (by decide)

/-- A lexeme is masked apart from the rest: between its quotes if it is a text, and nowhere
otherwise. -/
theorem maskFrom_lexeme {token : Token} {lexeme : List Char} (spelled : token.SpelledAs lexeme)
    (start : Nat) (rest : List Char) : maskFrom none (lexeme ++ rest) =
      blankAt (Span.mk start (start + lexeme.length) token).quotes start lexeme ++
        maskFrom none rest := by
  by_cases isText : ∃ content, token = .text content
  · obtain ⟨_, rfl⟩ := isText
    cases spelled with
    | @text quote content inner isQuote writes =>
        obtain ⟨other, same, masks⟩ := maskFrom_of_readText (writes.readText isQuote rest)
        obtain rfl := List.append_cancel_right same
        rw [blankAt_literal, List.cons_append, maskFrom_none_cons, if_pos isQuote,
          List.append_assoc, List.singleton_append, masks, List.cons_append, List.append_assoc,
          List.singleton_append]
  · have noText : ∀ content, token ≠ .text content := fun content same => isText ⟨content, same⟩
    rw [maskFrom_none_append (unquoted_of_spelledAs spelled noText),
      blankAt_eq_self fun _ _ _ => Span.quotes_of_not_text noText]

end Scan

theorem takeWhile_isBlank_append {blanks behind : List Char}
    (all : ∀ c ∈ blanks, Text.isBlank c = true) (visible : Text.trimStart behind = behind) :
    (blanks ++ behind).takeWhile Text.isBlank = blanks := by
  have split : behind.takeWhile Text.isBlank ++ Text.trimStart behind = behind :=
    List.takeWhile_append_dropWhile
  rw [visible, List.append_left_eq_self] at split
  rw [List.takeWhile_append_of_pos all, split, List.append_nil]

theorem quoted_cons (span : Span) (spans : List Span) (place : Nat) :
    quoted (span :: spans) place = (span.quotes place || quoted spans place) :=
  List.any_cons

theorem quoted_eq_false {spans : List Span} {place : Nat}
    (behind : ∀ span ∈ spans, place ≤ span.start) : quoted spans place = false := by
  rw [quoted, List.any_eq_false]
  intro span member
  rw [Span.quotes_outside (.inl (behind span member))]
  exact Bool.false_ne_true

/-- The first of the spans blanks out what it quotes in its lexeme, and those behind it what stands
behind it. -/
theorem blankAt_quoted_cons {span : Span} {spans : List Span} {first : Nat}
    {blanks lexeme rest : List Char} (start : first + blanks.length = span.start)
    (stop : span.start + lexeme.length = span.stop)
    (behind : ∀ other ∈ spans, span.stop ≤ other.start) :
    blankAt (quoted (span :: spans)) first (blanks ++ (lexeme ++ rest)) =
      blanks ++ (blankAt span.quotes span.start lexeme ++
        blankAt (quoted spans) span.stop rest) := by
  have others {place : Nat} (before : place ≤ span.stop) : quoted spans place = false :=
    quoted_eq_false fun other member => Nat.le_trans before (behind other member)
  rw [blankAt_append, start, blankAt_append, stop]
  refine congrArg₂ _ ?blanks (congrArg₂ _ ?lexeme ?rest)
  case blanks =>
    refine blankAt_eq_self fun place _ before => ?_
    rw [quoted_cons, others (by omega), Bool.or_false]
    exact Span.quotes_outside (.inl (by omega))
  case lexeme =>
    refine blankAt_congr fun place _ before => ?_
    rw [quoted_cons, others (by omega), Bool.or_false]
  case rest =>
    refine blankAt_congr fun place after _ => ?_
    rw [quoted_cons, Span.quotes_outside (.inr (by omega)), Bool.false_or]

namespace Scan

/-- Each span holds a lexeme of its token, and of a text that is scanned without faults only what
the spans quote is blanked out. -/
theorem Calls.masks (front : List Char) {text script : List Char}
    {calls : List (Token × List Char)} (whole : front ++ text = script)
    (ran : Calls script.length text calls .finished) :
    let spans := spansFrom script front.length
      (calls.map fun call => (script.length - call.2.length, call.1))
    (∀ span ∈ spans, front.length ≤ span.start ∧
        span.token.SpelledAs (script.extract span.start span.stop)) ∧
      maskFrom none text = blankAt (quoted spans) front.length text := by
  revert front
  refine Calls.induct ?blank ?next ran
  case blank =>
    intro text blank front whole
    have split : text.takeWhile Text.isBlank ++ Text.trimStart text = text :=
      List.takeWhile_append_dropWhile
    have unmasked : maskFrom none text = text := by
      rw [maskFrom_none_trimStart, blank]
      rwa [blank] at split
    refine ⟨List.forall_mem_nil _, unmasked.trans ?_⟩
    exact (blankAt_eq_self fun _ _ _ => rfl).symm
  case next =>
    intro blanks lexeme rest token calls all takes ih front whole
    obtain ⟨_, same, spelled⟩ := takes.exists_spelledAs
    obtain rfl := List.append_cancel_right same
    have passed : front ++ blanks ++ lexeme ++ rest = script := by
      rw [← whole]
      simp only [List.append_assoc]
    have stop : script.length - rest.length = (front ++ blanks ++ lexeme).length := by
      rw [← passed, List.length_append, Nat.add_sub_cancel]
    have start : front.length + ((script.drop front.length).takeWhile Text.isBlank).length =
        (front ++ blanks).length := by
      rw [← whole, List.drop_left, List.append_assoc,
        takeWhile_isBlank_append all takes.trimStart, List.length_append]
    obtain ⟨placed, masked⟩ := ih _ passed
    simp only [List.map_cons, spansFrom, stop, start]
    refine ⟨List.forall_mem_cons.2 ⟨⟨?_, ?_⟩, fun span member => ?_⟩, ?_⟩
    · simp only [List.length_append]
      omega
    · rwa [← passed, extract_append]
    · obtain ⟨behind, spelled⟩ := placed span member
      refine ⟨Nat.le_trans ?_ behind, spelled⟩
      simp only [List.length_append]
      omega
    · -- The spans of the rest start behind the lexeme, so none of them reaches into it.
      rw [List.append_assoc, blankAt_quoted_cons (List.length_append).symm
        (List.length_append).symm fun span member => (placed span member).1]
      rw [maskFrom_none_append fun c member => not_isQuote_of_isBlank (all c member),
        maskFrom_lexeme spelled (front ++ blanks).length, masked]
      rw [← List.length_append]

end Scan

/-- Masking keeps the number of bytes. In a script that is scanned without faults, every token has
a span that spells it, and masking blanks out, byte for byte, just what stands strictly between the
quotes of the texts. -/
theorem maskLiterals_quoted (script : String) :
    (String.ofList (maskLiterals script)).utf8ByteSize = script.utf8ByteSize ∧
      let text := script.toList
      let lexed := Lexed.ofScript script
      let spans := spansFrom text 0 lexed.tokens
      (lexed.fault = none →
        spans.map (fun span => (span.stop, span.token)) = lexed.tokens ∧
          (∀ span ∈ spans, span.token.SpelledAs (text.extract span.start span.stop)) ∧
          maskLiterals script = blankAt (quoted spans) 0 text) := by
  refine ⟨?_, fun faultless => ⟨map_spansFrom _ _ _, ?_⟩⟩
  · rw [maskLiterals, utf8ByteSize_maskFrom, String.ofList_toList]
  · obtain ⟨calls, last, ran, -, tokens, fault⟩ := Lexed.exists_calls script
    obtain rfl := ran.eq_finished (fault.symm.trans faultless)
    obtain ⟨placed, masked⟩ := Scan.Calls.masks [] rfl ran
    rw [tokens]
    exact ⟨fun span member => (placed span member).2, masked⟩

example : maskLiterals "f('é\\'', \"it's\")" = "f('    ', \"    \")".toList := by
  decide +kernel

end Pipeline
