import Pipeline.Proofs.Spacing

/-! The lexemes of a script: what the scanner takes for a token spells the token, so the pieces of
a text between the positions of the scanner make up the text, and each of them holds its token and
nothing else. -/

set_option autoImplicit false

namespace Pipeline

namespace Scan

/-! ## What is taken spells the token -/

theorem ne_underscore_of_isDigit {c : Char} (digit : isDigit c = true) : c ≠ '_' := by
  rintro rfl
  revert digit
  decide

/-- Digits are read as far as they are written, perhaps behind a separator. -/
theorem readDigits_cases (text : List Char) :
    readDigits text = ([], text) ∨
      ∃ written, WritesDigits (readDigits text).1 written ∧
        (text = written ++ (readDigits text).2 ∨
          text = '_' :: (written ++ (readDigits text).2)) := by
  fun_induction readDigits text with
  | case1 => exact .inl rfl
  | case2 next rest digit ih =>
      refine .inr ?_
      rcases ih with none | ⟨written, writes, same | same⟩
      · rw [readDigits_cons digit] at none
        cases none
      · exact ⟨written, writes, .inr (congrArg ('_' :: ·) same)⟩
      · exact absurd (List.cons.inj same).1 (ne_underscore_of_isDigit digit)
  | case3 => exact .inl rfl
  | case4 c rest _ digit digits after read ih =>
      rw [read] at ih
      refine .inr ?_
      rcases ih with none | ⟨written, writes, same | same⟩
      · cases none
        exact ⟨[c], .last digit, .inl rfl⟩
      · exact ⟨c :: written, .next digit writes, .inl (congrArg (c :: ·) same)⟩
      · exact ⟨c :: '_' :: written, .separated digit writes, .inl (congrArg (c :: ·) same)⟩
  | case5 => exact .inl rfl

theorem exists_writesDigits {first : Char} (digit : isDigit first = true) (others : List Char) :
    ∃ written, WritesDigits (readDigits (first :: others)).1 written ∧
      first :: others = written ++ (readDigits (first :: others)).2 := by
  rcases readDigits_cases (first :: others) with none | ⟨written, writes, same | same⟩
  · rw [readDigits_cons digit] at none
    cases none
  · exact ⟨written, writes, same⟩
  · exact absurd (List.cons.inj same).1 (ne_underscore_of_isDigit digit)

theorem exists_spelledAs_number {first : Char} (digit : isDigit first = true)
    (others : List Char) : ∃ lexeme,
      first :: others = lexeme ++ (readNumber (first :: others)).2 ∧
        (readNumber (first :: others)).1.SpelledAs lexeme := by
  obtain ⟨whole, writesWhole, same⟩ := exists_writesDigits digit others
  obtain ⟨digits, rest, read⟩ : ∃ digits rest, readDigits (first :: others) = (digits, rest) :=
    ⟨_, _, rfl⟩
  rw [read] at writesWhole same
  by_cases fraction : ∃ next after, rest = '.' :: next :: after ∧ isDigit next = true
  · obtain ⟨next, after, rfl, nextDigit⟩ := fraction
    obtain ⟨behind, writesBehind, sameBehind⟩ := exists_writesDigits nextDigit after
    rw [readNumber_of_fraction read nextDigit]
    refine ⟨whole ++ '.' :: behind, ?_, .float writesWhole writesBehind rfl⟩
    rw [same, List.append_assoc, List.cons_append, ← sameBehind]
  · have noFraction : ∀ after, rest = '.' :: after → ∀ c, after.head? = some c →
        isDigit c = false := by
      rintro (_ | ⟨next, after⟩) pointed c head
      · cases head
      · cases head
        exact Bool.eq_false_iff.2 fun nextDigit => fraction ⟨_, _, pointed, nextDigit⟩
    rw [readNumber_of_whole read noFraction]
    exact ⟨whole, same, .integer writesWhole⟩

theorem exists_writesText {quote : Char} {text content rest : List Char}
    (closed : readText quote text = .closed content rest) :
    ∃ inner, text = inner ++ quote :: rest ∧ WritesText quote content inner := by
  fun_induction readText quote text generalizing content with
  | case1 => cases closed
  | case2 => cases closed
  | case3 letter others c known ih =>
      obtain ⟨behind, read, rfl⟩ := cons_eq_closed closed
      obtain ⟨inner, rfl, writes⟩ := ih read
      exact ⟨'\\' :: letter :: inner, rfl, .escape known writes⟩
  | case4 => cases closed
  | case5 =>
      cases closed
      exact ⟨[], rfl, .nil⟩
  | case6 c others alone escapes other ih =>
      obtain ⟨behind, read, rfl⟩ := cons_eq_closed closed
      obtain ⟨inner, rfl, writes⟩ := ih read
      refine ⟨c :: inner, rfl, .plain other (fun escape => ?_) writes⟩
      cases inner with
      | nil => exact escapes _ _ escape rfl
      | cons => exact escapes _ _ escape rfl

theorem exists_spelling {symbol : Symbol} {text rest : List Char}
    (found : readSymbol? text = some (symbol, rest)) :
    ∃ spelling ∈ symbol.spellings, text = spelling.toList ++ rest := by
  unfold readSymbol? at found
  split at found <;> cases found
  case h_6 => exact ⟨"&&", by decide, rfl⟩
  case h_7 => exact ⟨"||", by decide, rfl⟩
  case h_19 => exact ⟨"!", by decide, rfl⟩
  all_goals exact ⟨_, .head _, rfl⟩

theorem spelledAs_wordToken {word : String} {first : Char} {others : List Char}
    (same : word.toList = first :: others) (starts : startsName first = true)
    (continues : ∀ c ∈ others, continuesName c = true) :
    (wordToken word).SpelledAs word.toList := by
  by_cases keyword : word ∈ keywords
  · simp only [keywords, List.mem_cons, List.not_mem_nil, or_false] at keyword
    rcases keyword with rfl | rfl | rfl | rfl | rfl
    · exact .symbol (.head _)
    · exact .symbol (.head _)
    · exact .symbol (.head _)
    · exact @Token.SpelledAs.boolean true
    · exact @Token.SpelledAs.boolean false
  · rw [wordToken_eq_name_iff.2 keyword]
    exact .name same starts continues keyword

theorem Takes.exists_spelledAs {text rest : List Char} {token : Token}
    (takes : Takes text token rest) : ∃ lexeme, text = lexeme ++ rest ∧ token.SpelledAs lexeme := by
  cases takes with
  | symbol found =>
      obtain ⟨spelling, spelled, rfl⟩ := exists_spelling found
      exact ⟨spelling.toList, rfl, .symbol spelled⟩
  | @text quote text content rest isQuote closed =>
      obtain ⟨inner, rfl, writes⟩ := exists_writesText closed
      exact ⟨quote :: (inner ++ [quote]), by simp, .text isQuote writes⟩
  | @word first others starts =>
      have word : first :: others = (first :: others).takeWhile continuesName ++
          (first :: others).dropWhile continuesName := List.takeWhile_append_dropWhile.symm
      refine ⟨_, word, ?_⟩
      rw [List.takeWhile_cons_of_pos (continuesName_of_startsName starts)]
      have spelled := spelledAs_wordToken String.toList_ofList starts
        (List.all_eq_true.1 (List.all_takeWhile (p := continuesName) (l := others)))
      rwa [String.toList_ofList] at spelled
  | number digit => exact exists_spelledAs_number digit _

/-- Nothing behind a lexeme has a part in what it is taken for. -/
theorem Takes.alone {lexeme rest : List Char} {token : Token}
    (takes : Takes (lexeme ++ rest) token rest) : Takes lexeme token [] := by
  obtain ⟨other, same, spelled⟩ := takes.exists_spelledAs
  obtain rfl := List.append_cancel_right same
  have alone := @Token.SpelledAs.takes _ _ [] spelled nofun
  rwa [List.append_nil] at alone

/-! ## One call of the scanner -/

theorem next_eq_token_iff {length : Nat} {text rest : List Char} {token : Token} :
    next length text = .token token rest ↔ Takes (Text.trimStart text) token rest :=
  ⟨takes_of_visible, fun takes => takes.visible length⟩

/-- A call that finds a token passes the blanks in front of its lexeme, and the lexeme. -/
theorem exists_lexeme {length : Nat} {text rest : List Char} {token : Token}
    (found : next length text = .token token rest) :
    ∃ blanks lexeme, text = blanks ++ lexeme ++ rest ∧ (∀ c ∈ blanks, Text.isBlank c = true) ∧
      Takes (lexeme ++ rest) token rest := by
  have takes := next_eq_token_iff.1 found
  obtain ⟨lexeme, same, -⟩ := takes.exists_spelledAs
  have split : text.takeWhile Text.isBlank ++ Text.trimStart text = text :=
    List.takeWhile_append_dropWhile
  refine ⟨text.takeWhile Text.isBlank, lexeme, ?_, List.all_eq_true.1 List.all_takeWhile,
    same ▸ takes⟩
  rw [List.append_assoc, ← same, split]

theorem next_of_lexeme {blanks lexeme rest : List Char} {token : Token}
    (all : ∀ c ∈ blanks, Text.isBlank c = true) (takes : Takes (lexeme ++ rest) token rest)
    (length : Nat) : next length (blanks ++ lexeme ++ rest) = .token token rest := by
  have trimmed : Text.trimStart (blanks ++ lexeme ++ rest) = lexeme ++ rest := by
    rw [List.append_assoc, Text.trimStart, List.dropWhile_append_of_pos all]
    exact takes.trimStart
  rw [next, trimmed]
  exact takes.visible length

theorem next_eq_finished_iff {length : Nat} {text : List Char} :
    next length text = .finished ↔ Text.trimStart text = [] := by
  rw [next]
  cases trimmed : Text.trimStart text with
  | nil => exact iff_of_true rfl rfl
  | cons => exact iff_of_false visible_ne_finished (List.cons_ne_nil _ _)

/-- A call that finds a token leaves less of the text. -/
theorem suffix_of_next {length : Nat} {text rest : List Char} {token : Token}
    (found : next length text = .token token rest) :
    rest <:+ text ∧ rest.length < text.length := by
  obtain ⟨blanks, lexeme, rfl, -, takes⟩ := exists_lexeme found
  have some := List.length_pos_iff.2 takes.alone.ne_nil
  exact ⟨List.suffix_append _ _, by simp only [List.length_append]; omega⟩

/-! ## All calls of the scanner -/

/-- The calls of the scanner on the rest of a script of some length, one behind the other as long as
they find tokens: the tokens, each with what is left behind it, and what is found in the end. -/
inductive Calls (length : Nat) : List Char → List (Token × List Char) → Scan → Prop where
  | finished {text : List Char} : Scan.next length text = .finished →
      Calls length text [] .finished
  | fault {text rest : List Char} {error : LexicalError} :
      Scan.next length text = .fault error rest → Calls length text [] (.fault error rest)
  | next {text rest : List Char} {token : Token} {calls : List (Token × List Char)} {last : Scan} :
      Scan.next length text = .token token rest → Calls length rest calls last →
      Calls length text ((token, rest) :: calls) last

/-- What is left of a text behind the call of the scanner that finds this in it. The call that finds
the end has passed the blanks in front of it, as any other call has. -/
def behind (text : List Char) : Scan → List Char
  | finished => Text.trimStart text
  | token _ rest => rest
  | fault _ rest => rest

/-- The fault that is found, with the position of the scanner. -/
def fault? (length : Nat) : Scan → Option (Nat × LexicalError)
  | fault error rest => some (length - rest.length, error)
  | _ => none

theorem exists_calls {length steps : Nat} {text : List Char} (enough : text.length < steps) :
    ∃ calls last, Calls length text calls last ∧ calls.length ≤ text.length ∧
      Lexed.ofRest length steps text =
        ⟨calls.map fun call => (length - call.2.length, call.1), last.fault? length⟩ := by
  induction steps generalizing text with
  | zero => exact absurd enough (Nat.not_lt_zero _)
  | succ steps ih =>
      rw [Lexed.ofRest]
      split
      · rename_i found
        exact ⟨[], .finished, .finished found, Nat.zero_le _, rfl⟩
      · rename_i found
        exact ⟨[], _, .fault found, Nat.zero_le _, rfl⟩
      · rename_i token rest found
        have shorter := (suffix_of_next found).2
        obtain ⟨calls, last, ran, few, same⟩ := @ih rest (by omega)
        refine ⟨(token, rest) :: calls, last, .next found ran, ?_, ?_⟩
        · rw [List.length_cons]
          omega
        · rw [same]
          rfl

theorem Calls.eq_finished {length : Nat} {text : List Char} {calls : List (Token × List Char)}
    {last : Scan} (ran : Calls length text calls last) (faultless : last.fault? length = none) :
    last = .finished := by
  induction ran with
  | finished => rfl
  | fault => cases faultless
  | next _ _ ih => exact ih faultless

/-- Calls that come to the end of a text pass blanks and a lexeme each, and then blanks alone. -/
@[elab_as_elim]
theorem Calls.induct {length : Nat} {motive : List Char → List (Token × List Char) → Prop}
    (blank : ∀ text, Text.trimStart text = [] → motive text [])
    (next : ∀ blanks lexeme rest token calls, (∀ c ∈ blanks, Text.isBlank c = true) →
      Takes (lexeme ++ rest) token rest → motive rest calls →
      motive (blanks ++ lexeme ++ rest) ((token, rest) :: calls))
    {text : List Char} {calls : List (Token × List Char)}
    (ran : Calls length text calls .finished) : motive text calls := by
  generalize ended : Scan.finished = last at ran
  induction ran with
  | finished found => exact blank _ (next_eq_finished_iff.1 found)
  | fault => cases ended
  | next found _ ih =>
      obtain ⟨blanks, lexeme, rfl, all, takes⟩ := exists_lexeme found
      exact next _ _ _ _ _ all takes (ih ended)

/-- The last call that comes to the end of a text leaves nothing of it. -/
theorem Calls.behind_eq_nil {length : Nat} {text : List Char} {calls : List (Token × List Char)}
    (ran : Calls length text calls .finished) :
    Scan.finished.behind ((calls.map (·.2)).getLastD text) = [] := by
  refine Calls.induct ?blank ?next ran
  case blank => exact fun text blank => blank
  case next =>
    intro blanks lexeme rest token calls _ _ ih
    rwa [List.map_cons, List.getLastD_cons]

/-- The pieces of a text between places of it, from the first one on. -/
def between (text : List Char) (first : Nat) (places : List Nat) : List (List Char) :=
  List.zipWith (fun here next => text.extract here next) (first :: places) places

theorem between_cons (text : List Char) (first next : Nat) (places : List Nat) :
    between text first (next :: places) =
      text.extract first next :: between text next places :=
  rfl

theorem extract_append {front piece behind : List Char} :
    (front ++ piece ++ behind).extract front.length (front ++ piece).length = piece := by
  simp

/-- Where the calls come to the end of the text, each piece of it that they pass holds a token by
itself, and what is left is blank. -/
theorem Calls.between (front : List Char) {text : List Char} {calls : List (Token × List Char)}
    (ran : Calls (front ++ text).length text calls .finished) :
    ∃ pieces last, Scan.between (front ++ text) front.length
        (calls.map (fun call => (front ++ text).length - call.2.length) ++
          [(front ++ text).length]) = pieces ++ [last] ∧
      (pieces ++ [last]).flatten = text ∧
      List.Forall₂ (fun piece call => Calls piece.length piece [(call.1, [])] .finished)
        pieces calls ∧
      Text.trimStart last = [] := by
  generalize whole : front ++ text = script at ran ⊢
  revert front
  refine Calls.induct ?blank ?next ran
  case blank =>
    intro text blank front whole
    subst whole
    refine ⟨[], text, ?_, by simp, .nil, blank⟩
    have rest := @extract_append front text []
    rw [List.append_nil] at rest
    exact congrArg (fun piece => [piece]) rest
  case next =>
    intro blanks lexeme rest token calls all takes ih front whole
    have passed : front ++ (blanks ++ lexeme) ++ rest = script := by
      rw [← whole, List.append_assoc]
    have place : script.length - rest.length = (front ++ (blanks ++ lexeme)).length := by
      rw [← passed, List.length_append, Nat.add_sub_cancel]
    obtain ⟨pieces, tail, same, parts, alone, blank⟩ := ih _ passed
    refine ⟨(blanks ++ lexeme) :: pieces, tail, ?_, ?_, .cons ?_ alone, blank⟩
    · rw [List.map_cons, List.cons_append, between_cons, place, same, ← passed, extract_append,
        List.cons_append]
    · rw [List.cons_append, List.flatten_cons, parts]
    · have single := takes.alone
      rw [← List.append_nil lexeme] at single
      have found := next_of_lexeme all single (blanks ++ lexeme).length
      rw [List.append_nil] at found
      exact .next found (.finished rfl)

end Scan

/-- The tokens of a script and its fault, as the calls of the scanner find them. -/
theorem Lexed.exists_calls (script : String) :
    let text := script.toList
    ∃ calls last, Scan.Calls text.length text calls last ∧ calls.length ≤ text.length ∧
      (ofScript script).tokens = calls.map (fun call => (text.length - call.2.length, call.1)) ∧
      (ofScript script).fault = last.fault? text.length := by
  obtain ⟨calls, last, ran, few, same⟩ :=
    Scan.exists_calls (Nat.lt_succ_self script.toList.length)
  exact ⟨calls, last, ran, few, congrArg Lexed.tokens same, congrArg Lexed.fault same⟩

/-- A call of the scanner finds a token exactly where one is taken behind the blanks, and the end
exactly where nothing but blanks is left. Every call that finds a token moves the position on, and
not beyond the end of the script, so there is one call more than there are characters at most. If no
fault is found, the last call finds the end and leaves its position there, the pieces of the script
between the positions make it up, and each of them, scanned by itself, holds its token and nothing
else; the piece in front of the end is blank. -/
theorem Lexed.ofScript_lossless (script : String) :
    let text := script.toList
    let lexed := ofScript script
    let position (rest : List Char) := text.length - rest.length
    (∀ rest, rest <:+ text →
        (Scan.next text.length rest = .finished ↔ Text.trimStart rest = []) ∧
          ∀ token behind,
            (Scan.next text.length rest = .token token behind ↔
              Scan.Takes (Text.trimStart rest) token behind) ∧
            (Scan.next text.length rest = .token token behind →
              behind <:+ text ∧ position rest < position behind ∧
                position behind ≤ text.length)) ∧
      ∃ calls last, Scan.Calls text.length text calls last ∧ calls.length + 1 ≤ text.length + 1 ∧
        lexed.tokens = calls.map (fun call => (position call.2, call.1)) ∧
        lexed.fault = last.fault? text.length ∧
        let stop := position (last.behind ((calls.map (·.2)).getLastD text))
        (lexed.fault = none → last = .finished ∧ stop = text.length ∧ ∃ pieces tail,
          Scan.between text 0 (lexed.tokens.map (·.1) ++ [stop]) = pieces ++ [tail] ∧
            (pieces ++ [tail]).flatten = text ∧
            List.Forall₂ (fun piece token =>
              Scan.Calls piece.length piece [(token.2, [])] .finished) pieces lexed.tokens ∧
            Text.trimStart tail = [] ∧ Scan.Calls tail.length tail [] .finished) := by
  intro text lexed position
  refine ⟨fun rest inside => ⟨Scan.next_eq_finished_iff, fun token behind =>
    ⟨Scan.next_eq_token_iff, fun found => ?_⟩⟩, ?_⟩
  · obtain ⟨suffix, shorter⟩ := Scan.suffix_of_next found
    have within := inside.length_le
    refine ⟨suffix.trans inside, ?_, Nat.sub_le _ _⟩
    show text.length - rest.length < text.length - behind.length
    omega
  · obtain ⟨calls, last, ran, few, tokens, fault⟩ := Lexed.exists_calls script
    refine ⟨calls, last, ran, Nat.succ_le_succ few, tokens, fault, fun faultless => ?_⟩
    obtain rfl := ran.eq_finished (fault.symm.trans faultless)
    have stops : position (Scan.finished.behind ((calls.map (·.2)).getLastD text)) =
        text.length := by
      show text.length - _ = text.length
      rw [ran.behind_eq_nil, List.length_nil, Nat.sub_zero]
    obtain ⟨pieces, tail, cut, whole, alone, blank⟩ := Scan.Calls.between [] ran
    rw [stops, tokens, List.map_map]
    exact ⟨rfl, rfl, pieces, tail, cut, whole, List.forall₂_map_right_iff.2 alone, blank,
      .finished (Scan.next_eq_finished_iff.2 blank)⟩

end Pipeline
