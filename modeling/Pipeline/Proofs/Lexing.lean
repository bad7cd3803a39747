import Pipeline.Proofs.ChainSelectors
import Pipeline.Proofs.Scanning

/-! Taking tokens from the front of a text, with the actual rest present, so that texts may be
put together without a token being split or joined at the seam. -/

set_option autoImplicit false

namespace Pipeline

/-! ## Characters that start different tokens -/

namespace Scan

/-- The ASCII digits as a set of characters. -/
def digits : Text.CharSet where
  ranges := [(0x30, 0x39)]

theorem isDigit_iff {c : Char} : isDigit c = true ↔ digits.contains c = true := by
  rw [Text.CharSet.contains_iff, isDigit, Bool.and_eq_true, Nat.ble_eq, Nat.ble_eq]
  simp [digits]

theorem startsName_eq_false_of_isDigit {c : Char} (digit : isDigit c = true) :
    startsName c = false := by
  have apart : digits.Apart Text.alphabetic := by decide +kernel
  have letter : Text.isLetter c = false := apart.not_contains (isDigit_iff.1 digit)
  have underscore : c ≠ '_' := by
    rintro rfl
    revert digit
    decide
  simp [startsName, letter, underscore]

theorem not_isBlank_of_continuesName {c : Char} (continues : continuesName c = true) :
    Text.isBlank c = false := by
  obtain ⟨letters, numerals, -⟩ := Text.blank_apart
  simp only [continuesName, Text.isLetterOrNumeral, Text.isLetter, Bool.or_eq_true,
    beq_iff_eq] at continues
  rcases continues with (isLetter | isNumeral) | rfl
  · exact letters.symm.not_contains isLetter
  · exact numerals.symm.not_contains isNumeral
  · decide

theorem not_isBlank_of_mem_signs {c : Char} (sign : c ∈ signs) : Text.isBlank c = false :=
  (outside_names c (.tail _ (.tail _ sign))).2.2

theorem readSymbol?_eq_none {c : Char} {text : List Char} (noSign : c ∉ signs) :
    readSymbol? (c :: text) = none := by
  unfold readSymbol?
  split
  case h_22 => rfl
  all_goals
    rename_i same
    cases same
    exact absurd (by decide) noSign

/-! ## One token -/

/-- The token is taken from the front of a text, where no blank stands, up to the rest. -/
inductive Takes : List Char → Token → List Char → Prop where
  | symbol {symbol : Symbol} {text rest : List Char} :
      readSymbol? text = some (symbol, rest) → Takes text (.symbol symbol) rest
  | text {quote : Char} {text content rest : List Char} : IsQuote quote →
      readText quote text = .closed content rest →
      Takes (quote :: text) (.text (String.ofList content)) rest
  | word {first : Char} {others : List Char} : startsName first = true →
      Takes (first :: others)
        (wordToken (String.ofList ((first :: others).takeWhile continuesName)))
        ((first :: others).dropWhile continuesName)
  | number {first : Char} {others : List Char} : isDigit first = true →
      Takes (first :: others) (readNumber (first :: others)).1 (readNumber (first :: others)).2

theorem Takes.visible {text rest : List Char} {token : Token} (takes : Takes text token rest)
    (length : Nat) : visible length text = .token token rest := by
  unfold Scan.visible
  cases takes with
  | symbol found => rw [found]
  | @text quote text content rest isQuote closed =>
      have noSign : quote ∉ signs := fun sign => not_isQuote_of_mem_signs sign isQuote
      have quoted : quote = '"' ∨ quote = '\'' := isQuote
      simp only [readSymbol?_eq_none noSign, if_pos quoted, textToken, List.tail_cons, closed]
  | @word first others starts =>
      have continues := continuesName_of_startsName starts
      have noQuote : ¬ (first = '"' ∨ first = '\'') := not_isQuote_of_continuesName continues
      have noSign := not_mem_signs_of_continuesName continues
      simp only [readSymbol?_eq_none noSign, if_neg noQuote, if_pos starts]
  | @number first others digit =>
      have continues := continuesName_of_isDigit digit
      have noQuote : ¬ (first = '"' ∨ first = '\'') := not_isQuote_of_continuesName continues
      have noSign := not_mem_signs_of_continuesName continues
      have noName : ¬ startsName first = true := by simp [startsName_eq_false_of_isDigit digit]
      simp only [readSymbol?_eq_none noSign, if_neg noQuote, if_neg noName, if_pos digit]

theorem takes_of_visible {length : Nat} {text rest : List Char} {token : Token}
    (scanned : visible length text = .token token rest) : Takes text token rest := by
  unfold Scan.visible at scanned
  split at scanned
  · rename_i symbol after found
    cases scanned
    exact .symbol found
  · split at scanned
    · cases scanned
    · rename_i first others _
      split at scanned
      · rename_i quote
        unfold textToken at scanned
        split at scanned
        · rename_i content after closed
          cases scanned
          exact .text quote closed
        all_goals cases scanned
      · split at scanned
        · rename_i starts
          cases scanned
          exact .word starts
        · split at scanned
          · rename_i digit
            cases scanned
            exact .number digit
          · split at scanned <;> cases scanned

/-- No token starts with a blank. -/
theorem Takes.trimStart {text rest : List Char} {token : Token} (takes : Takes text token rest) :
    Text.trimStart text = text := by
  have spells := visible_spells (takes.visible 0)
  cases spells with
  | symbol consumed some sign =>
      obtain ⟨first, consumed, rfl⟩ := List.exists_cons_of_ne_nil some
      exact List.dropWhile_cons_of_neg (by simp [not_isBlank_of_mem_signs (sign first (.head _))])
  | text quote _ =>
      rcases quote with rfl | rfl
      · exact List.dropWhile_cons_of_neg (by decide)
      · exact List.dropWhile_cons_of_neg (by decide)
  | word starts _ _ =>
      have visible := not_isBlank_of_continuesName (continuesName_of_startsName starts)
      exact List.dropWhile_cons_of_neg (by simp [visible])
  | number _ _ digit _ =>
      have visible := not_isBlank_of_continuesName (continuesName_of_isDigit digit)
      exact List.dropWhile_cons_of_neg (by simp [visible])

theorem Takes.length_lt {text rest : List Char} {token : Token} (takes : Takes text token rest) :
    rest.length < text.length :=
  (visible_spells (takes.visible 0)).masks.1

theorem Takes.ne_nil {text rest : List Char} {token : Token} (takes : Takes text token rest) :
    text ≠ [] := by
  rintro rfl
  exact Nat.not_lt_zero _ takes.length_lt

/-! ## One token in front of more text -/

/-- No token goes on into the text from what stands in front of it. -/
def Severs (text : List Char) : Prop :=
  ∀ c, text.head? = some c → continuesName c = false ∧ c ≠ '.' ∧ c ≠ '>' ∧ c ≠ '='

theorem Severs.noDigit {text : List Char} (severs : Severs text) :
    ∀ c, text.head? = some c → isDigit c = false := by
  intro c first
  refine Bool.eq_false_iff.2 fun digit => ?_
  have other := (severs c first).1
  rw [continuesName_of_isDigit digit] at other
  cases other

theorem readSymbol?_append {symbol : Symbol} {text rest more : List Char}
    (found : readSymbol? text = some (symbol, rest))
    (closed : rest ≠ [] ∨ symbol = .rightParen ∨ Severs more) :
    readSymbol? (text ++ more) = some (symbol, rest ++ more) := by
  unfold readSymbol? at found
  split at found <;> cases found
  case h_18 | h_19 | h_20 | h_21 =>
    -- The longer symbol is excluded by the character behind the shorter one.
    cases rest with
    | cons next rest => simp_all [readSymbol?]
    | nil =>
        have severs : Severs more := by simpa using closed
        cases more with
        | nil => rfl
        | cons next more =>
            have other := (severs next rfl).2
            simp [readSymbol?, other]
  all_goals rfl

theorem cons_eq_closed {c : Char} {scan : TextScan} {content rest : List Char}
    (closed : scan.cons c = .closed content rest) :
    ∃ inner, scan = .closed inner rest ∧ content = c :: inner := by
  cases scan <;> cases closed
  exact ⟨_, rfl, rfl⟩

theorem readText_cons {quote c : Char} (plain : c ≠ '\\') (text : List Char) :
    readText quote (c :: text) =
      if c = quote then .closed [] text else (readText quote text).cons c :=
  readText.eq_4 quote c text (fun escape => absurd escape plain)
    fun _ _ escape => absurd escape plain

theorem readText_append {quote : Char} {text content rest : List Char}
    (closed : readText quote text = .closed content rest) (more : List Char) :
    readText quote (text ++ more) = .closed content (rest ++ more) := by
  fun_induction readText quote text generalizing content with
  | case1 => cases closed
  | case2 => cases closed
  | case3 letter others c known ih =>
      obtain ⟨inner, read, rfl⟩ := cons_eq_closed closed
      simp only [List.cons_append, readText, known, ih read, TextScan.cons]
  | case4 => cases closed
  | case5 others alone escapes =>
      cases closed
      have plain : quote ≠ '\\' := by
        intro escape
        cases rest with
        | nil => exact alone escape rfl
        | cons letter rest => exact escapes _ _ escape rfl
      rw [List.cons_append, readText_cons plain, if_pos rfl]
  | case6 c others alone escapes other ih =>
      obtain ⟨inner, read, rfl⟩ := cons_eq_closed closed
      have plain : c ≠ '\\' := by
        intro escape
        cases others with
        | nil => exact alone escape rfl
        | cons letter others => exact escapes _ _ escape rfl
      rw [List.cons_append, readText_cons plain, if_neg other, ih read, TextScan.cons]

theorem readDigits_cons {c : Char} (digit : isDigit c = true) (text : List Char) :
    readDigits (c :: text) = (c :: (readDigits text).1, (readDigits text).2) := by
  have noUnderscore : c ≠ '_' := by
    rintro rfl
    revert digit
    decide
  rw [readDigits.eq_3 c text fun _ _ underscore => absurd underscore noUnderscore, if_pos digit]

theorem readDigits_of_head? {text : List Char}
    (noDigit : ∀ c, text.head? = some c → isDigit c = false)
    (noUnderscore : ∀ rest, text = '_' :: rest → ∀ c, rest.head? = some c → isDigit c = false) :
    readDigits text = ([], text) := by
  unfold readDigits
  split
  · rfl
  · rename_i next rest
    have other := noUnderscore _ rfl next rfl
    rw [if_neg (by simp [other])]
  · rename_i c rest separated
    have other := noDigit c rfl
    rw [if_neg (by simp [other])]

theorem readDigits_append (text more : List Char)
    (noDigit : ∀ c, more.head? = some c → isDigit c = false)
    (stopped : (readDigits text).2 ≠ [] ∨ Severs more) :
    readDigits (text ++ more) = ((readDigits text).1, (readDigits text).2 ++ more) := by
  fun_induction readDigits text with
  | case1 =>
      have severs := stopped.resolve_left (fun some => some rfl)
      refine readDigits_of_head? noDigit ?_
      rintro rest rfl
      exact absurd (severs '_' rfl).1 (by simp [continuesName])
  | case2 next rest digit ih =>
      have read := ih stopped
      rw [List.cons_append] at read
      rw [List.cons_append, List.cons_append, readDigits, if_pos digit, read]
  | case3 next rest other =>
      rw [List.cons_append, List.cons_append, readDigits, if_neg other]
  | case4 c rest separated digit digits after read ih =>
      rw [read] at ih
      rw [List.cons_append, readDigits_cons digit, ih stopped]
  | case5 c rest separated other =>
      refine readDigits_of_head? ?_ ?_
      · simpa using other
      · intro further same next first
        cases rest with
        | nil =>
            cases same
            exact noDigit next first
        | cons _ rest =>
            cases same
            exact absurd rfl (separated _ _ rfl)

theorem readNumber_of_fraction {text whole rest : List Char} {next : Char}
    (read : readDigits text = (whole, '.' :: next :: rest)) (digit : isDigit next = true) :
    readNumber text =
      (.float (Double.ofDecimal false
          (digitsValue 0 (whole ++ (readDigits (next :: rest)).1))
          (-(readDigits (next :: rest)).1.length)),
        (readDigits (next :: rest)).2) := by
  simp only [readNumber, read, if_pos digit]

theorem readNumber_of_whole {text whole rest : List Char} (read : readDigits text = (whole, rest))
    (noFraction : ∀ after, rest = '.' :: after → ∀ c, after.head? = some c → isDigit c = false) :
    readNumber text = (.integer (String.ofList whole), rest) := by
  simp only [readNumber, read]
  split
  · rename_i next after
    have other := noFraction _ rfl next rfl
    rw [if_neg (by simp [other])]
  · rfl

theorem readNumber_append {text : List Char} (more : List Char)
    (noDigit : ∀ c, more.head? = some c → isDigit c = false)
    (stopped : (readNumber text).2 ≠ [] ∨ Severs more) :
    readNumber (text ++ more) = ((readNumber text).1, (readNumber text).2 ++ more) := by
  obtain ⟨whole, rest, read⟩ : ∃ whole rest, readDigits text = (whole, rest) := ⟨_, _, rfl⟩
  by_cases fraction : ∃ next after, rest = '.' :: next :: after ∧ isDigit next = true
  · obtain ⟨next, after, rfl, digit⟩ := fraction
    have number := readNumber_of_fraction read digit
    rw [number] at stopped ⊢
    have readMore := readDigits_append text more noDigit (.inl (by simp [read]))
    rw [read, List.cons_append, List.cons_append] at readMore
    have readFraction := readDigits_append _ more noDigit stopped
    rw [List.cons_append] at readFraction
    rw [readNumber_of_fraction readMore digit, readFraction]
  · have noFraction : ∀ after, rest = '.' :: after → ∀ c, after.head? = some c →
        isDigit c = false := by
      rintro (_ | ⟨next, after⟩) rfl c first
      · cases first
      · cases first
        exact Bool.eq_false_iff.2 fun digit => fraction ⟨_, _, rfl, digit⟩
    have number := readNumber_of_whole read noFraction
    rw [number] at stopped ⊢
    have readMore := readDigits_append text more noDigit (by simpa [read] using stopped)
    rw [read] at readMore
    refine readNumber_of_whole readMore fun after same c first => ?_
    cases rest with
    | nil =>
        have severs := stopped.resolve_left (fun some => some rfl)
        rw [List.nil_append] at same
        exact absurd rfl (severs '.' (same ▸ rfl)).2.1
    | cons head rest =>
        cases same
        cases rest with
        | nil => exact noDigit c first
        | cons _ _ => exact noFraction _ rfl c first

/-- Of the symbols, only those that are spelled as words come from words. -/
theorem wordToken_ne_symbol {symbol : Symbol}
    (noWord : symbol ≠ .and ∧ symbol ≠ .or ∧ symbol ≠ .not) (word : String) :
    wordToken word ≠ .symbol symbol := by
  unfold wordToken
  repeat' split
  all_goals simp [Ne.symm noWord.1, Ne.symm noWord.2.1, Ne.symm noWord.2.2]

theorem takeWhile_append_of_stopped {p : Char → Bool} {text more : List Char}
    (stopped : text.dropWhile p ≠ [] ∨ ∀ c, more.head? = some c → p c = false) :
    (text ++ more).takeWhile p = text.takeWhile p ∧
      (text ++ more).dropWhile p = text.dropWhile p ++ more := by
  induction text with
  | nil =>
      have ended := stopped.resolve_left (fun some => some rfl)
      cases more with
      | nil => exact ⟨rfl, rfl⟩
      | cons c more => simp [ended c rfl]
  | cons c text ih =>
      rw [List.cons_append]
      cases holds : p c with
      | false => simp [holds]
      | true =>
          rw [List.dropWhile_cons_of_pos holds] at stopped
          obtain ⟨taken, dropped⟩ := ih stopped
          simp [holds, taken, dropped]

/-- Where the further text starts, only a symbol that nothing can make longer may end, unless the
text makes nothing longer. -/
theorem Takes.append {text rest : List Char} {token : Token} (takes : Takes text token rest)
    (more : List Char) (noDigit : ∀ c, more.head? = some c → isDigit c = false)
    (closed : rest ≠ [] ∨ token = .symbol .rightParen ∨ Severs more) :
    Takes (text ++ more) token (rest ++ more) := by
  cases takes with
  | symbol found =>
      exact .symbol (readSymbol?_append found (closed.imp_right (Or.imp_left (by simp))))
  | text quote read => exact .text quote (readText_append read more)
  | @word first others starts =>
      have stopped := closed.imp_right (·.resolve_left (wordToken_ne_symbol (by decide) _))
      have word := @Takes.word first (others ++ more) starts
      obtain ⟨taken, dropped⟩ := takeWhile_append_of_stopped
        (stopped.imp_right fun severs c first => (severs c first).1)
      rw [← List.cons_append, taken, dropped] at word
      exact word
  | @number first others digit =>
      have stopped := closed.imp_right (·.resolve_left fun bracket =>
        Grammar.not_isNumber_symbol _ (bracket ▸ isNumber_readNumber _))
      have number := @Takes.number first (others ++ more) digit
      rw [← List.cons_append, readNumber_append more noDigit stopped] at number
      exact number

/-! ## All tokens of a text -/

/-- The tokens are taken one after another from the front of a text, up to the rest. Blanks in
front of a token are skipped, and those behind the last one belong to the rest. -/
inductive Lexes : List Char → List Token → List Char → Prop where
  | none {text : List Char} : Lexes text [] text
  | next {text middle rest : List Char} {token : Token} {tokens : List Token} :
      Takes (Text.trimStart text) token middle → Lexes middle tokens rest →
      Lexes text (token :: tokens) rest

theorem Lexes.trans {text middle rest : List Char} {tokens others : List Token}
    (first : Lexes text tokens middle) (second : Lexes middle others rest) :
    Lexes text (tokens ++ others) rest := by
  induction first with
  | none => exact second
  | next takes _ ih => exact .next takes (ih second)

/-- Further text may follow tokens that end in a closing bracket, or if it makes no token longer. -/
theorem Lexes.append {text rest : List Char} {tokens : List Token}
    (lexes : Lexes text tokens rest) (more : List Char)
    (noDigit : ∀ c, more.head? = some c → isDigit c = false)
    (closed : (∀ token, tokens.getLast? = some token → token = .symbol .rightParen) ∨
      Severs more) :
    Lexes (text ++ more) tokens (rest ++ more) := by
  induction lexes with
  | none => exact .none
  | @next text middle rest token tokens takes others ih =>
      have trimmed : Text.trimStart (text ++ more) = Text.trimStart text ++ more :=
        (takeWhile_append_of_stopped (.inl takes.ne_nil)).2
      have stopped : middle ≠ [] ∨ token = .symbol .rightParen ∨ Severs more := by
        cases others with
        | none => exact .inr (closed.imp_left (· token rfl))
        | next further _ =>
            refine .inl fun ended => further.ne_nil ?_
            rw [ended]
            rfl
      refine .next (trimmed ▸ takes.append more noDigit stopped) (ih ?_)
      refine closed.imp_left fun closed last found => closed last ?_
      rw [List.getLast?_cons, found]
      rfl

/-- Blanks in front of the tokens make no difference. -/
theorem Lexes.behind_blanks {blanks text rest : List Char} {token : Token} {tokens : List Token}
    (none : Text.trimStart blanks = []) (lexes : Lexes text (token :: tokens) rest) :
    Lexes (blanks ++ text) (token :: tokens) rest := by
  have skipped : Text.trimStart (blanks ++ text) = Text.trimStart text := by
    have empty : (blanks.dropWhile Text.isBlank).isEmpty = true := List.isEmpty_iff.2 none
    rw [Text.trimStart, List.dropWhile_append, if_pos empty]
    rfl
  cases lexes with
  | next takes others => exact .next (skipped ▸ takes) others

end Scan

namespace Lexed

open Scan

/-- A script is free of faults exactly if its tokens are taken from it up to its last blanks. -/
theorem lexes_of_ofRest {length steps : Nat} {text : List Char}
    (enough : text.length < steps) (faultless : (ofRest length steps text).fault = none) :
    ∃ rest, Lexes text ((ofRest length steps text).tokens.map (·.2)) rest ∧
      Text.trimStart rest = [] := by
  induction steps generalizing text with
  | zero => exact absurd enough (Nat.not_lt_zero _)
  | succ steps ih =>
      rw [ofRest] at faultless ⊢
      split at faultless
      · rename_i finished
        refine ⟨text, .none, ?_⟩
        cases trimmed : Text.trimStart text with
        | nil => rfl
        | cons c others =>
            rw [next, trimmed] at finished
            exact absurd finished visible_ne_finished
      · cases faultless
      · rename_i token rest scanned
        have takes := takes_of_visible scanned
        have shorter := takes.length_lt
        have trimmed := Text.length_trimStart_le text
        obtain ⟨rest, lexes, ended⟩ := ih (by omega) faultless
        exact ⟨rest, .next takes lexes, ended⟩

theorem ofRest_of_lexes {length steps : Nat} {text rest : List Char} {tokens : List Token}
    (enough : text.length < steps) (lexes : Lexes text tokens rest)
    (ended : Text.trimStart rest = []) :
    (ofRest length steps text).fault = none ∧
      (ofRest length steps text).tokens.map (·.2) = tokens := by
  induction lexes generalizing steps with
  | @none text =>
      cases steps with
      | zero => exact ⟨rfl, rfl⟩
      | succ steps =>
          have finished : next length text = .finished := by
            rw [next, ended]
            rfl
          rw [ofRest, finished]
          exact ⟨rfl, rfl⟩
  | @next text middle rest token tokens takes _ ih =>
      have shorter := takes.length_lt
      have trimmed := Text.length_trimStart_le text
      obtain ⟨steps, rfl⟩ := Nat.exists_eq_succ_of_ne_zero (Nat.ne_zero_of_lt enough)
      obtain ⟨faultless, all⟩ := @ih steps (by omega) ended
      have scanned : next length text = .token token middle := takes.visible length
      rw [ofRest, scanned]
      exact ⟨faultless, congrArg (token :: ·) all⟩

theorem ofScript_iff_lexes {script : String} {tokens : List Token} :
    (ofScript script).fault = none ∧ (ofScript script).tokens.map (·.2) = tokens ↔
      ∃ rest, Lexes script.toList tokens rest ∧ Text.trimStart rest = [] := by
  have enough := Nat.lt_succ_self script.toList.length
  constructor
  · rintro ⟨faultless, rfl⟩
    exact lexes_of_ofRest enough faultless
  · rintro ⟨rest, lexes, ended⟩
    exact ofRest_of_lexes enough lexes ended

end Lexed

/-! ## Scripts by their tokens -/

theorem Scan.takes_dot_iff {text rest : List Char} :
    Takes text (.symbol .dot) rest ↔ text = '.' :: rest := by
  constructor
  · intro takes
    generalize same : Token.symbol .dot = token at takes
    cases takes with
    | symbol found =>
        cases same
        unfold readSymbol? at found
        split at found <;> cases found
        rfl
    | text => cases same
    | word => exact absurd same.symm (wordToken_ne_symbol (by decide) _)
    | number => exact absurd (same ▸ isNumber_readNumber _) (Grammar.not_isNumber_symbol _)
  · rintro rfl
    exact .symbol rfl

/-- A script whose first token is a dot denotes what its tokens denote. -/
theorem Chain.parse_of_lexes {script : String} {tokens : List Token} {rest : List Char}
    (lexes : Scan.Lexes script.toList (.symbol .dot :: tokens) rest)
    (ended : Text.trimStart rest = []) :
    Chain.parse script =
      (Parse.wholeChain.run ⟨.symbol .dot :: tokens, none⟩).map (·.1) := by
  obtain ⟨faultless, same⟩ := Lexed.ofScript_iff_lexes.2 ⟨rest, lexes, ended⟩
  have dotted : ∃ others, Text.trimStart script.toList = '.' :: others := by
    cases lexes with
    | next takes _ => exact ⟨_, Scan.takes_dot_iff.1 takes⟩
  obtain ⟨others, dotted⟩ := dotted
  have started : Cursor.ofScript script = .ok ⟨.symbol .dot :: tokens, none⟩ := by
    simp only [Cursor.ofScript, faultless, same]
    rfl
  simp only [Chain.parse, dotted, started]
  change Parse.wholeChain.run _ >>= (fun result => pure result.1) = _
  cases Parse.wholeChain.run ⟨.symbol .dot :: tokens, none⟩ <;> rfl

theorem Parse.wholeChain_eq_ok {tokens : List Token} {chain : Chain} {after : Cursor} :
    wholeChain.run ⟨tokens, none⟩ = .ok (chain, after) ↔
      tokens.head? = some (.symbol .dot) ∧ after = ⟨[], none⟩ ∧
        (stages none tokens.length).run ⟨tokens, none⟩ = .ok (chain, ⟨[], none⟩) := by
  rw [wholeChain, run_atSymbol_bind]
  constructor
  · intro accepted
    split at accepted
    · rename_i dotted
      rw [run_remaining_bind] at accepted
      obtain ⟨_, ⟨left, fault⟩, all, accepted⟩ := run_bind_eq_ok.1 accepted
      obtain ⟨_, _, ended, same⟩ := run_bind_eq_ok.1 accepted
      cases same
      obtain ⟨rfl, rfl⟩ := of_expectEnd ended
      cases (stages_writes (.refl _) all).1.reaches.fault
      exact ⟨beq_iff_eq.1 dotted, rfl, all⟩
    · cases accepted
  · rintro ⟨dotted, rfl, all⟩
    have current : ((⟨tokens, none⟩ : Cursor).current == some (.symbol .dot)) = true :=
      beq_iff_eq.2 dotted
    rw [if_pos current, run_remaining_bind]
    exact run_bind_eq_ok.2 ⟨_, _, all, rfl⟩

/-- The chain of a script lies in its tokens, and no token is left. -/
theorem Chain.parse_eq_ok_iff {script : String} {chain : Chain} :
    Chain.parse script = .ok chain ↔
      ∃ tokens rest, Scan.Lexes script.toList tokens rest ∧ Text.trimStart rest = [] ∧
        tokens.head? = some (.symbol .dot) ∧
        (Parse.stages none tokens.length).run ⟨tokens, none⟩ = .ok (chain, ⟨[], none⟩) := by
  constructor
  · intro accepted
    have faultless := (Chain.parse_writes accepted).1
    obtain ⟨rest, lexes, ended⟩ := Lexed.ofScript_iff_lexes.1 ⟨faultless, rfl⟩
    refine ⟨_, rest, lexes, ended, ?_⟩
    unfold Chain.parse at accepted
    split at accepted
    · obtain ⟨cursor, started, accepted⟩ := bind_eq_ok.1 accepted
      obtain ⟨⟨_, after⟩, ran, same⟩ := bind_eq_ok.1 accepted
      cases same
      obtain ⟨rfl, _⟩ := Cursor.ofScript_eq_ok started
      rw [faultless, Option.map_none] at ran
      obtain ⟨dotted, _, all⟩ := Parse.wholeChain_eq_ok.1 ran
      exact ⟨dotted, all⟩
    · cases accepted
  · rintro ⟨tokens, rest, lexes, ended, dotted, all⟩
    obtain ⟨others, rfl⟩ := List.head?_eq_some_iff.1 dotted
    rw [Chain.parse_of_lexes lexes ended, Parse.wholeChain_eq_ok.2 ⟨rfl, rfl, all⟩]
    rfl

end Pipeline
