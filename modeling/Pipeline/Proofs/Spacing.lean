import Pipeline.Proofs.Spelling

/-! Tokens in a row, each spelled in any of its ways, with blanks of any kind between them: the
scanner takes back exactly these tokens. -/

set_option autoImplicit false

namespace Pipeline

open Scan

/-- Those that are words may also be written as signs. -/
def Symbol.spellings (symbol : Symbol) : List String :=
  symbol.spelling ::
    match symbol with
    | and => ["&&"]
    | or => ["||"]
    | not => ["!"]
    | _ => []

namespace Token

/-- The text is one of the spellings of the token. -/
inductive SpelledAs : Token → List Char → Prop where
  | integer {digits text : List Char} : WritesDigits digits text →
      SpelledAs (.integer (String.ofList digits)) text
  | float {value : Double} {whole wholeText fraction fractionText : List Char} :
      WritesDigits whole wholeText → WritesDigits fraction fractionText →
      Double.ofDecimal false (digitsValue 0 (whole ++ fraction)) (-fraction.length) = value →
      SpelledAs (.float value) (wholeText ++ '.' :: fractionText)
  | text {quote : Char} {content text : List Char} : IsQuote quote →
      WritesText quote content text →
      SpelledAs (.text (String.ofList content)) (quote :: (text ++ [quote]))
  | boolean {value : Bool} :
      SpelledAs (.boolean value) (if value then "true".toList else "false".toList)
  | name {word : String} {first : Char} {others : List Char} : word.toList = first :: others →
      startsName first = true → (∀ c ∈ others, continuesName c = true) → word ∉ keywords →
      SpelledAs (.name word) word.toList
  | symbol {symbol : Symbol} {spelling : String} : spelling ∈ symbol.spellings →
      SpelledAs (.symbol symbol) spelling.toList

/-- The text holds spellings of the tokens, with a blank at least between two of them and nothing
but blanks around them. -/
inductive Spaced : List Token → List Char → Prop where
  | none {blanks : List Char} : (∀ c ∈ blanks, Text.isBlank c = true) → Spaced [] blanks
  | next {token : Token} {tokens : List Token} {blanks text behind : List Char} :
      (∀ c ∈ blanks, Text.isBlank c = true) → token.SpelledAs text →
      (∀ c, behind.head? = some c → Text.isBlank c = true) → Spaced tokens behind →
      Spaced (token :: tokens) (blanks ++ (text ++ behind))

theorem SpelledAs.takes {token : Token} {text tail : List Char} (spelled : token.SpelledAs text)
    (ended : ∀ c, tail.head? = some c → Text.isBlank c = true) :
    Takes (text ++ tail) token tail := by
  have stops := fun c first => endsBefore_of_isBlank (ended c first)
  cases spelled with
  | integer writes => exact takes_digits (fun c first => stops c first (.integer "")) writes
  | @float value _ _ _ _ whole fraction same =>
      have takes := takes_pointed (fun c first => stops c first (.float value)) whole fraction
      rwa [same] at takes
  | text quote writes => exact takes_quoted quote writes tail
  | @boolean value =>
      have ended := fun c first => stops c first (.boolean value)
      cases value <;> exact takes_keyword (by decide) (by decide) ended
  | @name word _ _ same starts continues noKeyword =>
      have takes := takes_word same starts continues fun c first => stops c first (.name word)
      rwa [wordToken_eq_name_iff.2 noKeyword] at takes
  | @symbol symbol spelling spelled =>
      obtain rfl | sign := List.mem_cons.1 spelled
      · exact takes_symbol symbol fun c first => stops c first (.symbol symbol)
      · cases symbol with
        | and | or =>
            obtain rfl := List.mem_singleton.1 sign
            exact .symbol rfl
        | not =>
            obtain rfl := List.mem_singleton.1 sign
            refine .symbol ?_
            cases tail with
            | nil => rfl
            | cons c tail =>
                have other : c ≠ '=' := stops c rfl (.symbol .less)
                simp [readSymbol?, other]
        | _ => cases sign

/-- Each token ends at the blank that follows it, or with the text. -/
theorem Spaced.lexes {tokens : List Token} {text : List Char} (spaced : Spaced tokens text) :
    ∃ rest, Lexes text tokens rest ∧ Text.trimStart rest = [] := by
  induction spaced with
  | @none blanks all =>
      have trimmed : Text.trimStart (blanks ++ []) = [] := List.dropWhile_append_of_pos all
      rw [List.append_nil] at trimmed
      exact ⟨blanks, .none, trimmed⟩
  | @next token tokens blanks text behind all spelled ended _ ih =>
      obtain ⟨rest, lexes, left⟩ := ih
      have takes := spelled.takes ended
      have trimmed : Text.trimStart (blanks ++ (text ++ behind)) = text ++ behind := by
        rw [Text.trimStart, List.dropWhile_append_of_pos all]
        exact takes.trimStart
      refine ⟨rest, .next ?_ lexes, left⟩
      rwa [trimmed]

end Token

/-- Tokens that are spelled out with blanks between them are scanned from the text again, and behind
the last one the end of the script is found. -/
theorem Lexed.ofScript_of_spaced {script : String} {tokens : List Token}
    (spaced : Token.Spaced tokens script.toList) :
    (ofScript script).tokens.map (·.2) = tokens ∧ (ofScript script).fault = none ∧
      ∃ rest, Lexes script.toList tokens rest ∧ ∀ length, Scan.next length rest = .finished := by
  obtain ⟨rest, lexes, ended⟩ := spaced.lexes
  obtain ⟨faultless, same⟩ := ofScript_iff_lexes.2 ⟨rest, lexes, ended⟩
  refine ⟨same, faultless, rest, lexes, fun length => ?_⟩
  rw [Scan.next, ended]
  rfl

/-- A keyword as a sign, a float with a separated digit, an escaped quote, and blanks of several
kinds. -/
theorem Lexed.ofScript_of_spaced_signs :
    let script := "it_2 ->\t! 1_0.50 &&\n'a\\'s' \u3000"
    let tokens : List Token := [.name "it_2", .symbol .arrow, .symbol .not,
      .float ⟨0x4025000000000000⟩, .symbol .and, .text "a's"]
    Token.Spaced tokens script.toList ∧ (ofScript script).tokens.map (·.2) = tokens ∧
      (ofScript script).fault = none := by
  intro script tokens
  have pieces : script.toList = [] ++ ("it_2".toList ++ ([' '] ++ ("->".toList ++ (['\t'] ++
      ("!".toList ++ ([' '] ++ ((['1', '_', '0'] ++ '.' :: ['5', '0']) ++ ([' '] ++
      ("&&".toList ++ (['\n'] ++ (('\'' :: (['a', '\\', '\'', 's'] ++ ['\''])) ++
      [' ', '\u3000']))))))))))) := by
    decide +kernel
  have blanks {text : List Char} (all : text.all Text.isBlank = true) :
      ∀ c ∈ text, Text.isBlank c = true := List.all_eq_true.1 all
  have blank : ∀ (c : Char) (text : List Char), Text.isBlank c = true →
      ∀ d, (c :: text).head? = some d → Text.isBlank d = true := by
    intro c text blank d first
    cases first
    exact blank
  have float : (Token.float ⟨0x4025000000000000⟩).SpelledAs
      (['1', '_', '0'] ++ '.' :: ['5', '0']) :=
    .float (.separated (by decide) (.last (by decide))) (.next (by decide) (.last (by decide)))
      (by decide +kernel)
  have content : WritesText '\'' ['a', '\'', 's'] ['a', '\\', '\'', 's'] :=
    .plain (by decide) (by decide) (.escape rfl (.plain (by decide) (by decide) .nil))
  have spaced : Token.Spaced tokens script.toList := by
    have word : (Token.name "it_2").SpelledAs "it_2".toList :=
      .name rfl (by decide +kernel) (List.all_eq_true.1 (by decide +kernel)) (by decide)
    rw [pieces]
    refine .next (List.forall_mem_nil _) word (blank _ _ rfl) ?_
    refine .next (blanks rfl) (.symbol (by decide)) (blank _ _ rfl) ?_
    refine .next (blanks rfl) (.symbol (by decide)) (blank _ _ rfl) ?_
    refine .next (blanks rfl) float (blank _ _ rfl) ?_
    refine .next (blanks rfl) (.symbol (by decide)) (blank _ _ rfl) ?_
    refine .next (blanks rfl) (.text (.inr rfl) content) (blank _ _ rfl) ?_
    exact .none (blanks rfl)
  obtain ⟨same, faultless, _⟩ := ofScript_of_spaced spaced
  exact ⟨spaced, same, faultless⟩

end Pipeline
