import Pipeline.Proofs.Decimals
import Pipeline.Proofs.Printing
import Pipeline.Proofs.Wording

/-! The scanner takes back the tokens from a text in which they are spelled. -/

set_option autoImplicit false

namespace Pipeline

open Scan

/-- The token can be spelled: its number has a spelling, its name is an identifier. -/
def Token.Spellable : Token → Prop
  | integer digits => digits.toList ≠ [] ∧ ∀ c ∈ digits.toList, isDigit c = true
  | float value => value.isFinite = true ∧ value.negative = false
  | name spelling => IsIdentifier spelling
  | text _ | boolean _ | symbol _ => True

/-- The token ends where the character follows directly. -/
def Token.EndsBefore (c : Char) : Token → Prop
  | integer _ | float _ => isDigit c = false ∧ c ≠ '_' ∧ c ≠ '.'
  | name _ | boolean _ | symbol .and | symbol .or | symbol .not => continuesName c = false
  | symbol .minus => c ≠ '>'
  | symbol .less | symbol .greater => c ≠ '='
  | text _ | symbol _ => True

namespace Scan

variable {tail : List Char}

/-! ## Each token by itself -/

theorem takes_integer {digits : String} (some : digits.toList ≠ [])
    (all : ∀ c ∈ digits.toList, isDigit c = true)
    (ended : ∀ c, tail.head? = Option.some c → isDigit c = false ∧ c ≠ '_' ∧ c ≠ '.') :
    Takes (digits.toList ++ tail) (.integer digits) tail := by
  have takes := takes_digits ended (writesDigits_self some all)
  rwa [String.ofList_toList] at takes

theorem takes_float (spelling : Spelling) {value : Double} (finite : value.isFinite = true)
    (positive : value.negative = false)
    (ended : ∀ c, tail.head? = some c → isDigit c = false ∧ c ≠ '_' ∧ c ≠ '.') :
    Takes (spelling.whole value ++ '.' :: spelling.fraction value ++ tail) (.float value) tail := by
  have takes := takes_pointed ended
    (writesDigits_self (spelling.whole_ne_nil value) (spelling.isDigit_whole value))
    (writesDigits_self (spelling.fraction_ne_nil value) (spelling.isDigit_fraction value))
  rwa [spelling.reads_back value finite positive] at takes

theorem writesText_escaped (content : List Char) :
    WritesText '"' content (content.flatMap escaped) := by
  induction content with
  | nil => exact .nil
  | cons c content ih =>
      rw [List.flatMap_cons]
      fun_cases escaped c
      case case6 newline tab ret quote backslash => exact .plain quote backslash ih
      all_goals exact .escape rfl ih

theorem takes_symbol (symbol : Symbol)
    (ended : ∀ c, tail.head? = some c → (Token.symbol symbol).EndsBefore c) :
    Takes (symbol.spelling.toList ++ tail) (.symbol symbol) tail := by
  cases symbol with
  | and | or | not => exact takes_keyword (by decide) (by decide) ended
  | minus | less | greater =>
      refine .symbol ?_
      cases tail with
      | nil => rfl
      | cons c tail =>
          have other := ended c rfl
          simp only [Token.EndsBefore] at other
          simp [Symbol.spelling, readSymbol?, other]
  | _ => exact .symbol rfl

theorem takes_spelling (spelling : Spelling) {token : Token} (spellable : token.Spellable)
    (tail : List Char) (ended : ∀ c, tail.head? = some c → token.EndsBefore c) :
    Takes (token.spelling spelling ++ tail) token tail := by
  cases token with
  | integer digits => exact takes_integer spellable.1 spellable.2 ended
  | float value => exact takes_float spelling spellable.1 spellable.2 ended
  | text value =>
      have takes := takes_quoted (.inl rfl) (writesText_escaped value.toList) tail
      rwa [String.ofList_toList] at takes
  | boolean value => cases value <;> exact takes_keyword (by decide) (by decide) ended
  | name word =>
      obtain ⟨⟨first, others, same, starts, continues⟩, noKeyword⟩ := spellable
      have takes := takes_word same starts continues ended
      rwa [noKeyword] at takes
  | symbol symbol => exact takes_symbol symbol ended

/-! ## Tokens in a row -/

theorem endsBefore_of_apart {c : Char} (noName : continuesName c = false)
    (noSign : c ≠ '.' ∧ c ≠ '>' ∧ c ≠ '=') (token : Token) : token.EndsBefore c := by
  have noDigit : isDigit c = false := by
    rw [Bool.eq_false_iff]
    intro digit
    rw [continuesName_of_isDigit digit] at noName
    cases noName
  have noUnderscore : c ≠ '_' := by
    rintro rfl
    simp [continuesName] at noName
  obtain ⟨noPoint, noGreater, noEqual⟩ := noSign
  have noNumber : isDigit c = false ∧ c ≠ '_' ∧ c ≠ '.' := ⟨noDigit, noUnderscore, noPoint⟩
  unfold Token.EndsBefore
  split
  any_goals exact noNumber
  any_goals exact noName
  any_goals exact noGreater
  any_goals exact noEqual
  all_goals trivial

theorem endsBefore_of_isBlank {c : Char} (blank : Text.isBlank c = true) (token : Token) :
    token.EndsBefore c := by
  have noSign : c ∉ signs := by
    intro sign
    rw [not_isBlank_of_mem_signs sign] at blank
    cases blank
  refine endsBefore_of_apart ?_ ⟨?_, ?_, ?_⟩ token
  · rw [Bool.eq_false_iff]
    intro continues
    rw [not_isBlank_of_continuesName continues] at blank
    cases blank
  all_goals
    rintro rfl
    exact noSign (by decide)

theorem endsBefore_gap {c : Char} (gap : c = ' ' ∨ c = ')' ∨ c = ',') (token : Token) :
    token.EndsBefore c := by
  obtain rfl | bracket := gap
  · exact endsBefore_of_isBlank (by decide) token
  · refine endsBefore_of_apart (continuesName_of_mem_signs ?_) ?_ token
    all_goals obtain rfl | rfl := bracket <;> decide

theorem isDigit_head? {digits more : List Char} (some : digits ≠ [])
    (all : ∀ c ∈ digits, isDigit c = true) :
    ∀ c, (digits ++ more).head? = Option.some c → isDigit c = true := by
  obtain ⟨digit, digits, rfl⟩ := List.exists_cons_of_ne_nil some
  intro c first
  cases first
  exact all digit (.head _)

theorem endsBefore_of_touches (spelling : Spelling) {token next : Token}
    (touches : token.touches next = true) (spellable : next.Spellable) (more : List Char) :
    ∀ c, (next.spelling spelling ++ more).head? = some c → token.EndsBefore c := by
  intro c first
  have noArrow : isDigit c = true → c ≠ '>' := by
    rintro digit rfl
    revert digit
    decide
  unfold Token.touches at touches
  split at touches
  case h_1 | h_2 | h_5 => trivial
  case h_3 | h_4 =>
    simp only [Token.spelling, Symbol.spelling, String.reduceToList, List.cons_append,
      List.head?_cons, Option.some_inj] at first
    exact endsBefore_gap (by simp [← first]) _
  case h_6 =>
    have ends : continuesName '(' = false := continuesName_of_mem_signs (by decide)
    simp only [Token.spelling, Symbol.spelling, String.reduceToList, List.cons_append,
      List.head?_cons, Option.some_inj] at first
    exact first ▸ ends
  case h_7 => exact noArrow (isDigit_head? spellable.1 spellable.2 c first)
  case h_8 value =>
    rw [Token.spelling, List.append_assoc] at first
    exact noArrow (isDigit_head? (spelling.whole_ne_nil value) (spelling.isDigit_whole value) c
      first)
  case h_9 => cases touches

theorem spellAll_cons (spelling : Spelling) (token : Token) (rest : List Token) :
    ∃ more, Token.spellAll spelling (token :: rest) = token.spelling spelling ++ more := by
  cases rest with
  | nil => exact ⟨[], (List.append_nil _).symm⟩
  | cons next rest => exact ⟨_, List.append_assoc _ _ _⟩

/-- Each token ends where the next one, or the blank in front of it, starts. -/
theorem lexes_spellAll (spelling : Spelling) {tokens : List Token}
    (spellable : ∀ token ∈ tokens, token.Spellable) :
    Lexes (Token.spellAll spelling tokens) tokens [] := by
  induction tokens with
  | nil => exact .none
  | cons token rest ih =>
      obtain ⟨first, others⟩ := List.forall_mem_cons.1 spellable
      cases rest with
      | nil =>
          have takes := takes_spelling spelling first [] nofun
          rw [List.append_nil] at takes
          exact .next (takes.trimStart.symm ▸ takes) .none
      | cons next rest =>
          have behind := ih others
          rw [Token.spellAll, List.append_assoc]
          cases touches : token.touches next with
          | true =>
              obtain ⟨more, same⟩ := spellAll_cons spelling next rest
              have ended := endsBefore_of_touches spelling touches (others next (.head _)) more
              rw [← same] at ended
              have takes := takes_spelling spelling first _ ended
              exact .next (takes.trimStart.symm ▸ takes) behind
          | false =>
              have spaced : Lexes ([' '] ++ Token.spellAll spelling (next :: rest))
                  (next :: rest) [] := behind.behind_blanks rfl
              have takes := takes_spelling spelling first
                ([' '] ++ Token.spellAll spelling (next :: rest))
                (by rintro c ⟨⟩; exact endsBefore_gap (.inl rfl) token)
              exact .next (takes.trimStart.symm ▸ takes) spaced

end Scan

/-! ## The tokens of what is expressible -/

/-- The words that belong to the language without being keywords. -/
def fixedNames : List String :=
  ["filter", "map", "flatMap", "sorted", "distinct", "max", "min", "sum", "groupBy", "collect",
    "limit", "skip", "toList", "toSet", "counting", "joining", "summing", "by", "then", "asc",
    "desc"]

theorem isIdentifier_of_letters {word : String} (some : word.toList ≠ [])
    (letters : word.toList.all Char.isAlpha = true) (other : wordToken word = .name word) :
    IsIdentifier word := by
  obtain ⟨first, others, same⟩ := List.exists_cons_of_ne_nil some
  rw [same, List.all_eq_true] at letters
  have starts := fun c member => startsName_of_isAlpha (letters c member)
  exact ⟨⟨first, others, same, starts first (.head _),
    fun c member => continuesName_of_startsName (starts c (.tail _ member))⟩, other⟩

theorem isIdentifier_of_mem_fixedNames {word : String} (fixed : word ∈ fixedNames) :
    IsIdentifier word := by
  have each : ∀ word ∈ fixedNames, word.toList ≠ [] ∧ word.toList.all Char.isAlpha = true ∧
      wordToken word = .name word := by
    decide
  obtain ⟨some, letters, other⟩ := each word fixed
  exact isIdentifier_of_letters some letters other

def Spellable (tokens : List Token) : Prop :=
  ∀ token ∈ tokens, token.Spellable

@[simp]
theorem spellable_nil : Spellable [] :=
  fun _ member => nomatch member

@[simp]
theorem spellable_cons {token : Token} {tokens : List Token} :
    Spellable (token :: tokens) ↔ token.Spellable ∧ Spellable tokens :=
  List.forall_mem_cons

@[simp]
theorem spellable_append {tokens others : List Token} :
    Spellable (tokens ++ others) ↔ Spellable tokens ∧ Spellable others :=
  List.forall_mem_append

@[simp]
theorem spellable_symbol (symbol : Symbol) : (Token.symbol symbol).Spellable :=
  trivial

@[simp]
theorem spellable_bracketed {tokens : List Token} :
    Spellable (bracketed tokens) ↔ Spellable tokens := by
  simp [bracketed]

theorem spellable_intercalate {separator : List Token} {parts : List (List Token)}
    (between : Spellable separator) (each : ∀ part ∈ parts, Spellable part) :
    Spellable (separator.intercalate parts) := by
  induction parts with
  | nil => exact spellable_nil
  | cons part parts ih =>
      obtain ⟨first, others⟩ := List.forall_mem_cons.1 each
      cases parts with
      | nil => rwa [List.intercalate_singleton]
      | cons next parts =>
          rw [List.intercalate_cons_cons, spellable_append, spellable_append]
          exact ⟨⟨first, between⟩, ih others⟩

theorem spellable_comma : Spellable [.symbol .comma] := by
  simp

theorem tokensOfEach_eq_map (exprs : List Expr) :
    Expr.tokensOfEach exprs = exprs.map Expr.tokens := by
  induction exprs with
  | nil => rfl
  | cons expr exprs ih => rw [Expr.tokensOfEach, ih, List.map_cons]

theorem spellable_integer (n : Nat) :
    (Token.integer (String.ofList (Nat.toDigits 10 n))).Spellable := by
  rw [Token.Spellable, String.toList_ofList]
  exact ⟨Nat.toDigits_ne_nil, fun c => isDigit_of_mem_toDigits⟩

theorem Expr.Expressible.spellable {expr : Expr} (expressible : expr.Expressible) :
    Spellable expr.tokens := by
  induction expressible with
  | integer =>
      simp only [Expr.tokens, Scalar.tokens, Number.tokens]
      split <;> simp [spellable_integer]
  | @float value finite =>
      simp only [Expr.tokens, Scalar.tokens, Number.tokens]
      split
      · rename_i negative
        simp [Token.Spellable, Double.isFinite_neg, Double.negative_neg, finite, negative]
      · rename_i positive
        simpa [Token.Spellable, finite] using positive
  | text | boolean => simp [Expr.tokens, Scalar.tokens, Token.Spellable]
  | reference name => simpa [Expr.tokens, Token.Spellable] using name
  | field _ name objectIH => simp [Expr.tokens, Token.Spellable, objectIH, name]
  | unary _ operandIH => simp [Expr.tokens, operandIH]
  | binary _ _ leftIH rightIH => simp [Expr.tokens, leftIH, rightIH]
  | conditional _ _ _ conditionIH thenIH elseIH =>
      simp [Expr.tokens, conditionIH, thenIH, elseIH]
  | method _ name _ objectIH argumentsIH =>
      have arguments := spellable_intercalate spellable_comma
        (List.forall_mem_map.2 argumentsIH)
      simp [Expr.tokens, tokensOfEach_eq_map, Token.Spellable, objectIH, name, arguments]
  | call name _ argumentsIH =>
      have arguments := spellable_intercalate spellable_comma
        (List.forall_mem_map.2 argumentsIH)
      simp [Expr.tokens, tokensOfEach_eq_map, Token.Spellable, name, arguments]

theorem Lambda.Expressible.spellable {function : Lambda} (expressible : function.Expressible) :
    Spellable function.tokens := by
  obtain ⟨parameter, body⟩ := expressible
  simpa [Lambda.tokens, Token.Spellable, parameter] using body.spellable

theorem Selector.Expressible.spellable {selector : Selector} (expressible : selector.Expressible) :
    Spellable selector.tokens := by
  cases selector with
  | identity => exact spellable_nil
  | field name => exact spellable_cons.2 ⟨expressible, spellable_nil⟩
  | lambda function => exact Lambda.Expressible.spellable expressible

theorem spellable_fixedName {word : String} (fixed : word ∈ fixedNames) :
    (Token.name word).Spellable :=
  isIdentifier_of_mem_fixedNames fixed

theorem spellable_sortKey {key : SortKey}
    (expressible : key.selector = .identity ∨ key.selector.Expressible) :
    Spellable key.tokens := by
  obtain ⟨selector, direction⟩ := key
  have word : (Token.name direction.word).Spellable :=
    spellable_fixedName (by cases direction <;> decide)
  have selected : Spellable selector.tokens := by
    rcases expressible with rfl | expressible
    · exact spellable_nil
    · exact expressible.spellable
  have given : (Token.name "by").Spellable := spellable_fixedName (by decide)
  cases selector <;> simp_all [SortKey.tokens]

theorem Comparator.Expressible.spellable {comparator : Comparator}
    (expressible : comparator.Expressible) : Spellable comparator.tokens := by
  refine spellable_intercalate ?_ (List.forall_mem_map.2 fun key member => ?_)
  · simpa using spellable_fixedName (by decide)
  · exact spellable_sortKey (expressible.2 key member)

theorem Aggregator.Expressible.spellable {aggregator : Aggregator}
    (expressible : aggregator.Expressible) : Spellable aggregator.tokens := by
  cases aggregator with
  | toList | toSet | counting =>
      simpa [Aggregator.tokens] using spellable_fixedName (by decide)
  | joining separator =>
      simpa [Aggregator.tokens, Token.Spellable] using isIdentifier_of_mem_fixedNames (by decide)
  | summing selector =>
      have name : (Token.name "summing").Spellable := spellable_fixedName (by decide)
      have selected : Spellable selector.tokens := Selector.Expressible.spellable expressible
      simp [Aggregator.tokens, name, selected]

theorem Stage.Expressible.spellable {stage : Stage} (expressible : stage.Expressible) :
    Spellable stage.tokens := by
  have name : (Token.name stage.name).Spellable :=
    spellable_fixedName (by cases stage <;> simp [Stage.name, fixedNames])
  have arguments : Spellable stage.argumentTokens := by
    cases stage with
    | filter selector | map selector | groupBy selector =>
        exact Selector.Expressible.spellable expressible
    | flatMap function => exact Lambda.Expressible.spellable expressible
    | sorted comparator =>
        cases comparator with
        | none => exact spellable_nil
        | some comparator => exact (expressible comparator rfl).spellable
    | distinct => exact spellable_nil
    | max comparator | min comparator => exact Comparator.Expressible.spellable expressible
    | sum selector =>
        rcases expressible with rfl | expressible
        · exact spellable_nil
        · exact expressible.spellable
    | collect aggregator => exact Aggregator.Expressible.spellable expressible
    | limit count | skip count => simpa [Stage.argumentTokens] using spellable_integer count
  simp [Stage.tokens, name, arguments]

theorem Chain.Expressible.spellable {chain : Chain} (expressible : chain.Expressible) :
    Spellable chain.tokens := by
  intro token member
  obtain ⟨stage, inChain, inStage⟩ := List.mem_flatMap.1 member
  exact (expressible.2 stage inChain).spellable token inStage

end Pipeline
