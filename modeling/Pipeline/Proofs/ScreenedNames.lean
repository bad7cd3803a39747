import Pipeline.Proofs.Lexing
import Pipeline.Proofs.Screening

/-! A script without lexical faults passes the screen if no forbidden word stands whole in one of
its names. What stands between names has no letters, and the contents of texts are blanked out. -/

set_option autoImplicit false

namespace Pipeline

namespace Scan

theorem continuesName_of_isLetter {c : Char} (letter : Text.isLetter c = true) :
    continuesName c = true :=
  continuesName_of_startsName (by simp [startsName, letter])

theorem IsNumberPart.isLetter_eq_false {c : Char} (part : IsNumberPart c) :
    Text.isLetter c = false := by
  obtain digit | rfl | rfl := part
  · have none := startsName_eq_false_of_isDigit digit
    simp only [startsName, Bool.or_eq_false_iff] at none
    exact none.1
  · decide +kernel
  · decide +kernel

theorem mem_blanksFor {c d : Char} (member : c ∈ blanksFor d) : c = ' ' :=
  List.eq_of_mem_replicate member

/-- A token is masked apart from the rest. There are letters in it only if it is a word, and then
it stands there as it is spelled. -/
theorem Takes.masks {text rest : List Char} {token : Token} (takes : Takes text token rest) :
    ∃ piece, maskFrom none text = piece ++ maskFrom none rest ∧
      ((∀ c ∈ piece, Text.isLetter c = false) ∨
        ∃ word, token = wordToken word ∧ piece = word.toList ∧
          ∀ c, rest.head? = some c → continuesName c = false) := by
  cases takes with
  | symbol found =>
      obtain ⟨consumed, rfl, -, sign⟩ := readSymbol?_signs found
      refine ⟨consumed, ?_, .inl fun c member => ?_⟩
      · exact maskFrom_none_append (fun c member => not_isQuote_of_mem_signs (sign c member)) _
      · rw [Bool.eq_false_iff]
        intro letter
        exact not_mem_signs_of_continuesName (continuesName_of_isLetter letter) (sign c member)
  | @text quote _ _ _ isQuote closed =>
      obtain ⟨inner, rfl, masks⟩ := maskFrom_of_readText closed
      refine ⟨quote :: (inner.flatMap blanksFor ++ [quote]), ?_, .inl fun c member => ?_⟩
      · rw [maskFrom_none_cons, if_pos isQuote, masks]
        simp
      · have noLetter : Text.isLetter quote = false := by
          rw [Bool.eq_false_iff]
          intro letter
          exact not_isQuote_of_continuesName (continuesName_of_isLetter letter) isQuote
        simp only [List.mem_cons, List.mem_append, List.mem_flatMap, List.not_mem_nil,
          or_false] at member
        obtain rfl | ⟨d, -, blank⟩ | rfl := member
        · exact noLetter
        · rw [mem_blanksFor blank]
          exact Text.blank_apart.1.not_contains (by decide)
        · exact noLetter
  | @word first others starts =>
      have all : ∀ c ∈ (first :: others).takeWhile continuesName, continuesName c = true :=
        List.all_eq_true.1 List.all_takeWhile
      have stops : ∀ c, ((first :: others).dropWhile continuesName).head? = some c →
          continuesName c = false := by
        intro c found
        have stopped := List.head?_dropWhile_not continuesName (first :: others)
        rwa [found] at stopped
      have masks := maskFrom_none_append
        (fun c member => not_isQuote_of_continuesName (all c member))
        ((first :: others).dropWhile continuesName)
      rw [List.takeWhile_append_dropWhile] at masks
      exact ⟨_, masks, .inr ⟨_, rfl, String.toList_ofList.symm, stops⟩⟩
  | @number first text digit =>
      obtain ⟨others, same, parts⟩ := readNumber_taken digit text
      have all : ∀ c ∈ first :: others, IsNumberPart c :=
        List.forall_mem_cons.2 ⟨.inl digit, parts⟩
      have masks := maskFrom_none_append (fun c member => (all c member).not_isQuote)
        (readNumber (first :: text)).2
      rw [List.cons_append, ← same] at masks
      exact ⟨_, masks, .inl fun c member => (all c member).isLetter_eq_false⟩

/-- A word of letters that stands whole in a masked text stands whole in a word of the text. -/
theorem Lexes.holds {word text rest : List Char} {tokens : List Token} (some : word ≠ [])
    (letters : ∀ c ∈ word, Text.isLetter c = true) (lexes : Lexes text tokens rest)
    (ended : Text.trimStart rest = []) (holds : Text.Holds word (maskFrom .none text)) :
    ∃ spelling, wordToken spelling ∈ tokens ∧ Text.Holds word spelling.toList := by
  obtain ⟨first, others, rfl⟩ := List.exists_cons_of_ne_nil some
  have letter := letters first (.head _)
  have noBlank : ∀ text : List Char, first ∉ text.takeWhile Text.isBlank := by
    intro text member
    have blank := List.all_eq_true.1 List.all_takeWhile first member
    rw [not_isBlank_of_continuesName (continuesName_of_isLetter letter)] at blank
    cases blank
  induction lexes with
  | none =>
      rw [maskFrom_none_trimStart, ended] at holds
      obtain ⟨front, back, same, -⟩ := holds.of_append_right rfl (noBlank _)
      simp [maskFrom] at same
  | @next text middle rest token tokens takes _ ih =>
      rw [maskFrom_none_trimStart] at holds
      have holds := holds.of_append_right rfl (noBlank _)
      obtain ⟨piece, masks, noLetter | ⟨spelling, rfl, rfl, stops⟩⟩ := takes.masks
      · rw [masks] at holds
        have absent : first ∉ piece := by
          intro member
          have none := noLetter first member
          rw [letter] at none
          cases none
        obtain ⟨spelling, member, within⟩ := ih ended (holds.of_append_right rfl absent)
        exact ⟨spelling, .tail _ member, within⟩
      · rw [masks] at holds
        rw [← head?_maskFrom_none] at stops
        have continues : ∀ c ∈ first :: others, continuesName c = true := fun c member =>
          continuesName_of_isLetter (letters c member)
        obtain here | behind := holds.of_append some continues stops
        · exact ⟨spelling, .head _, here⟩
        · obtain ⟨spelling, member, within⟩ := ih ended behind
          exact ⟨spelling, .tail _ member, within⟩

end Scan

theorem letters_of_forbidden : ∀ word ∈ forbiddenWords, word.toList ≠ [] ∧
    ∀ c ∈ word.toList, Text.isLetter c = true := by
  have all : ∀ word ∈ forbiddenWords, word.toList ≠ [] ∧ word.toList.all Char.isAlpha = true := by
    decide
  exact fun word member => ⟨(all word member).1, fun c inside =>
    Text.isLetter_of_isAlpha (List.all_eq_true.1 (all word member).2 c inside)⟩

theorem not_holds_of_keyword {keyword : String} (isKeyword : keyword ∈ Scan.keywords) :
    ∀ word ∈ forbiddenWords, ¬ Text.Holds word.toList keyword.toList := by
  have none : ∀ keyword ∈ Scan.keywords,
      Text.firstWord? forbiddenWords none keyword.toList = none := by decide
  exact (Text.firstWord?_eq_none_iff isWord_of_forbidden).1 (none keyword isKeyword)

namespace Lexed

variable {script : String} (faultless : (ofScript script).fault = none)
include faultless

theorem name_of_holds {word : String} (forbidden : word ∈ forbiddenWords)
    (holds : Text.Holds word.toList (maskLiterals script)) :
    ∃ name, Token.name name ∈ (ofScript script).tokens.map (·.2) ∧
      Text.Holds word.toList name.toList := by
  obtain ⟨rest, lexes, ended⟩ := ofScript_iff_lexes.1 ⟨faultless, rfl⟩
  obtain ⟨some, letters⟩ := letters_of_forbidden word forbidden
  obtain ⟨name, member, within⟩ := lexes.holds some letters ended holds
  have noKeyword : name ∉ Scan.keywords := by
    intro isKeyword
    exact not_holds_of_keyword isKeyword word forbidden within
  rw [Scan.wordToken_eq_name_iff.2 noKeyword] at member
  exact ⟨name, member, within⟩

theorem holds_of_cites {name : String} {word : List Char}
    (cited : Grammar.Cites ((ofScript script).tokens.map (·.2)) name)
    (holds : Text.Holds word name.toList) : Text.Holds word (maskLiterals script) := by
  obtain ⟨front, back, masks, around⟩ := whole_of_cites faultless cited
  rw [masks]
  exact holds.between around

end Lexed

theorem screen_of_short {limit : Nat} {script : String} (short : script.utf8ByteSize ≤ limit) :
    screen limit script =
      match Text.firstWord? forbiddenWords none (maskLiterals script) with
      | some word => .error (.forbidden word)
      | none => .ok () :=
  if_neg (Nat.not_lt.2 short)

/-- A script that is short enough is refused exactly for the forbidden words that stand whole in
what is left of it. -/
theorem screen_cases {limit : Nat} {script : String} (short : script.utf8ByteSize ≤ limit) :
    (screen limit script = .ok () ∧
        ∀ word ∈ forbiddenWords, ¬ Text.Holds word.toList (maskLiterals script)) ∨
      ∃ word ∈ forbiddenWords, screen limit script = .error (.forbidden word) ∧
        Text.Holds word.toList (maskLiterals script) := by
  have screened := screen_of_short short
  cases found : Text.firstWord? forbiddenWords none (maskLiterals script) with
  | none =>
      rw [found] at screened
      exact .inl ⟨screened, (Text.firstWord?_eq_none_iff isWord_of_forbidden).1 found⟩
  | some word =>
      rw [found] at screened
      obtain ⟨member, holds⟩ := Text.holds_of_firstWord? isWord_of_forbidden found
      exact .inr ⟨word, member, screened, holds⟩

/-- A script without lexical faults passes the screen if no forbidden word stands whole in one of
its names, be it the name itself or a part between characters that are none of words. It is refused
if one does in a name that does not directly follow a number. -/
theorem screen_names {limit : Nat} {script : String} (short : script.utf8ByteSize ≤ limit)
    (faultless : (Lexed.ofScript script).fault = none) :
    ((∀ name, Token.name name ∈ (Lexed.ofScript script).tokens.map (·.2) →
        ∀ word ∈ forbiddenWords, ¬ Text.Holds word.toList name.toList) →
      screen limit script = .ok ()) ∧
    ∀ name, Grammar.Cites ((Lexed.ofScript script).tokens.map (·.2)) name →
      (∃ word ∈ forbiddenWords, Text.Holds word.toList name.toList) →
      ∃ word ∈ forbiddenWords, screen limit script = .error (.forbidden word) := by
  have cases := screen_cases short
  constructor
  · intro free
    refine (cases.resolve_right ?_).1
    intro refused
    obtain ⟨word, forbidden, -, holds⟩ := refused
    obtain ⟨spelling, member, within⟩ := Lexed.name_of_holds faultless forbidden holds
    exact free spelling member word forbidden within
  · intro name cited held
    obtain ⟨word, forbidden, holds⟩ := held
    have found := Lexed.holds_of_cites faultless cited holds
    obtain ⟨-, free⟩ | ⟨other, member, screened, -⟩ := cases
    · exact absurd found (free word forbidden)
    · exact ⟨other, member, screened⟩

/-- The word `new` starts a name and is a text. -/
theorem screen_names_newValue :
    let script := ".filter(newValue -> newValue != \"new\").limit(5)"
    let tokens := (Lexed.ofScript script).tokens.map (·.2)
    script.utf8ByteSize ≤ 4096 ∧ (Lexed.ofScript script).fault = none ∧
      (∀ name, Token.name name ∈ tokens →
        ∀ word ∈ forbiddenWords, ¬ Text.Holds word.toList name.toList) ∧
      screen 4096 script = .ok () := by
  intro script tokens
  have short : script.utf8ByteSize ≤ 4096 := by decide +kernel
  have faultless : (Lexed.ofScript script).fault = none := by decide +kernel
  have names : ∀ name, Token.name name ∈ tokens → name ∈ ["filter", "newValue", "limit"] := by
    have all : tokens = [.symbol .dot, .name "filter", .symbol .leftParen, .name "newValue",
        .symbol .arrow, .name "newValue", .symbol .notEqual, .text "new", .symbol .rightParen,
        .symbol .dot, .name "limit", .symbol .leftParen, .integer "5", .symbol .rightParen] := by
      decide +kernel
    intro name member
    rw [all] at member
    simpa [or_comm, or_assoc, or_left_comm] using member
  have free : ∀ name, Token.name name ∈ tokens →
      ∀ word ∈ forbiddenWords, ¬ Text.Holds word.toList name.toList := by
    intro name member word forbidden
    have plain : ∀ name ∈ ["filter", "newValue", "limit"],
        name.toList.all Text.isWordChar = true ∧ name ∉ forbiddenWords := by
      decide +kernel
    obtain ⟨all, permitted⟩ := plain name (names name member)
    rw [Text.holds_iff_eq (List.all_eq_true.1 all), String.toList_inj]
    intro same
    exact permitted (same ▸ forbidden)
  exact ⟨short, faultless, free, (screen_names short faultless).1 free⟩

/-- A superscript may continue a name but is no character of words, so `new` stands whole in a
name that goes on. -/
theorem screen_refuses_part_of_name :
    let script := ".map(new\u00b2 -> new\u00b2)"
    let tokens := (Lexed.ofScript script).tokens.map (·.2)
    script.utf8ByteSize ≤ 4096 ∧ (Lexed.ofScript script).fault = none ∧
      (∀ name, Token.name name ∈ tokens → name ∉ forbiddenWords) ∧
      screen 4096 script = .error (.forbidden "new") := by
  intro script tokens
  have all : tokens = [.symbol .dot, .name "map", .symbol .leftParen, .name "new\u00b2",
      .symbol .arrow, .name "new\u00b2", .symbol .rightParen] := by
    decide +kernel
  have short : script.utf8ByteSize ≤ 4096 := by decide +kernel
  have found : Text.firstWord? forbiddenWords none (maskLiterals script) = some "new" := by
    decide +kernel
  have permitted : ∀ name, Token.name name ∈ tokens → name ∉ forbiddenWords := by
    intro name member
    have either : name = "map" ∨ name = "new\u00b2" := by
      rw [all] at member
      simpa using member
    obtain rfl | rfl := either <;> decide
  refine ⟨short, by decide +kernel, permitted, ?_⟩
  rw [screen_of_short short, found]

end Pipeline
