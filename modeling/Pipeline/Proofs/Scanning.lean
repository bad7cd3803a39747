import Pipeline.Policy.Screen
import Pipeline.Proofs.Characters
import Pipeline.Proofs.Mention

/-! What the scanner takes for one token, and what stands there once the contents of text
literals are blanked out. -/

set_option autoImplicit false

namespace Pipeline

open Grammar

theorem Text.length_trimStart_le (text : List Char) : (trimStart text).length ≤ text.length :=
  (List.dropWhile_suffix _).length_le

namespace Scan

/-- The token is spelled at the front of a text, up to the rest. -/
inductive Spells : List Char → Token → List Char → Prop where
  | symbol {symbol : Symbol} (consumed : List Char) {rest : List Char} : consumed ≠ [] →
      (∀ c ∈ consumed, c ∈ signs) → Spells (consumed ++ rest) (.symbol symbol) rest
  | text {quote : Char} {text content rest : List Char} : IsQuote quote →
      readText quote text = .closed content rest →
      Spells (quote :: text) (.text (String.ofList content)) rest
  /-- A word is as long as can be. -/
  | word {first : Char} {others rest : List Char} : startsName first = true →
      (∀ c ∈ others, continuesName c = true) →
      (∀ c, rest.head? = some c → continuesName c = false) →
      Spells (first :: (others ++ rest)) (wordToken (String.ofList (first :: others))) rest
  | number {token : Token} {first : Char} (others : List Char) {rest : List Char} :
      IsNumber token → isDigit first = true → (∀ c ∈ others, ¬ IsQuote c) →
      Spells (first :: (others ++ rest)) token rest

theorem readSymbol?_signs {symbol : Symbol} {text rest : List Char}
    (found : readSymbol? text = some (symbol, rest)) :
    ∃ consumed, text = consumed ++ rest ∧ consumed ≠ [] ∧ ∀ c ∈ consumed, c ∈ signs := by
  unfold readSymbol? at found
  split at found <;> cases found
  all_goals first
    | exact ⟨[_], rfl, by simp, by simp [signs]⟩
    | exact ⟨[_, _], rfl, by simp, by simp [signs]⟩

theorem readSymbol?_spells {symbol : Symbol} {text rest : List Char}
    (found : readSymbol? text = some (symbol, rest)) : Spells text (.symbol symbol) rest := by
  obtain ⟨consumed, rfl, some, sign⟩ := readSymbol?_signs found
  exact .symbol consumed some sign

theorem textToken_spells {length : Nat} {quote : Char} {text rest : List Char} {token : Token}
    (isQuote : IsQuote quote)
    (scanned : textToken length quote (quote :: text) = .token token rest) :
    Spells (quote :: text) token rest := by
  unfold textToken at scanned
  split at scanned
  · rename_i content after closed
    cases scanned
    exact .text isQuote closed
  all_goals cases scanned

theorem readDigits_taken (text : List Char) :
    ∃ consumed, text = consumed ++ (readDigits text).2 ∧
      (∀ c ∈ consumed, isDigit c = true ∨ c = '_') ∧
      ∀ c, text.head? = some c → isDigit c = true → consumed ≠ [] := by
  fun_induction readDigits text with
  | case1 => exact ⟨[], rfl, by simp, by simp⟩
  | case2 next rest digit ih =>
      obtain ⟨consumed, all, parts, _⟩ := ih
      exact ⟨'_' :: consumed, by rw [List.cons_append, ← all],
        List.forall_mem_cons.2 ⟨.inr rfl, parts⟩, by simp⟩
  | case3 next rest other => exact ⟨[], rfl, by simp, by simp; decide⟩
  | case4 c rest _ digit digits after read ih =>
      rw [read] at ih
      obtain ⟨consumed, all, parts, _⟩ := ih
      exact ⟨c :: consumed, by rw [List.cons_append, ← all],
        List.forall_mem_cons.2 ⟨.inl digit, parts⟩, by simp⟩
  | case5 c rest _ other =>
      exact ⟨[], rfl, by simp, by simpa using other⟩

/-- The character may stand in a number. -/
def IsNumberPart (c : Char) : Prop :=
  isDigit c = true ∨ c = '_' ∨ c = '.'

theorem IsNumberPart.not_isQuote {c : Char} (part : IsNumberPart c) : ¬ IsQuote c := by
  obtain digit | rfl | rfl := part
  · exact not_isQuote_of_isDigit digit
  · decide
  · decide

/-- A number is made of digits, underscores and points, the first of which is a digit. -/
theorem readNumber_taken {first : Char} (digit : isDigit first = true) (text : List Char) :
    ∃ others, text = others ++ (readNumber (first :: text)).2 ∧
      ∀ c ∈ others, IsNumberPart c := by
  obtain ⟨consumed, all, parts, some⟩ := readDigits_taken (first :: text)
  obtain ⟨head, others, rfl⟩ := List.exists_cons_of_ne_nil (some first rfl digit)
  rw [List.cons_append] at all
  obtain ⟨rfl, same⟩ := List.cons.inj all
  have parts : ∀ c ∈ others, IsNumberPart c := fun c member =>
    (parts c (.tail _ member)).imp_right .inl
  unfold readNumber
  cases read : readDigits (first :: text) with
  | mk whole rest =>
      rw [read] at same
      dsimp only at same ⊢
      split
      · rename_i next rest
        split
        · obtain ⟨fraction, divided, fractionParts, _⟩ := readDigits_taken (next :: rest)
          refine ⟨others ++ '.' :: fraction, ?_, ?_⟩
          · rw [same, List.append_assoc, List.cons_append, ← divided]
          · intro c member
            simp only [List.mem_append, List.mem_cons] at member
            obtain inWhole | rfl | inFraction := member
            · exact parts c inWhole
            · exact .inr (.inr rfl)
            · exact (fractionParts c inFraction).imp_right .inl
        · exact ⟨others, same, parts⟩
      · exact ⟨others, same, parts⟩

theorem isNumber_readNumber (text : List Char) : IsNumber (readNumber text).1 := by
  unfold readNumber
  obtain ⟨whole, rest⟩ := readDigits text
  dsimp only
  split
  · split
    · exact .float
    · exact .integer
  · exact .integer

theorem readNumber_spells {first : Char} {text : List Char} (digit : isDigit first = true) :
    Spells (first :: text) (readNumber (first :: text)).1 (readNumber (first :: text)).2 := by
  obtain ⟨others, same, parts⟩ := readNumber_taken digit text
  have spelled := @Spells.number _ first others (readNumber (first :: text)).2
    (isNumber_readNumber (first :: text)) digit fun c member => (parts c member).not_isQuote
  rwa [← same] at spelled

theorem visible_spells {length : Nat} {text rest : List Char} {token : Token}
    (scanned : visible length text = .token token rest) : Spells text token rest := by
  unfold visible at scanned
  split at scanned
  · rename_i symbol after found
    cases scanned
    exact readSymbol?_spells found
  · split at scanned
    · cases scanned
    · rename_i first others _
      split at scanned
      · rename_i quote
        exact textToken_spells quote scanned
      · split at scanned
        · rename_i starts
          cases scanned
          have continues := continuesName_of_startsName starts
          have ended : ∀ c, (others.dropWhile continuesName).head? = some c →
              continuesName c = false := by
            intro c found
            have stopped := List.head?_dropWhile_not continuesName others
            rwa [found] at stopped
          have all : ∀ c ∈ others.takeWhile continuesName, continuesName c = true :=
            List.all_eq_true.1 List.all_takeWhile
          have spelled := Spells.word starts all ended
          rw [List.takeWhile_append_dropWhile] at spelled
          rw [List.takeWhile_cons, List.dropWhile_cons, if_pos continues, if_pos continues]
          exact spelled
        · split at scanned
          · rename_i digit
            cases scanned
            exact readNumber_spells digit
          · split at scanned <;> cases scanned

theorem visible_ne_finished {length : Nat} {c : Char} {others : List Char} :
    visible length (c :: others) ≠ .finished := by
  intro finished
  unfold visible textToken at finished
  split at finished
  · cases finished
  · dsimp only at finished
    repeat' split at finished
    all_goals cases finished

/-- A token that does not start like a name or a number does not start like a word. -/
theorem Spells.isWordChar_first {c : Char} {others rest : List Char} {token : Token}
    (spells : Spells (c :: others) token rest) (ends : continuesName c = false) :
    Text.isWordChar c = false := by
  generalize same : c :: others = text at spells
  cases spells with
  | symbol consumed some sign =>
      obtain ⟨first, consumed, rfl⟩ := List.exists_cons_of_ne_nil some
      cases same
      exact isWordChar_of_mem_signs (sign c (.head _))
  | text quote _ =>
      cases same
      exact isWordChar_of_isQuote quote
  | word starts _ _ =>
      cases same
      rw [continuesName_of_startsName starts] at ends
      cases ends
  | number _ _ digit _ =>
      cases same
      rw [continuesName_of_isDigit digit] at ends
      cases ends

end Scan

/-! ## Blanking out the contents of text literals -/

theorem maskFrom_none_cons (c : Char) (rest : List Char) :
    maskFrom none (c :: rest) = c :: maskFrom (if Scan.IsQuote c then some c else none) rest :=
  rfl

theorem maskFrom_none_append {plain : List Char} (unquoted : ∀ c ∈ plain, ¬ Scan.IsQuote c)
    (rest : List Char) : maskFrom none (plain ++ rest) = plain ++ maskFrom none rest := by
  induction plain with
  | nil => rfl
  | cons c plain ih =>
      obtain ⟨first, others⟩ := List.forall_mem_cons.1 unquoted
      rw [List.cons_append, maskFrom_none_cons, if_neg first, ih others, List.cons_append]

theorem head?_maskFrom_none (text : List Char) : (maskFrom none text).head? = text.head? := by
  cases text <;> rfl

theorem closed_of_cons {c : Char} {scan : Scan.TextScan} {content rest : List Char}
    (closed : scan.cons c = .closed content rest) : ∃ inner, scan = .closed inner rest := by
  cases scan <;> cases closed
  exact ⟨_, rfl⟩

/-- A text is blanked out, byte for byte, up to the quote that closes it. -/
theorem maskFrom_of_readText {quote : Char} {text content rest : List Char}
    (closed : Scan.readText quote text = .closed content rest) :
    ∃ inner, text = inner ++ quote :: rest ∧
      maskFrom (some quote) text = inner.flatMap blanksFor ++ quote :: maskFrom none rest := by
  fun_induction Scan.readText quote text generalizing content with
  | case1 => cases closed
  | case2 => cases closed
  | case3 letter others _ _ ih =>
      obtain ⟨_, closed⟩ := closed_of_cons closed
      obtain ⟨inner, rfl, masks⟩ := ih closed
      refine ⟨'\\' :: letter :: inner, rfl, ?_⟩
      rw [maskFrom, masks, List.flatMap_cons, List.flatMap_cons, List.append_assoc,
        List.append_assoc]
  | case4 => cases closed
  | case5 others _ noEscape =>
      cases closed
      refine ⟨[], rfl, ?_⟩
      rw [maskFrom.eq_4 _ _ _ noEscape, if_pos rfl, List.flatMap_nil, List.nil_append]
  | case6 c others _ noEscape other ih =>
      obtain ⟨_, closed⟩ := closed_of_cons closed
      obtain ⟨inner, rfl, masks⟩ := ih closed
      refine ⟨c :: inner, rfl, ?_⟩
      rw [maskFrom.eq_4 _ _ _ noEscape, if_neg other, masks, List.flatMap_cons, List.append_assoc]

theorem maskFrom_none_trimStart (text : List Char) :
    maskFrom none text = text.takeWhile Text.isBlank ++ maskFrom none (Text.trimStart text) := by
  have blanks : ∀ c ∈ text.takeWhile Text.isBlank, Text.isBlank c = true :=
    List.all_eq_true.1 List.all_takeWhile
  have split : text.takeWhile Text.isBlank ++ Text.trimStart text = text :=
    List.takeWhile_append_dropWhile
  rw [← maskFrom_none_append fun c member => Scan.not_isQuote_of_isBlank (blanks c member), split]

/-- No name goes on from the one text into the other one. -/
def Divided (front back : List Char) : Prop :=
  (∀ c, front.getLast? = some c → Text.isWordChar c = false) ∨
    ∀ c, back.head? = some c → Scan.continuesName c = false

theorem Divided.ends {front back : List Char} (divided : Divided front back) {first : Char}
    (head : back.head? = some first) (continues : Scan.continuesName first = true) :
    ∀ c, front.getLast? = some c → Text.isWordChar c = false := by
  rcases divided with ends | stops
  · exact ends
  · rw [stops first head] at continues
    cases continues

theorem Scan.unquoted_of_word {first : Char} {others : List Char}
    (starts : startsName first = true) (continues : ∀ c ∈ others, continuesName c = true) :
    ∀ c ∈ first :: others, ¬ IsQuote c :=
  List.forall_mem_cons.2 ⟨not_isQuote_of_continuesName (continuesName_of_startsName starts),
    fun c member => not_isQuote_of_continuesName (continues c member)⟩

/-- A token is masked apart from the rest. A name that follows it directly is divided from it,
unless the token is a number. -/
theorem Scan.Spells.masks {text rest : List Char} {token : Token}
    (spells : Spells text token rest) :
    rest.length < text.length ∧
      ∃ masked, masked ≠ [] ∧ maskFrom none text = masked ++ maskFrom none rest ∧
        (IsNumber token ∨ Divided masked rest) := by
  cases spells with
  | symbol consumed some sign =>
      have length := List.length_pos_iff.2 some
      refine ⟨by rw [List.length_append]; omega, consumed, some, ?_, .inr (.inl fun c last => ?_)⟩
      · exact maskFrom_none_append (fun c member => not_isQuote_of_mem_signs (sign c member)) _
      · exact isWordChar_of_mem_signs (sign c (List.mem_of_getLast? last))
  | @text quote _ _ _ isQuote closed =>
      obtain ⟨inner, rfl, masks⟩ := maskFrom_of_readText closed
      refine ⟨by simp only [List.length_cons, List.length_append]; omega,
        quote :: (inner.flatMap blanksFor ++ [quote]), by simp, ?_, .inr (.inl fun c last => ?_)⟩
      · rw [maskFrom_none_cons, if_pos isQuote, masks]
        simp
      · rw [← List.cons_append, List.getLast?_concat] at last
        cases last
        exact isWordChar_of_isQuote isQuote
  | @word first others _ starts continues ended =>
      refine ⟨by simp only [List.length_cons, List.length_append]; omega, first :: others, by simp,
        ?_, .inr (.inr ended)⟩
      exact maskFrom_none_append (unquoted_of_word starts continues) _
  | @number _ first others _ isNumber digit plain =>
      refine ⟨by simp only [List.length_cons, List.length_append]; omega, first :: others, by simp,
        ?_, .inl isNumber⟩
      exact maskFrom_none_append
        (List.forall_mem_cons.2 ⟨not_isQuote_of_isDigit digit, plain⟩) _

theorem Scan.eq_of_wordToken_eq_name {word name : String}
    (found : wordToken word = .name name) : name = word := by
  unfold wordToken at found
  repeat' split at found
  all_goals cases found
  rfl

/-- The words that are no names. -/
def Scan.keywords : List String :=
  ["and", "or", "not", "true", "false"]

theorem Scan.wordToken_eq_name_iff {word : String} :
    wordToken word = .name word ↔ word ∉ keywords := by
  simp only [keywords, List.mem_cons, List.not_mem_nil, or_false, not_or]
  unfold wordToken
  repeat' split
  all_goals simp_all

/-- A name is masked as it is spelled, and is not followed by what continues it. -/
theorem Scan.Spells.masks_name {text rest : List Char} {name : String}
    (spells : Spells text (.name name) rest) :
    maskFrom none text = name.toList ++ maskFrom none rest ∧
      (∃ c, name.toList.head? = some c ∧ continuesName c = true) ∧
      ∀ c, rest.head? = some c → continuesName c = false := by
  generalize same : Token.name name = token at spells
  cases spells with
  | symbol | text => cases same
  | @word first others _ starts continues ended =>
      cases eq_of_wordToken_eq_name same.symm
      rw [String.toList_ofList]
      exact ⟨maskFrom_none_append (unquoted_of_word starts continues) _,
        ⟨first, rfl, continuesName_of_startsName starts⟩, ended⟩
  | number _ isNumber =>
      subst same
      exact absurd isNumber (not_isNumber_name _)

end Pipeline
