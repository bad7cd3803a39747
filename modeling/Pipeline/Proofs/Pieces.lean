import Pipeline.Proofs.ParserEndings
import Pipeline.Proofs.Spelling

/-! Texts put together from pieces, each of which is read by itself: their tokens stand one behind
the other, and what a parser reads from a whole piece it reads where the piece stands. -/

set_option autoImplicit false

namespace Pipeline

namespace Scan

/-- Apart from blanks the text holds exactly the tokens. -/
def Consists (text : List Char) (tokens : List Token) : Prop :=
  ∃ rest, Lexes text tokens rest ∧ Text.trimStart rest = []

variable {text first second middle : List Char} {tokens others : List Token}

theorem consists_nil : Consists [] [] :=
  ⟨[], .none, rfl⟩

theorem Consists.unique (consists : Consists text tokens) (other : Consists text others) :
    tokens = others := by
  rw [← String.toList_ofList (l := text)] at consists other
  exact (Lexed.ofScript_iff_lexes.2 consists).2.symm.trans (Lexed.ofScript_iff_lexes.2 other).2

theorem Consists.next {token : Token} (takes : Takes text token middle)
    (consists : Consists middle tokens) : Consists text (token :: tokens) := by
  obtain ⟨rest, lexes, ended⟩ := consists
  exact ⟨rest, .next (takes.trimStart.symm ▸ takes) lexes, ended⟩

theorem Consists.name {word : String} (identifier : IsIdentifier word)
    (ended : ∀ c, text.head? = some c → continuesName c = false) (consists : Consists text tokens) :
    Consists (word.toList ++ text) (.name word :: tokens) := by
  obtain ⟨⟨first, others, same, starts, continues⟩, noKeyword⟩ := identifier
  have takes := takes_word same starts continues ended
  rw [noKeyword] at takes
  exact consists.next takes

theorem Consists.blank (consists : Consists text tokens) : Consists (' ' :: text) tokens := by
  have skipped : Text.trimStart (' ' :: text) = Text.trimStart text := rfl
  obtain ⟨rest, lexes, ended⟩ := consists
  cases lexes with
  | none => exact ⟨_, .none, ended⟩
  | next takes others => exact ⟨rest, .next (skipped ▸ takes) others, ended⟩

theorem severs_gap {c : Char} (gap : c = ' ' ∨ c = ')') (text : List Char) :
    Severs (c :: text) := by
  intro d first
  cases first
  have ends := endsBefore_gap (gap.imp_right .inl) (.name "")
  obtain rfl | rfl := gap
  · exact ⟨ends, by decide⟩
  · exact ⟨ends, by decide⟩

/-- The second piece must not make the last token of the first one longer. -/
theorem Consists.append (front : Consists first tokens) (back : Consists second others)
    (noDigit : ∀ c, second.head? = some c → isDigit c = false)
    (closed : (∀ token, tokens.getLast? = some token → token = .symbol .rightParen) ∨
      Severs second) : Consists (first ++ second) (tokens ++ others) := by
  obtain ⟨rest, lexes, ended⟩ := front
  obtain ⟨last, further, endedBehind⟩ := back
  have joined := lexes.append second noDigit closed
  cases others with
  | nil =>
      -- Nothing is left of the second piece but blanks, behind those of the first one.
      cases further with
      | none =>
          refine ⟨rest ++ second, by rwa [List.append_nil], ?_⟩
          have empty : (rest.dropWhile Text.isBlank).isEmpty = true := List.isEmpty_iff.2 ended
          rw [Text.trimStart, List.dropWhile_append, if_pos empty]
          exact endedBehind
  | cons token others => exact ⟨last, joined.trans (further.behind_blanks ended), endedBehind⟩

theorem Consists.append_gap (front : Consists first tokens) {c : Char} (gap : c = ' ' ∨ c = ')')
    (back : Consists (c :: second) others) : Consists (first ++ c :: second) (tokens ++ others) :=
  front.append back (severs_gap gap second).noDigit (.inr (severs_gap gap second))

end Scan

open Scan

/-! ## Parsers of whole texts -/

namespace Parse

variable {α : Type} {parser : Parse α} {text : String} {result : α}

/-- What a parser makes of a text, all of which it reads. -/
def whole (parser : Parse α) (text : String) : Except ParseError α := do
  let cursor ← Cursor.ofScript text
  let (result, _) ← (do
    let result ← parser
    expectEnd
    return result : Parse α).run cursor
  return result

/-- The parser does not come upon a fault without noticing it. -/
def Reaching (parser : Parse α) : Prop :=
  ∀ cursor after result, parser.run cursor = .ok (result, after) → cursor.Reaches after

theorem ofScript_of_consists {tokens : List Token} (consists : Consists text.toList tokens) :
    Cursor.ofScript text = .ok ⟨tokens, none⟩ := by
  obtain ⟨faultless, same⟩ := Lexed.ofScript_iff_lexes.2 consists
  simp only [Cursor.ofScript, faultless, same]
  rfl

theorem whole_eq_ok_iff (reaching : parser.Reaching) : whole parser text = .ok result ↔
    ∃ tokens, Consists text.toList tokens ∧
      parser.run ⟨tokens, none⟩ = .ok (result, ⟨[], none⟩) := by
  constructor
  · intro accepted
    obtain ⟨cursor, started, accepted⟩ := bind_eq_ok.1 accepted
    obtain ⟨⟨_, after⟩, ran, same⟩ := bind_eq_ok.1 accepted
    cases same
    obtain ⟨rfl, outOfView⟩ := Cursor.ofScript_eq_ok started
    obtain ⟨_, ⟨left, fault⟩, first, further⟩ := run_bind_eq_ok.1 ran
    obtain ⟨_, _, ended, same⟩ := run_bind_eq_ok.1 further
    cases same
    obtain ⟨rfl, rfl⟩ := of_expectEnd ended
    have reaches := reaching _ _ _ first
    have faultless : fault = none := (reaches.outOfView outOfView).resolve_right (by simp)
    subst faultless
    have none : (Lexed.ofScript text).fault.map (·.2) = none := reaches.fault.symm
    rw [none] at first
    exact ⟨_, Lexed.ofScript_iff_lexes.1 ⟨Option.map_eq_none_iff.1 none, rfl⟩, first⟩
  · intro ⟨tokens, consists, ran⟩
    have all : (do
        let result ← parser
        expectEnd
        return result : Parse α).run ⟨tokens, none⟩ = .ok (result, ⟨[], none⟩) :=
      run_bind_eq_ok.2 ⟨result, ⟨[], none⟩, ran, rfl⟩
    exact bind_eq_ok.2 ⟨_, ofScript_of_consists consists, bind_eq_ok.2 ⟨_, all, rfl⟩⟩

/-- What is read from a whole piece of the text is read where further tokens follow, if the parser
ignores them. -/
theorem exists_tokens_of_whole (reaching : parser.Reaching)
    (accepted : whole parser text = .ok result) :
    ∃ tokens, Consists text.toList tokens ∧ ∀ more, parser.Ignores more →
      parser.run ⟨tokens ++ more, none⟩ = .ok (result, ⟨more, none⟩) := by
  obtain ⟨tokens, consists, ran⟩ := (whole_eq_ok_iff reaching).1 accepted
  refine ⟨tokens, consists, fun more ignores => ?_⟩
  obtain ⟨rest, same, further⟩ := ignores _ _ _ ran
  cases same
  exact further

theorem expression_reaching : expression.Reaching :=
  fun _ _ _ accepted => (expression_readsAs _ _ _ accepted).1

theorem selector_reaching : selector.Reaching :=
  fun _ _ _ accepted => (selector_writes _ _ _ accepted).1.reaches

theorem sortKey_reaching : sortKey.Reaching :=
  fun _ _ _ accepted => (sortKey_writes _ _ _ accepted).1.reaches

end Parse

def Selector.parse (text : String) : Except ParseError Selector :=
  Parse.whole Parse.selector text

def SortKey.parse (text : String) : Except ParseError SortKey :=
  Parse.whole Parse.sortKey text

theorem Expr.parse_eq_whole (text : String) : Expr.parse text = Parse.whole Parse.expression text :=
  rfl

/-! ## Chains -/

/-- The text is a chain, or nothing, which is no chain. -/
inductive Chain.Part : String → Chain → Prop where
  | nothing : Part "" []
  | chain {text : String} {chain : Chain} : Chain.parse text = .ok chain → Part text chain

theorem Chain.Part.staged {text : String} {chain : Chain} (part : Chain.Part text chain) :
    ∃ tokens, Consists text.toList tokens ∧ Parse.Staged none tokens chain ∧
      ∀ c, text.toList.head? = some c → isDigit c = false := by
  cases part with
  | nothing => exact ⟨[], consists_nil, .done, nofun⟩
  | chain parsed =>
      obtain ⟨tokens, rest, lexes, ended, dotted, read⟩ := Chain.parse_eq_ok_iff.1 parsed
      obtain ⟨others, rfl⟩ := List.head?_eq_some_iff.1 dotted
      exact ⟨_, ⟨rest, lexes, ended⟩, Parse.staged_of_stages read, noDigit_of_lexes_dot lexes⟩

namespace Parse

variable {previous : Option Stage} {tokens others : List Token} {chain : Chain}

/-- What fails behind the stages that are read fails with them in front of it. -/
theorem Staged.fails (staged : Staged previous tokens chain) {error : ParseError}
    (fails : ∀ previous bound, others.length ≤ bound →
      (Parse.stages previous bound).run ⟨others, none⟩ = .error error) {bound : Nat}
    (long : (tokens ++ others).length ≤ bound) :
    (Parse.stages previous bound).run ⟨tokens ++ others, none⟩ = .error error := by
  induction staged generalizing bound with
  | done => exact fails _ _ long
  | @thrown previous rest chain throws _ ih =>
      obtain ⟨bound, rfl⟩ := Nat.exists_eq_succ_of_ne_zero (Nat.ne_zero_of_lt long)
      simp only [List.cons_append, List.length_cons] at long ⊢
      rw [Parse.stages, run_atSymbol_cons_bind, if_pos rfl, run_advance_cons_bind,
        run_atName_cons_bind, if_pos rfl, StateT.run_bind, orElseThrow, run_advance_cons_bind,
        run_expect_cons_bind, run_expect_cons_bind, throws]
      exact ih (by omega)
  | @stage previous first name tokens rest chain other closing same _ ih =>
      obtain ⟨bound, rfl⟩ := Nat.exists_eq_succ_of_ne_zero (Nat.ne_zero_of_lt long)
      have shorter := closing.length_le
      simp only [List.cons_append, List.length_cons, List.length_append] at long shorter ih ⊢
      have further := ih (show rest.length + others.length ≤ bound by omega)
      rw [Parse.stages, run_atSymbol_cons_bind, if_pos rfl, run_advance_cons_bind,
        run_atName_ne_bind (by simpa using other), if_neg Bool.false_ne_true]
      exact bind_eq_error.2 (.inr ⟨_, same others, bind_eq_error.2 (.inl further)⟩)

theorem Staged.head?_append (staged : Staged none tokens chain) (others : List Token) :
    (tokens ++ .symbol .dot :: others).head? = some (.symbol .dot) := by
  cases staged with
  | done => rfl
  | thrown fails => cases fails
  | stage => rfl

end Parse

/-! ## A stage between chains -/

section Between

variable {front back text : String} {before after : Chain} {word : String} {tokens : List Token}

theorem Chain.Part.between (fronted : Chain.Part front before) (backed : Chain.Part back after)
    (consists : Consists text.toList (.name word :: tokens))
    (closed : (Token.name word :: tokens).getLast? = some (.symbol .rightParen)) :
    ∃ first last, Parse.Staged none first before ∧ Parse.Staged none last after ∧
      Consists (front ++ "." ++ text ++ back).toList
        (first ++ .symbol .dot :: (.name word :: tokens ++ last)) := by
  obtain ⟨first, frontConsists, frontStaged, _⟩ := fronted.staged
  obtain ⟨last, backConsists, backStaged, noDigit⟩ := backed.staged
  refine ⟨first, last, frontStaged, backStaged, ?_⟩
  have stageConsists := consists.append backConsists noDigit
    (.inl fun token found => Option.some.inj (found.symm.trans closed))
  have dotted : Consists ('.' :: (text.toList ++ back.toList))
      (.symbol .dot :: (.name word :: tokens ++ last)) := stageConsists.next (.symbol rfl)
  have joined := frontConsists.append dotted (by simp; decide) (.inl frontStaged.ends)
  simpa [String.toList_append] using joined

/-- The stage reads its text to the end, so nothing behind it matters. -/
theorem Chain.parse_between (fronted : Chain.Part front before) (backed : Chain.Part back after)
    (consists : Consists text.toList (.name word :: tokens)) {stage : Stage}
    (accepted : Parse.stage.run ⟨.name word :: tokens, none⟩ = .ok (stage, ⟨[], none⟩)) :
    Chain.parse (front ++ "." ++ text ++ back) = .ok (before ++ stage :: after) := by
  obtain ⟨_, same, closing, further⟩ := Parse.stage_closes _ _ _ accepted
  cases same
  have closed : (Token.name word :: tokens).getLast? = some (.symbol .rightParen) := by
    obtain ⟨taken, all⟩ := closing
    rw [← all, List.getLast?_concat]
  have other : Token.name word ≠ .name "orElseThrow" := by
    intro same
    cases same
    cases accepted
  obtain ⟨first, last, frontStaged, backStaged, rest, lexes, ended⟩ :=
    fronted.between backed consists closed
  -- As the stage closes, it is a chain of its own, and chains can be put one behind the other.
  have alone : Parse.Staged none (.symbol .dot :: .name word :: tokens) [stage] :=
    .stage other closing further .done
  have staged := frontStaged.append (alone.append backStaged)
  exact Chain.parse_eq_ok_iff.2 ⟨_, rest, lexes, ended, frontStaged.head?_append _,
    staged.stages (Nat.le_refl _)⟩

/-- What a stage fails with, the whole script fails with. -/
theorem Chain.parse_between_error (fronted : Chain.Part front before)
    (backed : Chain.Part back after) (consists : Consists text.toList (.name word :: tokens))
    (closed : (Token.name word :: tokens).getLast? = some (.symbol .rightParen))
    (other : word ≠ "orElseThrow") {error : ParseError}
    (refused : ∀ more, Parse.stage.run ⟨.name word :: tokens ++ more, none⟩ = .error error) :
    Chain.parse (front ++ "." ++ text ++ back) = .error error := by
  obtain ⟨first, last, frontStaged, _, rest, lexes, ended⟩ := fronted.between backed consists closed
  have fails : ∀ previous bound,
      (Token.symbol .dot :: (.name word :: tokens ++ last)).length ≤ bound →
      (Parse.stages previous bound).run ⟨.symbol .dot :: (.name word :: tokens ++ last), none⟩ =
        .error error := by
    intro previous bound long
    obtain ⟨bound, rfl⟩ := Nat.exists_eq_succ_of_ne_zero (Nat.ne_zero_of_lt long)
    rw [Parse.stages, Parse.run_atSymbol_cons_bind, if_pos rfl, Parse.run_advance_cons_bind,
      Parse.run_atName_ne_bind (by simpa using other), if_neg Bool.false_ne_true]
    exact bind_eq_error.2 (.inl (refused last))
  have all := frontStaged.fails fails (Nat.le_refl _)
  obtain ⟨others, same⟩ := List.head?_eq_some_iff.1 (frontStaged.head?_append
    (.name word :: tokens ++ last))
  rw [same] at all lexes
  rw [Chain.parse_of_lexes lexes ended, Parse.wholeChain, Parse.run_atSymbol_cons_bind, if_pos rfl,
    Parse.run_remaining_bind, StateT.run_bind, all]
  rfl

end Between

end Pipeline
