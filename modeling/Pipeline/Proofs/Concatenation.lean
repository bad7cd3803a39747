import Pipeline.Proofs.Lexing
import Pipeline.Proofs.ParserLocality

/-! Two scripts written one behind the other denote the stages of the first one followed by
those of the second one. -/

set_option autoImplicit false

namespace Pipeline

namespace Parse

variable {α β : Type}

/-! ## Arguments of stages -/

theorem selector_local : selector.Local := by
  refine .look (fun cursor => ?_) fun tokens more settled => ?_
  · split
    · exact lambda_local.bind fun _ => .pure _
    · exact advance_local.bind fun _ => .pure _
    · exact unexpected_local _
  · rcases settled.cases with ⟨rest, rfl⟩ | ⟨first, second, rest, rfl⟩
    · rfl
    · rfl

theorem optionalSelector_local : optionalSelector.Local := by
  refine .atSymbol_bind fun closed => ?_
  cases closed
  · exact selector_local
  · exact .pure _

theorem optionalDirection_local : optionalDirection.Local := by
  refine .current_bind fun token => ?_
  split
  · split
    · exact advance_local.bind fun _ => .pure _
    · exact .pure _
  · exact .pure _

theorem reversals_local (direction : Direction) (bound : Nat) :
    (reversals direction bound).Local := by
  induction bound generalizing direction with
  | zero => exact .pure _
  | succ bound ih =>
      refine .look (fun cursor => ?_) fun tokens more settled => ?_
      · split
        · exact advance_local.bind fun _ => advance_local.bind fun _ =>
            (expect_local _).bind fun _ => (expect_local _).bind fun _ => ih _
        · exact .pure _
      · rcases settled.cases with ⟨rest, rfl⟩ | ⟨first, second, rest, rfl⟩
        · rfl
        · rfl

theorem reversals_enough (direction : Direction) {bound : Nat} {tokens : List Token}
    (long : tokens.length ≤ bound) :
    (reversals direction (bound + 1)).run ⟨tokens, none⟩ =
      (reversals direction bound).run ⟨tokens, none⟩ := by
  induction bound generalizing direction tokens with
  | zero =>
      cases List.length_eq_zero_iff.1 (Nat.le_zero.1 long)
      rfl
  | succ bound ih =>
      refine run_bind_congr fun cursor _ looked => ?_
      cases looked
      split
      · refine run_bind_congr fun _ _ dotted => ?_
        cases of_run_advance dotted
        refine run_bind_congr fun _ _ named => ?_
        cases of_run_advance named
        refine run_bind_congr fun _ _ opened => ?_
        obtain ⟨inner, same, rfl⟩ := of_run_expect opened
        refine run_bind_congr fun _ _ closed => ?_
        obtain ⟨rest, rfl, rfl⟩ := of_run_expect closed
        have shorter := congrArg List.length same
        simp only [List.length_tail, List.length_cons] at shorter
        exact ih _ (by omega)
      · rfl

theorem factoryKey_local : factoryKey.Local := by
  have ending : ∀ selector : Selector, (do
      expect .rightParen
      return ⟨selector, ← reversals .ascending (← remaining)⟩ : Parse SortKey).Local := by
    intro selector
    refine (expect_local _).bind fun _ => .remaining_bind (fun bound => ?_) ?_
    · exact (reversals_local _ _).bind fun _ => .pure _
    · intro tokens bound long
      rw [StateT.run_bind, StateT.run_bind, reversals_enough _ long]
  refine advance_local.bind fun _ => advance_local.bind fun _ => (expectName_local _).bind
    fun factory => (expect_local _).bind fun _ => ?_
  split
  · exact (expect_local _).bind fun _ => .pure _
  · dsimp only
    split
    · exact selector_local.bind ending
    · split
      · exact (Local.pure _).bind ending
      · exact (Local.throw _).bind ending

theorem sortKey_local : sortKey.Local := by
  have directed : (do
      let selector ← selector
      let direction ← optionalDirection
      return ⟨selector, direction.getD .ascending⟩ : Parse SortKey).Local :=
    selector_local.bind fun _ => optionalDirection_local.bind fun _ => .pure _
  refine .atNameThen_bind fun factory => ?_
  cases factory
  · refine optionalDirection_local.bind fun given => ?_
    cases given with
    | some direction => exact .pure _
    | none =>
        refine .atName_bind fun word => .atNameThen_bind fun parameter => ?_
        split
        · exact advance_local.bind fun _ => directed
        · exact directed
  · exact factoryKey_local

theorem furtherKeys_local (bound : Nat) : (furtherKeys bound).Local := by
  induction bound with
  | zero => exact .pure _
  | succ bound ih =>
      refine .atName_bind fun more => ?_
      cases more
      · exact .pure _
      · exact advance_local.bind fun _ => sortKey_local.bind fun _ => ih.bind fun _ => .pure _

theorem furtherKeys_enough {bound : Nat} {tokens : List Token} (long : tokens.length ≤ bound) :
    (furtherKeys (bound + 1)).run ⟨tokens, none⟩ = (furtherKeys bound).run ⟨tokens, none⟩ := by
  induction bound generalizing tokens with
  | zero =>
      cases List.length_eq_zero_iff.1 (Nat.le_zero.1 long)
      rfl
  | succ bound ih =>
      refine run_bind_congr fun more _ looked => ?_
      cases looked
      split
      · refine run_bind_congr fun _ _ passed => ?_
        cases of_run_advance passed
        refine run_bind_congr fun key _ ran => ?_
        obtain ⟨rest, rfl, suffix, _⟩ := sortKey_local _ _ _ ran
        have shorter := suffix.length_le
        rw [List.length_tail] at shorter
        rw [StateT.run_bind, StateT.run_bind, ih (by omega)]
      · rfl

theorem comparator_local : comparator.Local := by
  refine sortKey_local.bind fun key => .remaining_bind (fun bound => ?_) ?_
  · exact (furtherKeys_local _).bind fun _ => .pure _
  · intro tokens bound long
    rw [StateT.run_bind, StateT.run_bind, furtherKeys_enough long]

theorem optionalComparator_local : optionalComparator.Local := by
  refine .atSymbol_bind fun closed => ?_
  cases closed
  · exact comparator_local.bind fun _ => .pure _
  · exact .pure _

theorem count_local (stage : CountedStage) : (count stage).Local := by
  refine .current_bind fun token => ?_
  split
  · dsimp only
    split
    · exact advance_local.bind fun _ => .pure _
    · exact .throw _
  · exact .throw _

theorem optionalText_local : optionalText.Local := by
  refine .current_bind fun token => ?_
  split
  · exact advance_local.bind fun _ => .pure _
  · exact .pure _

theorem aggregatorArguments_local (name : String) : (aggregatorArguments name).Local := by
  unfold aggregatorArguments
  split
  · exact .pure _
  · exact .pure _
  · exact .pure _
  · exact optionalText_local.map _
  · exact selector_local.map _
  · exact .throw _

theorem aggregator_local : aggregator.Local := by
  have named : (do
      let name ← expectName .aggregator
      expect .leftParen
      let aggregator ← aggregatorArguments name
      expect .rightParen
      return aggregator : Parse Aggregator).Local :=
    (expectName_local _).bind fun name => (expect_local _).bind fun _ =>
      (aggregatorArguments_local name).bind fun _ => (expect_local _).bind fun _ => .pure _
  refine .atNameThen_bind fun collectors => ?_
  cases collectors
  · exact named
  · exact advance_local.bind fun _ => advance_local.bind fun _ => named

theorem stageArguments_local {name : String} {arguments : Parse Stage}
    (found : stageArguments? name = some arguments) : arguments.Local := by
  unfold stageArguments? at found
  split at found <;> cases found
  · exact selector_local.map _
  · exact selector_local.map _
  · exact lambda_local.map _
  · exact optionalComparator_local.map _
  · exact optionalComparator_local.map _
  · exact .pure _
  · exact optionalComparator_local.map _
  · exact optionalComparator_local.map _
  · exact optionalComparator_local.map _
  · exact optionalComparator_local.map _
  · exact optionalSelector_local.map _
  · exact optionalSelector_local.map _
  · exact selector_local.map _
  · exact selector_local.map _
  · exact aggregator_local.map _
  · exact .pure _
  · exact .pure _
  · exact (count_local .limit).map _
  · exact (count_local .skip).map _

/-! ## Stages -/

/-- The parser passes a closing bracket last, and does the same in front of more tokens. -/
def Closes {α : Type} (parser : Parse α) : Prop :=
  ∀ (tokens : List Token) (result : α) (after : Cursor),
    parser.run ⟨tokens, none⟩ = .ok (result, after) →
      ∃ rest, after = ⟨rest, none⟩ ∧ .symbol .rightParen :: rest <:+ tokens ∧
        ∀ more, parser.run ⟨tokens ++ more, none⟩ = .ok (result, ⟨rest ++ more, none⟩)

theorem Closes.of_local {first : Parse α} {next : α → Parse β} (firstLocal : first.Local)
    (nextCloses : ∀ value, (next value).Closes) : (first >>= next).Closes := by
  intro tokens result after accepted
  obtain ⟨value, _, ran, further⟩ := run_bind_eq_ok.1 accepted
  obtain ⟨middle, rfl, suffix, same⟩ := firstLocal _ _ _ ran
  obtain ⟨rest, rfl, closing, furtherSame⟩ := nextCloses value _ _ _ further
  have settled : Settled middle := Settled.of_suffix (.inl rfl) closing
  refine ⟨rest, rfl, closing.trans suffix, fun more => ?_⟩
  exact run_bind_eq_ok.2 ⟨_, _, same settled more, furtherSame more⟩

theorem throw_closes (error : ParseError) : (throw error : Parse α).Closes := by
  intro tokens result after accepted
  cases accepted

theorem expect_closes (value : α) :
    (expect .rightParen >>= fun _ => pure value : Parse α).Closes := by
  intro tokens result after accepted
  obtain ⟨_, _, passed, further⟩ := run_bind_eq_ok.1 accepted
  obtain ⟨rest, rfl, rfl⟩ := of_run_expect passed
  cases further
  refine ⟨rest, rfl, List.suffix_refl _, fun more => ?_⟩
  rw [List.cons_append, run_expect_cons_bind]
  rfl

theorem stage_closes : stage.Closes := by
  refine .of_local (expectName_local _) fun name => ?_
  split
  · exact throw_closes _
  · rename_i arguments found
    exact .of_local (expect_local _) fun _ => .of_local (stageArguments_local found)
      expect_closes

theorem of_run_orElseThrow {previous : Option Stage} {word : Token} {tokens : List Token}
    {result : Unit} {after : Cursor}
    (accepted : (orElseThrow previous).run ⟨word :: tokens, none⟩ = .ok (result, after)) :
    ∃ rest, tokens = .symbol .leftParen :: .symbol .rightParen :: rest ∧ after = ⟨rest, none⟩ ∧
      failsOnEmpty previous = true := by
  rw [orElseThrow, run_advance_cons_bind] at accepted
  obtain ⟨_, _, opened, accepted⟩ := run_bind_eq_ok.1 accepted
  obtain ⟨inner, rfl, rfl⟩ := of_run_expect opened
  obtain ⟨_, _, closed, accepted⟩ := run_bind_eq_ok.1 accepted
  obtain ⟨rest, rfl, rfl⟩ := of_run_expect closed
  cases fails : failsOnEmpty previous with
  | false =>
      rw [fails] at accepted
      cases accepted
  | true =>
      rw [fails] at accepted
      cases accepted
      exact ⟨rest, rfl, rfl, rfl⟩

/-- The chain is read stage by stage from all of the tokens, each stage alike in front of more
tokens. -/
inductive Staged : Option Stage → List Token → Chain → Prop where
  | done {previous : Option Stage} : Staged previous [] []
  | thrown {previous : Option Stage} {rest : List Token} {chain : Chain} :
      failsOnEmpty previous = true → Staged previous rest chain →
      Staged previous
        (.symbol .dot :: .name "orElseThrow" :: .symbol .leftParen :: .symbol .rightParen :: rest)
        chain
  | stage {previous : Option Stage} {first : Stage} {name : Token} {tokens rest : List Token}
      {chain : Chain} : name ≠ .name "orElseThrow" →
      .symbol .rightParen :: rest <:+ name :: tokens →
      (∀ more, stage.run ⟨name :: (tokens ++ more), none⟩ = .ok (first, ⟨rest ++ more, none⟩)) →
      Staged (some first) rest chain →
      Staged previous (.symbol .dot :: name :: tokens) (first :: chain)

theorem staged_of_stages {previous : Option Stage} {bound : Nat} {tokens : List Token}
    {chain : Chain}
    (accepted : (stages previous bound).run ⟨tokens, none⟩ = .ok (chain, ⟨[], none⟩)) :
    Staged previous tokens chain := by
  induction bound generalizing previous tokens chain with
  | zero =>
      cases accepted
      exact .done
  | succ bound ih =>
      rw [stages, run_atSymbol_bind] at accepted
      split at accepted
      · rename_i dot
        obtain ⟨tokens, rfl⟩ := List.head?_eq_some_iff.1 (beq_iff_eq.1 dot)
        rw [run_advance_cons_bind, run_atName_bind] at accepted
        split at accepted
        · rename_i named
          obtain ⟨tokens, rfl⟩ := List.head?_eq_some_iff.1 (beq_iff_eq.1 named)
          obtain ⟨_, _, thrown, accepted⟩ := run_bind_eq_ok.1 accepted
          obtain ⟨rest, rfl, rfl, fails⟩ := of_run_orElseThrow thrown
          exact .thrown fails (ih accepted)
        · rename_i unnamed
          obtain ⟨first, _, found, accepted⟩ := run_bind_eq_ok.1 accepted
          obtain ⟨others, _, further, same⟩ := run_bind_eq_ok.1 accepted
          cases same
          obtain ⟨rest, rfl, closing, same⟩ := stage_closes _ _ _ found
          cases tokens with
          | nil => exact absurd closing.length_le (by simp)
          | cons name tokens =>
              have other : name ≠ .name "orElseThrow" := by
                rintro rfl
                exact unnamed (beq_self_eq_true (some (Token.name "orElseThrow")))
              exact .stage other closing same (ih further)
      · cases accepted
        exact .done

/-- Every stage takes a token at least, so the number of tokens is bound enough. -/
theorem Staged.stages {previous : Option Stage} {tokens : List Token} {chain : Chain}
    (staged : Staged previous tokens chain) {bound : Nat} (long : tokens.length ≤ bound) :
    (stages previous bound).run ⟨tokens, none⟩ = .ok (chain, ⟨[], none⟩) := by
  induction staged generalizing bound with
  | done => cases bound <;> rfl
  | @thrown previous rest chain fails _ ih =>
      obtain ⟨bound, rfl⟩ := Nat.exists_eq_succ_of_ne_zero (Nat.ne_zero_of_lt long)
      simp only [List.length_cons] at long
      rw [Parse.stages, run_atSymbol_cons_bind, if_pos rfl, run_advance_cons_bind,
        run_atName_cons_bind, if_pos rfl, StateT.run_bind, orElseThrow, run_advance_cons_bind,
        run_expect_cons_bind, run_expect_cons_bind, fails]
      exact ih (by omega)
  | @stage previous first name tokens rest chain other closing same _ ih =>
      obtain ⟨bound, rfl⟩ := Nat.exists_eq_succ_of_ne_zero (Nat.ne_zero_of_lt long)
      have shorter := closing.length_le
      simp only [List.length_cons] at long shorter
      have ran := same []
      rw [List.append_nil, List.append_nil] at ran
      rw [Parse.stages, run_atSymbol_cons_bind, if_pos rfl, run_advance_cons_bind,
        run_atName_ne_bind (by simpa using other), if_neg Bool.false_ne_true]
      refine run_bind_eq_ok.2 ⟨first, _, ran, ?_⟩
      exact run_bind_eq_ok.2 ⟨chain, _, ih (by omega), rfl⟩

theorem last_of_suffix {tokens rest : List Token}
    (closing : .symbol .rightParen :: rest <:+ tokens)
    (ends : ∀ token, rest.getLast? = some token → token = .symbol .rightParen) :
    ∀ token, tokens.getLast? = some token → token = .symbol .rightParen := by
  obtain ⟨taken, rfl⟩ := closing
  intro token last
  rw [List.getLast?_append, List.getLast?_cons, Option.some_or] at last
  cases behind : rest.getLast? with
  | none =>
      rw [behind] at last
      cases last
      rfl
  | some token =>
      rw [behind] at last
      cases last
      exact ends _ behind

theorem Staged.ends {previous : Option Stage} {tokens : List Token} {chain : Chain}
    (staged : Staged previous tokens chain) :
    ∀ token, tokens.getLast? = some token → token = .symbol .rightParen := by
  induction staged with
  | done => simp
  | thrown _ _ ih => exact last_of_suffix ⟨[_, _, _], rfl⟩ ih
  | stage _ closing _ _ ih => exact last_of_suffix (closing.trans (List.suffix_cons _ _)) ih

/-- What stands in front of all stages may stand behind any stage: it does not start with
`orElseThrow`. -/
theorem Staged.behind {tokens : List Token} {chain : Chain}
    (staged : Staged none tokens chain) (previous : Option Stage) :
    Staged previous tokens chain := by
  cases staged with
  | done => exact .done
  | thrown fails _ => cases fails
  | stage other closing same further => exact .stage other closing same further

theorem Staged.append {previous : Option Stage} {tokens others : List Token} {chain more : Chain}
    (staged : Staged previous tokens chain) (further : Staged none others more) :
    Staged previous (tokens ++ others) (chain ++ more) := by
  induction staged with
  | done => exact further.behind _
  | thrown fails _ ih => exact .thrown fails ih
  | stage other closing same _ ih =>
      obtain ⟨taken, all⟩ := closing
      refine .stage other ⟨taken, ?_⟩ (fun more => ?_) ih
      · simpa using congrArg (· ++ others) all
      · have ran := same (others ++ more)
        rwa [← List.append_assoc, ← List.append_assoc] at ran

end Parse

theorem Scan.noDigit_of_lexes_dot {text rest : List Char} {tokens : List Token}
    (lexes : Lexes text (.symbol .dot :: tokens) rest) :
    ∀ c, text.head? = some c → isDigit c = false := by
  intro c first
  obtain ⟨others, rfl⟩ := List.head?_eq_some_iff.1 first
  cases lexes with
  | next takes _ =>
      have dotted := takes_dot_iff.1 takes
      rw [Text.trimStart, List.dropWhile_cons] at dotted
      split at dotted
      · rename_i blank
        refine Bool.eq_false_iff.2 fun digit => ?_
        rw [not_isBlank_of_continuesName (continuesName_of_isDigit digit)] at blank
        cases blank
      · cases dotted
        rfl

/-- Scripts are put together stage by stage: nothing in the first one depends on what follows
it, and nothing in the second one on what stands in front of it. -/
theorem Chain.parse_append {first second : String} {chain other : Chain}
    (firstParsed : Chain.parse first = .ok chain) (secondParsed : Chain.parse second = .ok other) :
    Chain.parse (first ++ second) = .ok (chain ++ other) := by
  obtain ⟨tokens, rest, lexes, ended, dotted, read⟩ := Chain.parse_eq_ok_iff.1 firstParsed
  obtain ⟨others, last, furtherLexes, furtherEnded, furtherDotted, furtherRead⟩ :=
    Chain.parse_eq_ok_iff.1 secondParsed
  have staged := Parse.staged_of_stages read
  have further := Parse.staged_of_stages furtherRead
  obtain ⟨others, rfl⟩ := List.head?_eq_some_iff.1 furtherDotted
  have noDigit := Scan.noDigit_of_lexes_dot furtherLexes
  have joined := (lexes.append second.toList noDigit (.inl staged.ends)).trans
    (furtherLexes.behind_blanks ended)
  refine Chain.parse_eq_ok_iff.2 ⟨tokens ++ .symbol .dot :: others, last, ?_, furtherEnded, ?_, ?_⟩
  · rwa [String.toList_append]
  · rw [List.head?_append, dotted]
    rfl
  · exact (staged.append further).stages (Nat.le_refl _)

set_option maxRecDepth 20000 in
/-- A chain may be put behind `orElseThrow`, with blanks between the two. -/
theorem Chain.parse_append_orElseThrow :
    Chain.parse ".max(by then desc).orElseThrow() " =
        .ok [.max ⟨[⟨.field "then", .descending⟩]⟩] ∧
      Chain.parse " .map(by -> -1)" =
        .ok [.map (.lambda ⟨"by", .literal (.number (.integer (-1)))⟩)] ∧
      Chain.parse (".max(by then desc).orElseThrow() " ++ " .map(by -> -1)") =
        .ok [.max ⟨[⟨.field "then", .descending⟩]⟩,
          .map (.lambda ⟨"by", .literal (.number (.integer (-1)))⟩)] := by
  have first : Chain.parse ".max(by then desc).orElseThrow() " =
      .ok [.max ⟨[⟨.field "then", .descending⟩]⟩] := rfl
  have second : Chain.parse " .map(by -> -1)" =
      .ok [.map (.lambda ⟨"by", .literal (.number (.integer (-1)))⟩)] := rfl
  exact ⟨first, second, Chain.parse_append first second⟩

end Pipeline
