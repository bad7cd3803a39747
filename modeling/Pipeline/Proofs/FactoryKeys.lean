import Pipeline.Proofs.KeyLists

/-! Sort keys made of a selector: behind `by` with a direction, and in a call of a factory with any
number of `.reversed()` behind it. -/

set_option autoImplicit false

namespace Pipeline

open Scan

namespace Parse

variable {more tokens : List Token}

/-- Behind a sort key its text may end, or a follower stands. -/
def EndsKey (more : List Token) : Prop :=
  more = [] ∨ KeyFollower more

theorem Local.ignores_nil {α : Type} {parser : Parse α} (parserLocal : parser.Local) :
    parser.Ignores [] := by
  intro tokens result after accepted
  obtain ⟨rest, rfl, _⟩ := parserLocal _ _ _ accepted
  exact ⟨rest, rfl, by rwa [List.append_nil, List.append_nil]⟩

theorem EndsKey.selector_ignores (ends : EndsKey more) : selector.Ignores more := by
  obtain rfl | follows := ends
  · exact selector_local.ignores_nil
  · exact Parse.selector_ignores follows.follows

theorem EndsKey.optionalDirection_run (ends : EndsKey more) :
    optionalDirection.run ⟨more, none⟩ = .ok (none, ⟨more, none⟩) := by
  obtain rfl | follows := ends
  · rfl
  · cases follows with
    | bracket | further => rfl

theorem EndsKey.reversals_run (ends : EndsKey more) (direction : Direction) (bound : Nat) :
    (reversals direction bound).run ⟨more, none⟩ = .ok (direction, ⟨more, none⟩) := by
  refine run_reversals_ended direction bound fun rest same => ?_
  obtain rfl | follows := ends
  · cases same
  · cases follows with
    | bracket | further => cases same

/-! ## Selectors with a direction -/

/-- The ways to write a direction behind a selector. -/
inductive DirectionText : String → Direction → Prop where
  | omitted : DirectionText "" .ascending
  | word {word : String} {direction : Direction} : direction? word = some direction →
      DirectionText (" " ++ word) direction

theorem isIdentifier_of_direction {word : String} {direction : Direction}
    (found : direction? word = some direction) : IsIdentifier word := by
  unfold direction? at found
  split at found <;> cases found
  all_goals decide

theorem run_sortKey_by {name : String} :
    sortKey.run ⟨.name "by" :: .name name :: tokens, none⟩ =
      directedKey.run ⟨.name name :: tokens, none⟩ :=
  rfl

/-- A selector in front of a direction is read together with it, up to the end of the key. -/
theorem exists_tokens_directed {text : String} {selector : Selector}
    (parsed : Selector.parse text = .ok selector) {directionText : String} {direction : Direction}
    (written : DirectionText directionText direction) :
    ∃ tokens further, Consists text.toList tokens ∧
      Consists (text ++ directionText).toList (tokens ++ further) ∧
      ∀ more, EndsKey more → directedKey.run ⟨tokens ++ further ++ more, none⟩ =
        .ok (⟨selector, direction⟩, ⟨more, none⟩) := by
  obtain ⟨tokens, consists, run⟩ := exists_tokens_of_whole selector_reaching parsed
  cases written with
  | omitted =>
      refine ⟨tokens, [], consists, ?_, fun more ends => ?_⟩
      · rwa [String.append_empty, List.append_nil]
      · rw [List.append_nil]
        exact run_directedKey (run more ends.selector_ignores) ends.optionalDirection_run
  | @word word _ found =>
      have spelled : Consists word.toList [.name word] := by
        have alone := consists_nil.name (isIdentifier_of_direction found) (by simp)
        rwa [List.append_nil] at alone
      have joined := consists.append_gap (.inl rfl) spelled.blank
      refine ⟨tokens, [.name word], consists, ?_, fun more ends => ?_⟩
      · simpa [String.toList_append] using joined
      · have selected := run _ (selector_ignores (.name word more))
        rw [List.append_assoc]
        exact run_directedKey selected (run_optionalDirection_word found)

/-- Behind `by` every selector is read as one, whatever its name means elsewhere. -/
theorem exists_tokens_by {text : String} {selector : Selector}
    (parsed : Selector.parse text = .ok selector) {directionText : String} {direction : Direction}
    (written : DirectionText directionText direction) :
    ∃ tokens, Consists ("by " ++ text ++ directionText).toList tokens ∧
      ∀ more, EndsKey more →
        sortKey.run ⟨tokens ++ more, none⟩ = .ok (⟨selector, direction⟩, ⟨more, none⟩) := by
  obtain ⟨tokens, further, alone, consists, run⟩ := exists_tokens_directed parsed written
  obtain ⟨name, rest, rfl⟩ : ∃ name rest, tokens = .name name :: rest := by
    obtain ⟨others, othersConsist, ran⟩ := (whole_eq_ok_iff selector_reaching).1 parsed
    exact alone.unique othersConsist ▸ selector_starts ran
  have isBy : IsIdentifier "by" := by decide
  have joined := consists.blank.name isBy fun c found => (severs_gap (.inl rfl) _ c found).1
  refine ⟨_, by simpa [String.toList_append] using joined, fun more ends => ?_⟩
  exact run_sortKey_by.trans (run more ends)

/-! ## Factories -/

/-- The factories that take a selector. -/
def selectorFactories : List String :=
  ["comparing", "comparingInt", "comparingLong", "comparingDouble"]

/-- The text of a number of reversals. -/
def reversedText : Nat → String
  | 0 => ""
  | count + 1 => ".reversed()" ++ reversedText count

def reversedTokens : Nat → List Token
  | 0 => []
  | count + 1 => .symbol .dot :: .name "reversed" :: .symbol .leftParen :: .symbol .rightParen ::
      reversedTokens count

theorem consists_reversed (count : Nat) :
    Consists (reversedText count).toList (reversedTokens count) ∧
      ∀ c, (reversedText count).toList.head? = some c → c = '.' := by
  induction count with
  | zero => exact ⟨consists_nil, nofun⟩
  | succ count ih =>
      obtain ⟨consists, _⟩ := ih
      have isReversed : IsIdentifier "reversed" := by decide
      have closed := consists.next (.symbol rfl : Takes (')' :: _) (.symbol .rightParen) _)
      have opened := closed.next (.symbol rfl : Takes ('(' :: _) (.symbol .leftParen) _)
      have named := opened.name isReversed fun c found => by
        cases found
        exact continuesName_of_mem_signs (by decide)
      have dotted := named.next (.symbol rfl : Takes ('.' :: _) (.symbol .dot) _)
      refine ⟨?_, fun c found => ?_⟩
      · simpa [reversedText, reversedTokens, String.toList_append] using dotted
      · rw [reversedText, String.toList_append] at found
        cases found
        rfl

theorem iterate_reversed (count : Nat) : Direction.reversed^[count] .ascending =
    if count % 2 = 0 then .ascending else .descending := by
  induction count with
  | zero => rfl
  | succ count ih =>
      rw [Function.iterate_succ_apply', ih]
      by_cases even : count % 2 = 0
      · rw [if_pos even, if_neg (by omega)]
        rfl
      · rw [if_neg even, if_pos (by omega)]
        rfl

theorem reversals_run_reversed (ends : EndsKey more) (count : Nat) (direction : Direction)
    {bound : Nat} (long : count ≤ bound) :
    (reversals direction bound).run ⟨reversedTokens count ++ more, none⟩ =
      .ok (Direction.reversed^[count] direction, ⟨more, none⟩) := by
  induction count generalizing direction bound with
  | zero => exact ends.reversals_run direction bound
  | succ count ih =>
      obtain ⟨bound, rfl⟩ := Nat.exists_eq_succ_of_ne_zero (Nat.ne_zero_of_lt long)
      simp only [reversedTokens, List.cons_append]
      rw [run_reversals_reversed, run_expect_cons_bind, run_expect_cons_bind]
      exact ih direction.reversed (Nat.le_of_succ_le_succ long)

theorem length_reversedTokens (count : Nat) : count ≤ (reversedTokens count).length := by
  induction count with
  | zero => exact Nat.zero_le _
  | succ count ih =>
      simp only [reversedTokens, List.length_cons]
      omega

theorem run_sortKey_comparator :
    sortKey.run ⟨.name "Comparator" :: .symbol .dot :: tokens, none⟩ =
      factoryKey.run ⟨.name "Comparator" :: .symbol .dot :: tokens, none⟩ :=
  rfl

theorem run_sortKey_factory {factory : String} (known : factory ∈ selectorFactories)
    {selected : Selector} {direction : Direction} {behind rest : List Token}
    (first : selector.run ⟨tokens, none⟩ = .ok (selected, ⟨.symbol .rightParen :: behind, none⟩))
    (reversed : (reversals .ascending behind.length).run ⟨behind, none⟩ =
      .ok (direction, ⟨rest, none⟩)) :
    sortKey.run ⟨.name "Comparator" :: .symbol .dot :: .name factory :: .symbol .leftParen ::
        tokens, none⟩ =
      .ok (⟨selected, direction⟩, ⟨rest, none⟩) := by
  have others : ∀ word ∈ selectorFactories, word ≠ "reverseOrder" := by decide
  have listed : ["comparing", "comparingInt", "comparingLong", "comparingDouble"].contains factory =
      true := List.contains_iff_mem.2 known
  rw [run_sortKey_comparator, factoryKey, run_advance_cons_bind, run_advance_cons_bind,
    run_expectName_cons_bind, run_expect_cons_bind, if_neg (others factory known)]
  dsimp only
  rw [if_pos listed, run_bind_ok first, run_expect_cons_bind, run_remaining_bind,
    run_bind_ok reversed]
  rfl

/-- In a factory every selector is read up to the closing bracket, and every reversal behind it. -/
theorem exists_tokens_factory {text : String} {selector : Selector}
    (parsed : Selector.parse text = .ok selector) {factory : String}
    (known : factory ∈ selectorFactories) (count : Nat) :
    ∃ tokens, Consists ("Comparator." ++ Script.call factory text ++ reversedText count).toList
        tokens ∧
      ∀ more, EndsKey more → sortKey.run ⟨tokens ++ more, none⟩ =
        .ok (⟨selector, Direction.reversed^[count] .ascending⟩, ⟨more, none⟩) := by
  have each : ∀ word ∈ selectorFactories, IsIdentifier word := by decide
  obtain ⟨inner, consists, run⟩ := exists_tokens_of_whole selector_reaching parsed
  obtain ⟨reversed, pointed⟩ := consists_reversed count
  have isComparator : IsIdentifier "Comparator" := by decide
  have noDigit : ∀ c, (reversedText count).toList.head? = some c → isDigit c = false := by
    intro c found
    cases pointed c found
    decide
  have called := (consists.call (each factory known)).append reversed noDigit
    (.inl fun token found => Option.some.inj (found.symm.trans (getLast?_call _ _)))
  have qualified := called.qualified isComparator
  refine ⟨_, by simpa [String.toList_append] using qualified, fun more ends => ?_⟩
  have long : count ≤ (reversedTokens count ++ more).length := by
    have all := length_reversedTokens count
    rw [List.length_append]
    omega
  have behind := reversals_run_reversed ends count .ascending long
  have selected := run _ (selector_ignores (.bracket (reversedTokens count ++ more)))
  simp only [List.cons_append, List.append_assoc]
  exact run_sortKey_factory known selected behind

end Parse

/-! ## Keys in scripts -/

theorem SortKey.parse_of_tokens {form : String} {tokens : List Token} {key : SortKey}
    (consists : Consists form.toList tokens)
    (run : ∀ more, Parse.EndsKey more →
      Parse.sortKey.run ⟨tokens ++ more, none⟩ = .ok (key, ⟨more, none⟩)) :
    SortKey.parse form = .ok key ∧ (Lexed.ofScript form).tokens.map (·.2) = tokens := by
  have alone := run [] (.inl rfl)
  rw [List.append_nil] at alone
  exact ⟨(Parse.whole_eq_ok_iff Parse.sortKey_reaching).2 ⟨tokens, consists, alone⟩,
    (Lexed.ofScript_iff_lexes.2 consists).2⟩

/-- A selector in a call of a factory with a number of reversals behind it, and the selector behind
`by`, ascending if the number is even and descending if it is odd, are the same sort key. Whatever
stands behind either of them is left to be read, and in every place of every comparator, among any
other keys and stages, the whole script denotes the same. -/
theorem SortKey.parse_factory {text : String} {selector : Selector}
    (parsed : Selector.parse text = .ok selector) {factory : String}
    (known : factory ∈ Parse.selectorFactories) (count : Nat) :
    let written := "Comparator." ++ Script.call factory text ++ Parse.reversedText count
    let native := "by " ++ text ++ if count % 2 = 0 then "" else " descending"
    let key : SortKey := ⟨selector, if count % 2 = 0 then .ascending else .descending⟩
    ∀ form ∈ [written, native],
      SortKey.parse form = .ok key ∧
      (∀ more, Parse.KeyFollower more →
        Parse.sortKey.run ⟨(Lexed.ofScript form).tokens.map (·.2) ++ more, none⟩ =
          .ok (key, ⟨more, none⟩)) ∧
      ∀ (front back : String) (before after : Chain), Chain.Part front before →
        Chain.Part back after → ∀ (name : String) (make : Comparator → Stage),
        (name, make) ∈ Parse.comparatorStages → ∀ earlier later : List (String × SortKey),
        (∀ other ∈ earlier ++ later, SortKey.parse other.1 = .ok other.2) →
        Chain.parse (front ++ "." ++ Script.call name
            (" then ".intercalate (earlier.map (·.1) ++ form :: later.map (·.1))) ++ back) =
          .ok (before ++ make ⟨earlier.map (·.2) ++ key :: later.map (·.2)⟩ :: after) := by
  intro written native key form member
  -- Both forms are read up to the end of the key; the rest of the proof does not tell them apart.
  have read : ∃ tokens, Consists form.toList tokens ∧ ∀ more, Parse.EndsKey more →
      Parse.sortKey.run ⟨tokens ++ more, none⟩ = .ok (key, ⟨more, none⟩) := by
    rcases List.mem_pair.1 member with rfl | rfl
    · have factories := Parse.exists_tokens_factory parsed known count
      rwa [Parse.iterate_reversed] at factories
    · refine Parse.exists_tokens_by parsed ?_
      split
      · exact .omitted
      · have descending : Parse.direction? "descending" = some .descending := rfl
        exact (.word descending : Parse.DirectionText (" " ++ "descending") .descending)
  obtain ⟨tokens, consists, run⟩ := read
  obtain ⟨alone, same⟩ := parse_of_tokens consists run
  refine ⟨alone, fun more follows => same ▸ run more (.inr follows), ?_⟩
  intro front back before after fronted backed name make stage earlier later others
  exact Chain.parse_key fronted backed stage alone others

set_option maxRecDepth 4096 in
/-- A field that is called like a direction is a field in both forms. -/
theorem SortKey.parse_factory_desc :
    Selector.parse "desc" = .ok (.field "desc") ∧
      SortKey.parse "Comparator.comparingInt(desc).reversed()" =
        .ok ⟨.field "desc", .descending⟩ ∧
      SortKey.parse "by desc descending" = .ok ⟨.field "desc", .descending⟩ ∧
      Chain.parse ".filter(by).max(asc then Comparator.comparingInt(desc).reversed())" =
        .ok [.filter (.field "by"),
          .max ⟨[⟨.identity, .ascending⟩, ⟨.field "desc", .descending⟩]⟩] := by
  have parsed : Selector.parse "desc" = .ok (.field "desc") := by rfl
  have known : "comparingInt" ∈ Parse.selectorFactories := by decide
  have forms := parse_factory parsed known 1
  obtain ⟨factory, _, inScripts⟩ := forms _ (.head _)
  obtain ⟨native, _⟩ := forms _ (.tail _ (.head _))
  have others : ∀ other ∈ [("asc", (⟨.identity, .ascending⟩ : SortKey))] ++ [],
      SortKey.parse other.1 = .ok other.2 := by
    intro other member
    cases List.mem_singleton.1 member
    rfl
  have front : Chain.Part ".filter(by)" [.filter (.field "by")] := .chain rfl
  have stage : ("max", Stage.max) ∈ Parse.comparatorStages := by simp [Parse.comparatorStages]
  have script := inScripts ".filter(by)" "" _ _ front .nothing "max" .max stage _ _ others
  exact ⟨parsed, factory, native, script⟩

end Pipeline
