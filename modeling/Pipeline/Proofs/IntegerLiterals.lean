import Pipeline.Proofs.KeptIntegers
import Pipeline.Proofs.LambdaPlaces
import Pipeline.Proofs.Reparsing

/-! Integers in scripts, however their digits are written: as an expression, with a sign in front of
it or not, and as a count. Each denotes what its digits say, or is refused because there is no
integer of the kind for it. -/

set_option autoImplicit false

namespace Pipeline

open Scan

namespace Scan

variable {digits text : List Char}

theorem Consists.of_digits (writes : WritesDigits digits text) :
    Consists text [.integer (String.ofList digits)] := by
  have takes := @takes_digits [] nofun _ _ writes
  rw [List.append_nil] at takes
  exact consists_nil.next takes

theorem Consists.of_minus_digits (writes : WritesDigits digits text) :
    Consists ('-' :: text) [.symbol .minus, .integer (String.ofList digits)] := by
  refine (Consists.of_digits writes).next (takes_symbol .minus fun c found => ?_)
  obtain ⟨first, others, rfl, digit⟩ := writes.exists_cons
  cases found
  rintro rfl
  revert digit
  decide

end Scan

namespace Parse

open ExprParsers

/-! ## Expressions -/

section Expressions

variable {tokens : List Token} {digits : String} {negative : Bool}

theorem run_bind_error {α β : Type} {first : Parse α} {next : α → Parse β} {cursor : Cursor}
    {error : ParseError} (failed : first.run cursor = .error error) :
    (first >>= next).run cursor = .error error := by
  rw [StateT.run_bind, failed]
  rfl

/-- If its first operand is refused, so is the expression. -/
theorem run_wholeExpression_error {error : ParseError}
    (noNot : tokens.head? ≠ some (.symbol .not))
    (refused : ∀ inner : ExprParsers, inner.signed.run ⟨tokens, none⟩ = .error error) :
    wholeExpression.run ⟨tokens, none⟩ = .error error := by
  have comparison (inner : ExprParsers) : inner.comparison.run ⟨tokens, none⟩ = .error error :=
    run_bind_error (run_bind_error (run_bind_error (refused inner)))
  have negated (inner : ExprParsers) : inner.negated.run ⟨tokens, none⟩ = .error error := by
    rw [ExprParsers.negated, run_atSymbol_ne_bind noNot]
    exact comparison inner
  have conditional (inner : ExprParsers) : inner.conditional.run ⟨tokens, none⟩ = .error error :=
    run_bind_error (run_bind_error (run_bind_error (negated inner)))
  exact run_bind_error (conditional _)

theorem run_integer_of_fits {n : Int64} (fits : Grammar.integer? negative digits = some n)
    (token : Token) (rest : List Token) : (integer negative digits).run ⟨token :: rest, none⟩ =
      .ok (.literal (.number (.integer n)), ⟨rest, none⟩) := by
  rw [Grammar.integer?] at fits
  rw [integer]
  simp only [fits]
  rw [run_advance_cons_bind]
  rfl

theorem run_integer_of_unfit (unfit : Grammar.integer? negative digits = none) (cursor : Cursor) :
    (integer negative digits).run cursor =
      .error (.integerOutOfRange (if negative then "-" ++ digits else digits)) := by
  rw [Grammar.integer?] at unfit
  rw [integer]
  simp only [unfit]
  rfl

/-- An integer as it is written, with the sign that belongs to it. -/
def signedTokens (negative : Bool) (digits : String) : List Token :=
  if negative then [.symbol .minus, .integer digits] else [.integer digits]

theorem run_signed_integer (inner : ExprParsers) (negative : Bool) (digits : String)
    (rest : List Token) : inner.signed.run ⟨signedTokens negative digits ++ rest, none⟩ =
      (integer negative digits >>= inner.suffixesOf).run ⟨.integer digits :: rest, none⟩ := by
  cases negative <;> rfl

theorem readsBack_integer {n : Int64} (fits : Grammar.integer? negative digits = some n) :
    ReadsBack .conditional (signedTokens negative digits) (.literal (.number (.integer n))) 0 := by
  have signed : ReadsBack .signed (signedTokens negative digits)
      (.literal (.number (.integer n))) 0 := by
    refine ⟨?_, fun budget rest stops => ?_⟩
    · cases negative with
      | false => exact ⟨_, _, rfl, Grammar.Level.startsWith_of_not_symbol nofun⟩
      | true =>
          refine ⟨_, _, rfl, fun _ same => ?_⟩
          cases same
          exact .inr (.inl (by decide))
    · change (ofBudget budget).signed.run _ = _
      rw [run_signed_integer, run_bind_ok (run_integer_of_fits fits _ _), granted_zero]
      exact suffixesOf_bare _ _ (stops.head?_ne (by decide))
  exact signed.loosen_all (conditional_admits _)

theorem run_wholeExpression_of_fits {n : Int64}
    (fits : Grammar.integer? negative digits = some n) :
    wholeExpression.run ⟨signedTokens negative digits, none⟩ =
      .ok (.literal (.number (.integer n)), ⟨[], none⟩) := by
  have read := (readsBack_integer fits).expression (Grammar.stops_nil _) nestingLimit
  rw [List.append_nil, granted, if_pos (by decide)] at read
  exact run_bind_ok read

theorem run_wholeExpression_of_unfit (unfit : Grammar.integer? negative digits = none) :
    wholeExpression.run ⟨signedTokens negative digits, none⟩ =
      .error (.integerOutOfRange (if negative then "-" ++ digits else digits)) := by
  refine run_wholeExpression_error (by cases negative <;> nofun) fun inner => ?_
  have signed := run_signed_integer inner negative digits []
  rw [List.append_nil] at signed
  rw [signed]
  exact run_bind_error (run_integer_of_unfit unfit _)

end Expressions

/-! ## Counts -/

section Counts

variable {name : String} {make : Nat → Stage} {tokens : List Token}

/-- The stages that take a count, by their names. -/
def countStages : List (String × (Nat → Stage)) :=
  [("limit", .limit), ("skip", .skip)]

theorem countStages_names (member : (name, make) ∈ countStages) :
    IsIdentifier name ∧ name ≠ "orElseThrow" := by
  have each : ∀ word ∈ countStages.map Prod.fst, IsIdentifier word ∧ word ≠ "orElseThrow" := by
    decide
  exact each name (List.mem_map_of_mem member)

theorem run_stage_arguments_error {arguments : Parse Stage} {error : ParseError}
    (found : stageArguments? name = some arguments)
    (refused : arguments.run ⟨tokens, none⟩ = .error error) :
    stage.run ⟨.name name :: .symbol .leftParen :: tokens, none⟩ = .error error := by
  rw [stage, run_expectName_cons_bind, found]
  dsimp only
  rw [run_expect_cons_bind]
  exact run_bind_error refused

theorem exists_arguments_of_countStages (member : (name, make) ∈ countStages) :
    ∃ counted, stageArguments? name = some (make <$> count counted) := by
  simp only [countStages, List.mem_cons, List.not_mem_nil, or_false, Prod.mk.injEq] at member
  rcases member with ⟨rfl, rfl⟩ | ⟨rfl, rfl⟩
  · exact ⟨.limit, rfl⟩
  · exact ⟨.skip, rfl⟩

theorem run_count (counted : CountedStage) (digits : String) :
    (count counted).run ⟨.integer digits :: tokens, none⟩ =
      if digitsValue 0 digits.toList < Nat.pow 2 64 then
        .ok (digitsValue 0 digits.toList, ⟨tokens, none⟩)
      else .error (.integerOutOfRange digits) := by
  rw [count, run_current_bind]
  simp only [Cursor.current, List.head?_cons]
  split
  · rw [run_advance_cons_bind]
    rfl
  · rfl

end Counts

end Parse

/-! ## Scripts -/

theorem Expr.parse_of_consists {text : String} {tokens : List Token}
    (consists : Consists text.toList tokens) :
    Expr.parse text = (Parse.wholeExpression.run ⟨tokens, none⟩).map Prod.fst := by
  rw [Expr.parse, Parse.ofScript_of_consists consists]
  change Parse.wholeExpression.run ⟨tokens, none⟩ >>= _ = _
  cases Parse.wholeExpression.run ⟨tokens, none⟩ <;> rfl

section Places

variable {digits : List Char} {text : String} (writes : WritesDigits digits text.toList)

include writes

/-- With its sign, the integer that the digits denote is read if there is one of 64 bits. -/
theorem Expr.parse_integer (negative : Bool) :
    let size : Int := Nat.ofDigitChars 10 digits 0
    let value := if negative then -size else size
    let script := if negative then "-" ++ text else text
    (IsBounded value → ∃ n : Int64, n.toInt = value ∧
        Expr.parse script = .ok (.literal (.number (.integer n)))) ∧
      (¬IsBounded value → Expr.parse script = .error (.integerOutOfRange
        (if negative then "-" ++ String.ofList digits else String.ofList digits))) := by
  intro size value script
  have consists : Consists script.toList (Parse.signedTokens negative (String.ofList digits)) := by
    cases negative with
    | false => exact .of_digits writes
    | true =>
        have joined : script.toList = '-' :: text.toList := String.toList_append
        rw [joined]
        exact .of_minus_digits writes
  have integer : Grammar.integer? negative (String.ofList digits) = boundedInteger? value := by
    rw [Grammar.integer?, String.toList_ofList, digitsValue_eq]
  rw [Expr.parse_of_consists consists]
  cases found : boundedInteger? value with
  | some n =>
      have same := boundedInteger?_eq_some_iff.1 found
      refine ⟨fun _ => ⟨n, same, ?_⟩, fun unfit => absurd (same ▸ isBounded_toInt n) unfit⟩
      rw [Parse.run_wholeExpression_of_fits (integer.trans found)]
      rfl
  | none =>
      refine ⟨fun fits => absurd fits (boundedInteger?_eq_none_iff.1 found), fun _ => ?_⟩
      rw [Parse.run_wholeExpression_of_unfit (integer.trans found)]
      rfl

theorem Chain.parse_count {name : String} {make : Nat → Stage}
    (member : (name, make) ∈ Parse.countStages) {front back : String} {before after : Chain}
    (fronted : Chain.Part front before) (backed : Chain.Part back after) :
    Chain.parse (front ++ "." ++ Script.call name text ++ back) =
      if Nat.ofDigitChars 10 digits 0 < 2 ^ 64 then
        .ok (before ++ make (Nat.ofDigitChars 10 digits 0) :: after)
      else .error (.integerOutOfRange (String.ofList digits)) := by
  obtain ⟨isName, other⟩ := Parse.countStages_names member
  obtain ⟨counted, found⟩ := Parse.exists_arguments_of_countStages member
  have consists := (Consists.of_digits writes).call isName
  have ran (more : List Token) := @Parse.run_count more counted (String.ofList digits)
  simp only [String.toList_ofList, digitsValue_eq] at ran
  split
  · rename_i fits
    refine Chain.parse_between fronted backed consists (Parse.run_stage_arguments found ?_)
    refine Parse.run_map_eq_ok.2 ⟨_, ?_, rfl⟩
    exact (ran _).trans (if_pos fits)
  · rename_i unfit
    have closed := getLast?_call name [.integer (String.ofList digits)]
    refine Chain.parse_between_error fronted backed consists closed other fun more => ?_
    refine Parse.run_stage_arguments_error found ?_
    rw [map_eq_pure_bind]
    exact Parse.run_bind_error ((ran _).trans (if_neg unfit))

end Places

/-- Whatever digits an integer is written with, it is read as what they denote if that has 64 bits:
with a sign if it is an expression, without one if it is a count. Otherwise it is refused for its
range. So what is accepted has an integer of just that size for each integer of the script. -/
theorem Script.integers_exact :
    (∀ (digits : List Char) (text : String), WritesDigits digits text.toList →
      let value := Nat.ofDigitChars 10 digits 0
      let literal := String.ofList digits
      (value ≤ 2 ^ 63 - 1 → ∃ n : Int64, n.toInt = value ∧
          Expr.parse text = .ok (.literal (.number (.integer n)))) ∧
        (2 ^ 63 - 1 < value → Expr.parse text = .error (.integerOutOfRange literal)) ∧
        (value ≤ 2 ^ 63 → ∃ n : Int64, n.toInt = -value ∧
          Expr.parse ("-" ++ text) = .ok (.literal (.number (.integer n)))) ∧
        (2 ^ 63 < value →
          Expr.parse ("-" ++ text) = .error (.integerOutOfRange ("-" ++ literal))) ∧
        ∀ stage ∈ [("limit", Stage.limit), ("skip", Stage.skip)], ∀ front back before after,
          Chain.Part front before → Chain.Part back after →
            Chain.parse (front ++ "." ++ Script.call stage.1 text ++ back) =
              if value ≤ 2 ^ 64 - 1 then .ok (before ++ stage.2 value :: after)
              else .error (.integerOutOfRange literal)) ∧
      (∀ script expr, Expr.parse script = .ok expr →
        expr.sizes = Token.sizes ((Lexed.ofScript script).tokens.map (·.2))) ∧
      ∀ script chain, Chain.parse script = .ok chain →
        chain.sizes = Token.sizes ((Lexed.ofScript script).tokens.map (·.2)) := by
  refine ⟨fun digits text writes => ?_, fun script expr => Expr.sizes_of_parse,
    fun script chain => Chain.sizes_of_parse⟩
  intro value literal
  obtain ⟨positive, tooLarge⟩ := Expr.parse_integer writes false
  obtain ⟨negative, tooSmall⟩ := Expr.parse_integer writes true
  simp only [isBounded_iff, Bool.false_eq_true, if_false] at positive tooLarge
  simp only [isBounded_iff, if_true] at negative tooSmall
  refine ⟨fun fits => positive ?_, fun unfit => tooLarge ?_, fun fits => negative ?_,
    fun unfit => tooSmall ?_, ?_⟩
  · omega
  · omega
  · omega
  · omega
  · rintro ⟨name, make⟩ member front back before after fronted backed
    rw [Chain.parse_count writes member fronted backed]
    exact if_congr (by omega) rfl rfl

set_option maxRecDepth 4096 in
example : Expr.parse "-9_223_372_036_854_775_808" =
    .ok (.literal (.number (.integer (-9223372036854775808)))) := by
  rfl

set_option maxRecDepth 4096 in
example : Chain.parse ".skip(0_18446744073709551616)" =
    .error (.integerOutOfRange "018446744073709551616") := by
  rfl

end Pipeline
