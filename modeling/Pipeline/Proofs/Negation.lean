import Pipeline.Proofs.BoundedIntegers
import Pipeline.Proofs.Doubles
import Pipeline.Proofs.Lexing
import Pipeline.Proofs.ParserCompleteness
import Pipeline.Run.Expr

/-! The minus sign in front of an expression with suffixes. It takes the sign of the value of all of
them, unless a number comes first: then the sign is the number's, and what the suffixes make of the
number with the sign is what they make of it without. -/

set_option autoImplicit false

namespace Pipeline

/-! ## Numbers of opposite sign -/

/-- Numbers that differ in nothing but their sign. -/
inductive Number.Opposite : Number → Number → Prop
  | integer {m n : Int64} : n.toInt = -m.toInt → Opposite (.integer m) (.integer n)
  | float {x : Double} : Opposite (.float x) (.float x.neg)

theorem Double.abs_neg (x : Double) : x.neg.abs = x.abs :=
  congrArg (ofParts false) (magnitude_ofParts _ x.magnitude_lt)

theorem Double.abs_abs (x : Double) : x.abs.abs = x.abs :=
  congrArg (ofParts false) (magnitude_ofParts _ x.magnitude_lt)

theorem Double.neg_ne (x : Double) : x.neg ≠ x := by
  intro same
  have sign := x.negative_neg
  rw [same] at sign
  exact absurd sign.symm (Bool.not_ne_self _)

namespace Number

theorem absolute_integer {m k : Int64} (size : k.toInt = m.toInt.natAbs) :
    (integer m).absolute = .ok (.integer k) := by
  simp only [absolute, boundedInteger?_eq_some_iff.2 size]

theorem exists_of_absolute {m : Number} {value : Value} (done : m.absolute = .ok value) :
    ∃ size, value = .number size := by
  unfold absolute at done
  split at done
  · split at done <;> cases done
    exact ⟨_, rfl⟩
  · cases done
    exact ⟨_, rfl⟩

theorem negated_integer_iff {k : Int64} :
    (Value.integer k).negated = .ok (.integer k) ↔ k = 0 := by
  have fixed : boundedInteger? (-k.toInt) = some k ↔ k = 0 := by
    rw [boundedInteger?_eq_some_iff, ← Int64.toInt_inj, Int64.toInt_zero]
    omega
  rw [← fixed, Value.negated]
  cases boundedInteger? (-k.toInt) with
  | none => simp
  | some n => simp

namespace Opposite

variable {m n : Number}

theorem negated (opposite : m.Opposite n) : (Value.number m).negated = .ok (.number n) := by
  cases opposite with
  | integer same => simp only [Value.negated, boundedInteger?_eq_some_iff.2 same]
  | float => rfl

theorem kind (opposite : m.Opposite n) : (Value.number n).kind = (Value.number m).kind := by
  cases opposite <;> rfl

/-- Both have one size, which is its own size, and its own opposite only if it is zero. -/
theorem absolute (opposite : m.Opposite n) : ∃ size : Number,
    m.absolute = .ok (.number size) ∧ n.absolute = .ok (.number size) ∧
      size.absolute = .ok (.number size) ∧
      ((Value.number size).negated = .ok (.number size) ↔ m = .integer 0) := by
  cases opposite with
  | @integer m n same =>
      obtain ⟨k, size⟩ : ∃ k : Int64, k.toInt = m.toInt.natAbs := by
        rcases le_total 0 m.toInt with positive | negative
        · exact ⟨m, by omega⟩
        · exact ⟨n, by omega⟩
      refine ⟨.integer k, absolute_integer size, absolute_integer ?_, absolute_integer ?_, ?_⟩
      · omega
      · omega
      · rw [negated_integer_iff, integer.injEq, ← Int64.toInt_inj, ← Int64.toInt_inj,
          Int64.toInt_zero]
        omega
  | @float x =>
      refine ⟨.float x.abs, rfl, ?_, ?_, iff_of_false (fun same => ?_) nofun⟩
      · exact congrArg (fun x => Except.ok (Value.float x)) x.abs_neg
      · exact congrArg (fun x => Except.ok (Value.float x)) x.abs_abs
      · rw [Value.negated, Except.ok.injEq] at same
        exact x.abs.neg_ne (by simpa using same)

end Opposite

end Number

/-! ## Methods of numbers -/

/-- Among the methods only one takes a number, and no arguments. -/
theorem Value.callMethod_number (m : Number) (name : String) (arguments : List Value) :
    (Value.number m).callMethod name arguments =
      match Method.ofName? name with
      | none => .error (.type (.unknownMethod name))
      | some method => if method = .abs ∧ arguments = [] then m.absolute
        else .error (.type (.method name (Value.number m).kind arguments.length)) := by
  unfold Value.callMethod
  dsimp only
  cases Method.ofName? name with
  | none => rfl
  | some method => cases method <;> cases arguments <;> rfl

theorem Method.ofName?_eq_abs {name : String} (found : Method.ofName? name = some .abs) :
    name = "abs" := by
  unfold Method.ofName? at found
  split at found <;> first | rfl | cases found

/-! ## Suffixes of numbers -/

namespace Expr

/-- Expressions that are the same suffixes behind numbers of opposite sign. -/
inductive Opposite : Expr → Expr → Prop
  | number {m n : Number} : m.Opposite n → Opposite (.literal (.number m)) (.literal (.number n))
  | field {operand result : Expr} {name : String} : Opposite operand result →
      Opposite (.field operand name) (.field result name)
  | method {operand result : Expr} {name : String} {arguments : List Expr} :
      Opposite operand result →
      Opposite (.method operand name arguments) (.method result name arguments)

/-- A number with the given number of calls of `abs` behind it. -/
def absolutes (n : Number) : Nat → Expr
  | 0 => .literal (.number n)
  | count + 1 => .method (absolutes n count) "abs" []

theorem absolutes_inj {m n : Number} {count other : Nat}
    (same : absolutes m count = absolutes n other) : m = n := by
  induction count generalizing other with
  | zero => cases other <;> cases same; rfl
  | succ count ih =>
      cases other with
      | zero => cases same
      | succ other => exact ih (Expr.method.inj same).1

theorem Opposite.of_absolutes {m : Number} {count : Nat} {result : Expr}
    (opposite : (absolutes m count).Opposite result) :
    ∃ n, m.Opposite n ∧ result = absolutes n count := by
  induction count generalizing result with
  | zero =>
      cases opposite with
      | number numbers => exact ⟨_, numbers, rfl⟩
  | succ count ih =>
      cases opposite with
      | method inner =>
          obtain ⟨n, numbers, rfl⟩ := ih inner
          exact ⟨n, numbers, rfl⟩

variable {cap : Nat} {parameter : String} {element : Value}

theorem eval_absolutes {m size : Number} (absolute : m.absolute = .ok (.number size))
    (fixed : size.absolute = .ok (.number size)) (count : Nat) :
    (absolutes m (count + 1)).eval cap parameter element = .ok (.number size) := by
  have called : ∀ n : Number, (Value.number n).callMethod "abs" [] = n.absolute :=
    fun n => Value.callMethod_number n "abs" []
  induction count with
  | zero => exact (called m).trans absolute
  | succ count ih =>
      rw [absolutes, eval, ih]
      exact (called size).trans fixed

/-- With a suffix, both have one value, or fail with one error. -/
theorem Opposite.eval {operand result : Expr} (opposite : operand.Opposite result) :
    (∃ m n, m.Opposite n ∧ operand = .literal (.number m) ∧ result = .literal (.number n)) ∨
      result.eval cap parameter element = operand.eval cap parameter element := by
  induction opposite with
  | number numbers => exact .inl ⟨_, _, numbers, rfl, rfl⟩
  | @field operand result name _ ih =>
      right
      rcases ih with ⟨m, n, numbers, rfl, rfl⟩ | same
      · exact congrArg (fun kind => Except.error (RunError.type (.fieldOf name kind))) numbers.kind
      · rw [Expr.eval, Expr.eval, same]
  | @method operand result name arguments _ ih =>
      right
      rcases ih with ⟨m, n, numbers, rfl, rfl⟩ | same
      · obtain ⟨size, first, second, -⟩ := numbers.absolute
        have called : (Value.number n).callMethod name = (Value.number m).callMethod name := by
          funext values
          rw [Value.callMethod_number, Value.callMethod_number, first, second, numbers.kind]
        exact congrArg (evalAll cap parameter element arguments >>= ·) called
      · rw [Expr.eval, Expr.eval, same]

/-- Of the suffixes of a number, only calls of `abs` give a value. -/
theorem Opposite.eq_absolutes {operand result : Expr} (opposite : operand.Opposite result)
    {value : Value} (done : operand.eval cap parameter element = .ok value) :
    ∃ m count, operand = absolutes m count ∧ ∃ size, value = .number size := by
  induction opposite generalizing value with
  | @number m n opposite =>
      cases done
      exact ⟨m, 0, rfl, m, rfl⟩
  | @field operand result name opposite ih =>
      obtain ⟨object, found, done⟩ := bind_eq_ok.1 done
      obtain ⟨m, count, rfl, size, rfl⟩ := ih found
      cases done
  | @method operand result name arguments opposite ih =>
      obtain ⟨object, found, done⟩ := bind_eq_ok.1 done
      obtain ⟨values, evaluated, done⟩ := bind_eq_ok.1 done
      obtain ⟨m, count, rfl, size, rfl⟩ := ih found
      rw [Value.callMethod_number] at done
      cases known : Method.ofName? name with
      | none =>
          rw [known] at done
          cases done
      | some method =>
          simp only [known] at done
          split at done
          · rename_i both
            obtain ⟨rfl, rfl⟩ := both
            obtain rfl := Method.ofName?_eq_abs known
            cases arguments with
            | nil => exact ⟨m, count + 1, rfl, Number.exists_of_absolute done⟩
            | cons argument rest =>
                obtain ⟨_, _, evaluated⟩ := bind_eq_ok.1 evaluated
                obtain ⟨_, _, evaluated⟩ := bind_eq_ok.1 evaluated
                cases evaluated
          · cases done

/-- The one is the negation of the other unless calls of `abs`, and nothing else, hide the sign. -/
theorem Opposite.eval_negated_iff {operand result : Expr} (opposite : operand.Opposite result) :
    result.eval cap parameter element = operand.eval cap parameter element >>= Value.negated ↔
      ¬∃ n count, n ≠ .integer 0 ∧ operand = absolutes n (count + 1) := by
  by_cases form : ∃ n count, operand = absolutes n count
  · obtain ⟨m, count, rfl⟩ := form
    obtain ⟨n, numbers, rfl⟩ := opposite.of_absolutes
    cases count with
    | zero => exact iff_of_true numbers.negated.symm nofun
    | succ count =>
        obtain ⟨size, first, second, fixed, zero⟩ := numbers.absolute
        rw [eval_absolutes first fixed, eval_absolutes second fixed]
        refine eq_comm.trans (zero.trans ⟨?_, fun only => ?_⟩)
        · rintro rfl ⟨other, _, some, same⟩
          exact some (absolutes_inj same).symm
        · by_contra some
          exact only ⟨m, count, some, rfl⟩
  · have fails : ∃ error, operand.eval cap parameter element = .error error := by
      cases evaluated : operand.eval cap parameter element with
      | error error => exact ⟨error, rfl⟩
      | ok value =>
          obtain ⟨m, count, same, -⟩ := opposite.eq_absolutes evaluated
          exact absurd ⟨m, count, same⟩ form
    obtain ⟨error, fails⟩ := fails
    refine iff_of_true ?_ fun ⟨n, count, _, same⟩ => form ⟨n, count + 1, same⟩
    rcases opposite.eval with ⟨m, n, _, rfl, rfl⟩ | same
    · cases fails
    · rw [same, fails]
      rfl

end Expr

/-! ## The minus sign in front -/

namespace Grammar

/-- The tokens start with a number. -/
def NumberFirst (tokens : List Token) : Prop :=
  ∃ token, tokens.head? = some token ∧ IsNumber token

theorem NumberFirst.of_append {tokens more : List Token} {level : Level} {tree : Tree}
    (derives : Derives level tokens tree) (first : NumberFirst (tokens ++ more)) :
    NumberFirst tokens := by
  obtain ⟨head, others, rfl, -⟩ := derives.starts
  exact first

theorem Derives.number_of_primary {tokens : List Token} {tree : Tree}
    (derives : Derives .primary tokens tree) (first : NumberFirst tokens) :
    (∃ digits, tokens = [.integer digits] ∧ tree = .integer false digits) ∨
      ∃ value, tokens = [.float value] ∧ tree = .float value := by
  obtain ⟨token, head, number⟩ := first
  cases derives with
  | integer => exact .inl ⟨_, rfl, rfl⟩
  | float => exact .inr ⟨_, rfl, rfl⟩
  | tighter includes => cases includes
  | join _ operand => cases operand
  | field takes | method takes => cases takes
  | text | boolean | reference | call _ _ | parentheses _ =>
      cases head
      cases number

/-- The sign of a number stands in the tree of all its suffixes. -/
theorem Derives.signed_of_number {tokens : List Token} {tree : Tree}
    (derives : Derives .postfixed tokens tree) (first : NumberFirst tokens) {operand : Expr}
    (fits : tree.expr? = some operand) :
    ∃ signed, Derives .signedNumber (.symbol .minus :: tokens) signed ∧
      ∀ result, signed.expr? = some result → operand.Opposite result := by
  generalize same : Level.postfixed = level at derives
  induction derives generalizing operand with
  | tighter includes derives =>
      cases same
      cases includes
      rcases derives.number_of_primary first with ⟨digits, rfl, rfl⟩ | ⟨value, rfl, rfl⟩
      · refine ⟨_, .negativeInteger, fun result negative => ?_⟩
        obtain ⟨m, above, rfl⟩ := Option.map_eq_some_iff.1 fits
        obtain ⟨n, below, rfl⟩ := Option.map_eq_some_iff.1 negative
        refine .number (.integer ?_)
        rw [boundedInteger?_eq_some_iff.1 above, boundedInteger?_eq_some_iff.1 below]
        rfl
      · refine ⟨_, .negativeFloat, fun result negative => ?_⟩
        cases fits
        cases negative
        exact .number .float
  | field takes derives ih =>
      subst same
      obtain ⟨object, inner, rfl⟩ := Option.map_eq_some_iff.1 fits
      obtain ⟨signed, behind, opposite⟩ := ih (first.of_append derives) inner rfl
      refine ⟨_, .field .signedNumber behind, fun result fits => ?_⟩
      obtain ⟨other, inner, rfl⟩ := Option.map_eq_some_iff.1 fits
      exact .field (opposite other inner)
  | method takes derives derived separated ih =>
      subst same
      obtain ⟨object, exprs, inner, arguments, rfl⟩ := Tree.expr?_method_eq_some.1 fits
      obtain ⟨signed, behind, opposite⟩ := ih (first.of_append derives) inner rfl
      refine ⟨_, .method .signedNumber behind derived separated, fun result fits => ?_⟩
      obtain ⟨other, others, inner, same, rfl⟩ := Tree.expr?_method_eq_some.1 fits
      cases arguments.symm.trans same
      exact .method (opposite other inner)
  | join _ operand =>
      subst same
      cases operand
  | _ => cases same

theorem Derives.of_signed {tokens : List Token} {tree : Tree}
    (derives : Derives .signed tokens tree) : Derives .conditional tokens tree :=
  .tighter .disjunction (.tighter .conjunction (.tighter .negation
    (.tighter .comparison (.tighter .sum (.tighter .product (.tighter .signed derives))))))

end Grammar

namespace Scan

theorem Lexes.minus {text rest : List Char} {tokens : List Token} (lexes : Lexes text tokens rest)
    (noArrow : text.head? ≠ some '>') : Lexes ('-' :: text) (.symbol .minus :: tokens) rest := by
  have sign : readSymbol? ('-' :: text) = some (.minus, text) :=
    readSymbol?.eq_18 text fun _ arrow => noArrow (congrArg List.head? arrow)
  have takes : Takes ('-' :: text) (.symbol .minus) text := .symbol sign
  exact .next (takes.trimStart.symm ▸ takes) lexes

/-- A text whose tokens are an expression does not make an arrow of the sign in front of it. -/
theorem Lexes.head?_ne {text rest : List Char} {tokens : List Token}
    (lexes : Lexes text tokens rest) {level : Grammar.Level} {tree : Grammar.Tree}
    (derives : Grammar.Derives level tokens tree) : text.head? ≠ some '>' := by
  intro arrow
  obtain ⟨others, rfl⟩ := List.head?_eq_some_iff.1 arrow
  obtain ⟨first, rest, rfl, starts⟩ := derives.starts
  obtain ⟨symbol, behind, sign, greater⟩ : ∃ symbol behind,
      readSymbol? ('>' :: others) = some (symbol, behind) ∧
        (symbol = .greaterEqual ∨ symbol = .greater) := by
    by_cases longer : ∃ rest, others = '=' :: rest
    · obtain ⟨behind, rfl⟩ := longer
      exact ⟨_, behind, readSymbol?.eq_4 behind, .inl rfl⟩
    · exact ⟨_, others, readSymbol?.eq_20 others fun rest same => longer ⟨rest, same⟩, .inr rfl⟩
  have takes : Takes ('>' :: others) (.symbol symbol) behind := .symbol sign
  cases lexes with
  | next other _ =>
      rw [takes.trimStart] at other
      obtain ⟨rfl, -⟩ := Scan.token.inj ((other.visible 0).symm.trans (takes.visible 0))
      rcases greater with rfl | rfl <;> simpa using starts _ rfl

end Scan

theorem Parse.faultless_of_wholeExpression {cursor after : Cursor} {expr : Expr}
    (outOfView : cursor.FaultOutOfView)
    (accepted : wholeExpression.run cursor = .ok (expr, after)) : cursor.fault = none := by
  obtain ⟨_, _, first, accepted⟩ := run_bind_eq_ok.1 accepted
  obtain ⟨_, _, ended, same⟩ := run_bind_eq_ok.1 accepted
  cases same
  obtain ⟨none, rfl⟩ := of_expectEnd ended
  obtain ⟨reaches, -⟩ := expression_readsAs _ _ _ first
  rcases reaches.outOfView outOfView with faultless | further
  · exact reaches.fault ▸ faultless
  · rw [none] at further
    cases further

namespace Expr

open Grammar

/-- A text that has an expression is free of lexical faults, and its tokens derive it. -/
theorem parse_derives {text : String} {expr : Expr} (parsed : Expr.parse text = .ok expr) :
    (Lexed.ofScript text).fault = none ∧ ∃ tree, tree.expr? = some expr ∧
      Derives .conditional ((Lexed.ofScript text).tokens.map (·.2)) tree := by
  obtain ⟨cursor, started, parsed⟩ := bind_eq_ok.1 parsed
  obtain ⟨⟨_, after⟩, ran, same⟩ := bind_eq_ok.1 parsed
  cases same
  obtain ⟨rfl, outOfView⟩ := Cursor.ofScript_eq_ok started
  exact ⟨Option.map_eq_none_iff.1 (Parse.faultless_of_wholeExpression outOfView ran),
    Parse.wholeExpression_sound ran⟩

theorem tokens_minus {text : String} (faultless : (Lexed.ofScript text).fault = none)
    {level : Level} {tree : Tree}
    (derives : Derives level ((Lexed.ofScript text).tokens.map (·.2)) tree) :
    (Lexed.ofScript ("-" ++ text)).tokens.map (·.2) =
      .symbol .minus :: (Lexed.ofScript text).tokens.map (·.2) := by
  obtain ⟨rest, lexes, ended⟩ := Lexed.ofScript_iff_lexes.1 ⟨faultless, rfl⟩
  have together : ("-" ++ text).toList = '-' :: text.toList := String.toList_append
  refine (Lexed.ofScript_iff_lexes.2 ⟨rest, ?_, ended⟩).2
  rw [together]
  exact lexes.minus (lexes.head?_ne derives)

/-- A minus sign in front of a primary expression with suffixes negates the value of the whole, and
lets its failures through, unless a number other than the integer zero comes first and has its size
taken. A number with suffixes has the same value with the sign as without. -/
theorem eval_minus_iff {text : String} {tree : Tree} {operand result : Expr}
    (parsed : Expr.parse text = .ok operand)
    (postfixed : Derives .postfixed ((Lexed.ofScript text).tokens.map (·.2)) tree)
    (signed : Expr.parse ("-" ++ text) = .ok result) (cap : Nat) (parameter : String)
    (element : Value) :
    let tokens := (Lexed.ofScript text).tokens.map (·.2)
    (result.eval cap parameter element = operand.eval cap parameter element >>= Value.negated ↔
        ¬(NumberFirst tokens ∧
          ∃ n count, n ≠ .integer 0 ∧ operand = absolutes n (count + 1))) ∧
      (NumberFirst tokens → (∃ n, operand = .literal (.number n)) ∨
        result.eval cap parameter element = operand.eval cap parameter element) := by
  intro tokens
  obtain ⟨faultless, own, ownFits, ownDerives⟩ := parse_derives parsed
  obtain ⟨-, other, otherFits, otherDerives⟩ := parse_derives signed
  rw [tokens_minus faultless postfixed] at otherDerives
  cases ownDerives.unique (Derives.of_signed (.tighter .postfixed postfixed))
  by_cases number : NumberFirst tokens
  · obtain ⟨signedTree, behind, opposite⟩ := postfixed.signed_of_number number ownFits
    cases otherDerives.unique (Derives.of_signed (.tighter .signedNumber behind))
    have opposite := opposite result otherFits
    refine ⟨opposite.eval_negated_iff.trans (not_congr (and_iff_right number).symm), fun _ => ?_⟩
    exact opposite.eval.imp_left fun ⟨m, _, _, same, _⟩ => ⟨m, same⟩
  · have noNumber : ∀ token, tokens.head? = some token → ¬IsNumber token :=
      fun token head isNumber => number ⟨token, head, isNumber⟩
    cases otherDerives.unique
      (Derives.of_signed (.negate noNumber (.tighter .postfixed postfixed)))
    rw [Tree.expr?, ownFits] at otherFits
    cases otherFits
    exact ⟨iff_of_true rfl fun first => number first.1, fun first => absurd first number⟩

set_option maxRecDepth 4096 in
/-- The sign in front of `x.abs()`. -/
theorem eval_minus_iff_reference :
    let tokens := (Lexed.ofScript "x.abs()").tokens.map (·.2)
    let operand : Expr := .method (.reference "x") "abs" []
    let result : Expr := .unary .negate operand
    (Expr.parse "x.abs()" = .ok operand ∧
        Derives .postfixed tokens (.method (.reference "x") "abs" []) ∧
        Expr.parse ("-" ++ "x.abs()") = .ok result) ∧
      (result.eval 10 "x" (.integer (-7)) =
          operand.eval 10 "x" (.integer (-7)) >>= Value.negated ↔
        ¬(NumberFirst tokens ∧
          ∃ n count, n ≠ .integer 0 ∧ operand = absolutes n (count + 1))) ∧
      result.eval 10 "x" (.integer (-7)) = .ok (.integer (-7)) := by
  intro tokens operand result
  have parsed : Expr.parse "x.abs()" = .ok operand := rfl
  have signed : Expr.parse ("-" ++ "x.abs()") = .ok result := rfl
  have postfixed : Derives .postfixed tokens (.method (.reference "x") "abs" []) := by
    have all : tokens = [.name "x", .symbol .dot, .name "abs", .symbol .leftParen,
        .symbol .rightParen] := by decide
    have reference : Derives .postfixed [.name "x"] (.reference "x") := .tighter .primary .reference
    rw [all]
    exact .method .postfixed reference (List.forall_mem_nil _) .none
  have law := eval_minus_iff parsed postfixed signed 10 "x" (.integer (-7))
  exact ⟨⟨parsed, postfixed, signed⟩, law.1, rfl⟩

set_option maxRecDepth 4096 in
/-- The sign in front of `5.abs()` is lost. -/
theorem eval_minus_absolute :
    let operand : Expr := .method (.literal (.number (.integer 5))) "abs" []
    let result : Expr := .method (.literal (.number (.integer (-5)))) "abs" []
    (Expr.parse "5.abs()" = .ok operand ∧
        Derives .postfixed ((Lexed.ofScript "5.abs()").tokens.map (·.2))
          (.method (.integer false "5") "abs" []) ∧
        Expr.parse ("-" ++ "5.abs()") = .ok result) ∧
      result.eval 10 "x" (.integer 1) = .ok (.integer 5) ∧
      operand.eval 10 "x" (.integer 1) >>= Value.negated = .ok (.integer (-5)) := by
  intro operand result
  have postfixed : Derives .postfixed ((Lexed.ofScript "5.abs()").tokens.map (·.2))
      (.method (.integer false "5") "abs" []) := by
    have all : (Lexed.ofScript "5.abs()").tokens.map (·.2) = [.integer "5", .symbol .dot,
        .name "abs", .symbol .leftParen, .symbol .rightParen] := by decide
    have number : Derives .postfixed [.integer "5"] (.integer false "5") :=
      .tighter .primary .integer
    rw [all]
    exact .method .postfixed number (List.forall_mem_nil _) .none
  exact ⟨⟨rfl, postfixed, rfl⟩, rfl, rfl⟩

end Expr

end Pipeline
