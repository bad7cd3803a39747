import Pipeline.Proofs.Grammar

/-! Reading a tree from the front of a sequence of tokens, with one token of lookahead: what
is read is as long as it can be. Nothing can be read in two ways, and what is read is derived. -/

set_option autoImplicit false

namespace Pipeline.Grammar

/-- What is to be read: an expression of a level, the operators and right operands that go on
from a left operand, the suffixes of an expression, or the arguments of a call. -/
inductive Task where
  | level (level : Level)
  | links (level : Level) (left : Tree)
  | suffixes (left : Tree)
  | arguments

/-- The tokens do not start with an operator of the level. -/
def Unlinked (level : Level) (tokens : List Token) : Prop :=
  ∀ symbol op, tokens.head? = some (.symbol symbol) → operator? symbol ≠ some (level, op)

/-- The trees are read from the front of the tokens, and the rest is left. A call's closing
bracket is left, too. -/
inductive Reads : Task → List Token → List Tree → List Token → Prop where
  | condition {tokens rest : List Token} {tree : Tree} :
      Reads (.level .disjunction) tokens [tree] rest →
      rest.head? ≠ some (.symbol .question) → Reads (.level .conditional) tokens [tree] rest
  | conditional {tokens second third rest : List Token} {condition thenBranch elseBranch : Tree} :
      Reads (.level .disjunction) tokens [condition] (.symbol .question :: second) →
      Reads (.level .conditional) second [thenBranch] (.symbol .colon :: third) →
      Reads (.level .conditional) third [elseBranch] rest →
      Reads (.level .conditional) tokens [.conditional condition thenBranch elseBranch] rest
  | chain {level inner : Level} {tokens middle rest : List Token} {left tree : Tree} :
      level.operand? = some inner → Reads (.level inner) tokens [left] middle →
      Reads (.links level left) middle [tree] rest → Reads (.level level) tokens [tree] rest
  | unlinked {level : Level} {left : Tree} {rest : List Token} :
      Unlinked level rest → Reads (.links level left) rest [left] rest
  | link {symbol : Symbol} {level inner : Level} {op : BinaryOp} {left right tree : Tree}
      {tokens middle rest : List Token} :
      operator? symbol = some (level, op) → level.operand? = some inner →
      Reads (.level inner) tokens [right] middle →
      Reads (.links level (.binary op left right)) middle [tree] rest →
      Reads (.links level left) (.symbol symbol :: tokens) [tree] rest
  | uncompared {tokens rest : List Token} {tree : Tree} :
      Reads (.level .sum) tokens [tree] rest → Unlinked .comparison rest →
      Reads (.level .comparison) tokens [tree] rest
  | compare {symbol : Symbol} {op : BinaryOp} {tokens middle rest : List Token}
      {left right : Tree} :
      operator? symbol = some (.comparison, op) →
      Reads (.level .sum) tokens [left] (.symbol symbol :: middle) →
      Reads (.level .sum) middle [right] rest →
      Reads (.level .comparison) tokens [.binary op left right] rest
  | not {tokens rest : List Token} {operand : Tree} :
      Reads (.level .negation) tokens [operand] rest →
      Reads (.level .negation) (.symbol .not :: tokens) [.unary .not operand] rest
  | affirmed {tokens rest : List Token} {tree : Tree} :
      tokens.head? ≠ some (.symbol .not) → Reads (.level .comparison) tokens [tree] rest →
      Reads (.level .negation) tokens [tree] rest
  | negativeInteger {digits : String} {tokens rest : List Token} {tree : Tree} :
      Reads (.suffixes (.integer true digits)) tokens [tree] rest →
      Reads (.level .signed) (.symbol .minus :: .integer digits :: tokens) [tree] rest
  | negativeFloat {value : Double} {tokens rest : List Token} {tree : Tree} :
      Reads (.suffixes (.float value.neg)) tokens [tree] rest →
      Reads (.level .signed) (.symbol .minus :: .float value :: tokens) [tree] rest
  | negate {tokens rest : List Token} {operand : Tree} :
      (∀ token, tokens.head? = some token → ¬ IsNumber token) →
      Reads (.level .signed) tokens [operand] rest →
      Reads (.level .signed) (.symbol .minus :: tokens) [.unary .negate operand] rest
  | unsigned {tokens middle rest : List Token} {primary tree : Tree} :
      tokens.head? ≠ some (.symbol .minus) → Reads (.level .primary) tokens [primary] middle →
      Reads (.suffixes primary) middle [tree] rest → Reads (.level .signed) tokens [tree] rest
  | bare {left : Tree} {rest : List Token} :
      rest.head? ≠ some (.symbol .dot) → Reads (.suffixes left) rest [left] rest
  | field {left tree : Tree} {name : String} {tokens rest : List Token} :
      tokens.head? ≠ some (.symbol .leftParen) →
      Reads (.suffixes (.field left name)) tokens [tree] rest →
      Reads (.suffixes left) (.symbol .dot :: .name name :: tokens) [tree] rest
  | method {left tree : Tree} {name : String} {tokens middle rest : List Token}
      {arguments : List Tree} :
      Reads .arguments tokens arguments (.symbol .rightParen :: middle) →
      Reads (.suffixes (.method left name arguments)) middle [tree] rest →
      Reads (.suffixes left) (.symbol .dot :: .name name :: .symbol .leftParen :: tokens)
        [tree] rest
  | integer {digits : String} {rest : List Token} :
      Reads (.level .primary) (.integer digits :: rest) [.integer false digits] rest
  | float {value : Double} {rest : List Token} :
      Reads (.level .primary) (.float value :: rest) [.float value] rest
  | text {value : String} {rest : List Token} :
      Reads (.level .primary) (.text value :: rest) [.text value] rest
  | boolean {value : Bool} {rest : List Token} :
      Reads (.level .primary) (.boolean value :: rest) [.boolean value] rest
  | reference {name : String} {rest : List Token} :
      rest.head? ≠ some (.symbol .leftParen) →
      Reads (.level .primary) (.name name :: rest) [.reference name] rest
  | call {name : String} {tokens rest : List Token} {arguments : List Tree} :
      Reads .arguments tokens arguments (.symbol .rightParen :: rest) →
      Reads (.level .primary) (.name name :: .symbol .leftParen :: tokens)
        [.call name arguments] rest
  | parentheses {tokens rest : List Token} {tree : Tree} :
      Reads (.level .conditional) tokens [tree] (.symbol .rightParen :: rest) →
      Reads (.level .primary) (.symbol .leftParen :: tokens) [tree] rest
  | none {rest : List Token} :
      Reads .arguments (.symbol .rightParen :: rest) [] (.symbol .rightParen :: rest)
  | last {tokens rest : List Token} {argument : Tree} :
      tokens.head? ≠ some (.symbol .rightParen) →
      Reads (.level .conditional) tokens [argument] (.symbol .rightParen :: rest) →
      Reads .arguments tokens [argument] (.symbol .rightParen :: rest)
  | more {tokens middle rest : List Token} {argument : Tree} {arguments : List Tree} :
      tokens.head? ≠ some (.symbol .rightParen) →
      Reads (.level .conditional) tokens [argument] (.symbol .comma :: middle) →
      Reads .arguments middle arguments rest →
      Reads .arguments tokens (argument :: arguments) rest

/-- Nothing can be read in two ways. -/
theorem Reads.unique {task : Task} {tokens : List Token} {trees others : List Tree}
    {rest left : List Token} (first : Reads task tokens trees rest)
    (second : Reads task tokens others left) : trees = others ∧ rest = left := by
  -- Where the two readings differ in their rule, the next token allows only one of the rules.
  induction first generalizing others left with
  | condition _ stops ih =>
      cases second with
      | condition other _ => exact ih other
      | conditional condition _ _ =>
          obtain ⟨_, ⟨⟩⟩ := ih condition
          exact absurd rfl stops
      | chain operand => cases operand
  | conditional _ _ _ conditionIH thenIH elseIH =>
      cases second with
      | condition other stops =>
          obtain ⟨_, ⟨⟩⟩ := conditionIH other
          exact absurd rfl stops
      | conditional condition thenBranch elseBranch =>
          obtain ⟨⟨⟩, ⟨⟩⟩ := conditionIH condition
          obtain ⟨⟨⟩, ⟨⟩⟩ := thenIH thenBranch
          obtain ⟨⟨⟩, ⟨⟩⟩ := elseIH elseBranch
          exact ⟨rfl, rfl⟩
      | chain operand => cases operand
  | chain operand _ _ firstIH linksIH =>
      cases second with
      | chain same first links =>
          cases operand.symm.trans same
          obtain ⟨⟨⟩, ⟨⟩⟩ := firstIH first
          exact linksIH links
      | _ => cases operand
  | unlinked stops =>
      cases second with
      | unlinked _ => exact ⟨rfl, rfl⟩
      | link operator _ _ _ => exact absurd operator (stops _ _ rfl)
  | link operator operand _ _ rightIH linksIH =>
      cases second with
      | unlinked stops => exact absurd operator (stops _ _ rfl)
      | link same sameOperand right links =>
          cases operator.symm.trans same
          cases operand.symm.trans sameOperand
          obtain ⟨⟨⟩, ⟨⟩⟩ := rightIH right
          exact linksIH links
  | uncompared _ stops ih =>
      cases second with
      | uncompared other _ => exact ih other
      | compare operator left _ =>
          obtain ⟨_, ⟨⟩⟩ := ih left
          exact absurd operator (stops _ _ rfl)
      | chain operand => cases operand
  | compare operator _ _ leftIH rightIH =>
      cases second with
      | uncompared other stops =>
          obtain ⟨_, ⟨⟩⟩ := leftIH other
          exact absurd operator (stops _ _ rfl)
      | compare same left right =>
          obtain ⟨⟨⟩, ⟨⟩⟩ := leftIH left
          cases operator.symm.trans same
          obtain ⟨⟨⟩, ⟨⟩⟩ := rightIH right
          exact ⟨rfl, rfl⟩
      | chain operand => cases operand
  | not _ ih =>
      cases second with
      | not other =>
          obtain ⟨⟨⟩, ⟨⟩⟩ := ih other
          exact ⟨rfl, rfl⟩
      | affirmed absent _ => exact absurd rfl absent
      | chain operand => cases operand
  | affirmed absent _ ih =>
      cases second with
      | not _ => exact absurd rfl absent
      | affirmed _ other => exact ih other
      | chain operand => cases operand
  | negativeInteger _ ih =>
      cases second with
      | negativeInteger other => exact ih other
      | negate other _ => exact absurd .integer (other _ rfl)
      | unsigned absent _ _ => exact absurd rfl absent
      | chain operand => cases operand
  | negativeFloat _ ih =>
      cases second with
      | negativeFloat other => exact ih other
      | negate other _ => exact absurd .float (other _ rfl)
      | unsigned absent _ _ => exact absurd rfl absent
      | chain operand => cases operand
  | negate other _ ih =>
      cases second with
      | negativeInteger _ => exact absurd .integer (other _ rfl)
      | negativeFloat _ => exact absurd .float (other _ rfl)
      | negate _ operand =>
          obtain ⟨⟨⟩, ⟨⟩⟩ := ih operand
          exact ⟨rfl, rfl⟩
      | unsigned absent _ _ => exact absurd rfl absent
      | chain operand => cases operand
  | unsigned absent _ _ primaryIH suffixesIH =>
      cases second with
      | unsigned _ primary suffixes =>
          obtain ⟨⟨⟩, ⟨⟩⟩ := primaryIH primary
          exact suffixesIH suffixes
      | chain operand => cases operand
      | _ => exact absurd rfl absent
  | bare absent =>
      cases second with
      | bare _ => exact ⟨rfl, rfl⟩
      | _ => exact absurd rfl absent
  | field absent _ ih =>
      cases second with
      | bare absent => exact absurd rfl absent
      | field _ suffixes => exact ih suffixes
      | method _ _ => exact absurd rfl absent
  | method _ _ argumentsIH suffixesIH =>
      cases second with
      | bare absent => exact absurd rfl absent
      | field absent _ => exact absurd rfl absent
      | method arguments suffixes =>
          obtain ⟨⟨⟩, ⟨⟩⟩ := argumentsIH arguments
          exact suffixesIH suffixes
  | integer | float | text | boolean =>
      cases second with
      | chain operand => cases operand
      | _ => exact ⟨rfl, rfl⟩
  | reference absent =>
      cases second with
      | reference _ => exact ⟨rfl, rfl⟩
      | call _ => exact absurd rfl absent
      | chain operand => cases operand
  | call _ ih =>
      cases second with
      | reference absent => exact absurd rfl absent
      | call arguments =>
          obtain ⟨⟨⟩, ⟨⟩⟩ := ih arguments
          exact ⟨rfl, rfl⟩
      | chain operand => cases operand
  | parentheses _ ih =>
      cases second with
      | parentheses inner =>
          obtain ⟨⟨⟩, ⟨⟩⟩ := ih inner
          exact ⟨rfl, rfl⟩
      | chain operand => cases operand
  | none =>
      cases second with
      | none => exact ⟨rfl, rfl⟩
      | last absent _ => exact absurd rfl absent
      | more absent _ _ => exact absurd rfl absent
  | last absent _ ih =>
      cases second with
      | none => exact absurd rfl absent
      | last _ other =>
          obtain ⟨⟨⟩, ⟨⟩⟩ := ih other
          exact ⟨rfl, rfl⟩
      | more _ other _ =>
          obtain ⟨_, ⟨⟩⟩ := ih other
  | more absent _ _ firstIH othersIH =>
      cases second with
      | none => exact absurd rfl absent
      | last _ other =>
          obtain ⟨_, ⟨⟩⟩ := firstIH other
      | more _ first others =>
          obtain ⟨⟨⟩, ⟨⟩⟩ := firstIH first
          obtain ⟨⟨⟩, ⟨⟩⟩ := othersIH others
          exact ⟨rfl, rfl⟩

/-! ## What is read is derived -/

/-- What the tokens that are read mean. Those behind a left operand complete whatever
tokens derive it. -/
def Task.Means : Task → List Token → List Tree → Prop
  | .level expected, tokens, [tree] => Derives expected tokens tree
  | .links expected left, tokens, [tree] =>
    ∀ before, Derives expected before left → Derives expected (before ++ tokens) tree
  | .suffixes left, tokens, [tree] => ∀ (head : Level) (before : List Token),
    head.TakesSuffix → Derives head before left → Derives head (before ++ tokens) tree
  | .arguments, tokens, trees => ∃ arguments : List (List Token × Tree),
    trees = arguments.map Prod.snd ∧
    (∀ argument ∈ arguments, Derives .conditional argument.1 argument.2) ∧
    Separated (arguments.map Prod.fst) tokens
  | _, _, _ => False

/-- What is read from the front of the tokens is derived from what is taken of them. -/
theorem Reads.means {task : Task} {tokens rest : List Token} {trees : List Tree}
    (reads : Reads task tokens trees rest) :
    ∃ taken, tokens = taken ++ rest ∧ task.Means taken trees := by
  induction reads with
  | condition _ _ ih =>
      obtain ⟨taken, rfl, derives⟩ := ih
      exact ⟨taken, rfl, Derives.tighter .disjunction derives⟩
  | conditional _ _ _ conditionIH thenIH elseIH =>
      obtain ⟨first, rfl, condition⟩ := conditionIH
      obtain ⟨second, rfl, thenBranch⟩ := thenIH
      obtain ⟨third, rfl, elseBranch⟩ := elseIH
      exact ⟨_, by simp, Derives.conditional condition thenBranch elseBranch⟩
  | chain operand _ _ firstIH linksIH =>
      obtain ⟨first, rfl, derives⟩ := firstIH
      obtain ⟨others, rfl, completes⟩ := linksIH
      exact ⟨first ++ others, by simp,
        completes first (Derives.tighter (Level.operand?_includes operand) derives)⟩
  | unlinked _ => exact ⟨[], rfl, fun before derives => by rwa [List.append_nil]⟩
  | @link symbol level inner op _ _ _ _ _ _ operator operand _ _ rightIH linksIH =>
      obtain ⟨second, rfl, right⟩ := rightIH
      obtain ⟨others, rfl, completes⟩ := linksIH
      refine ⟨.symbol symbol :: (second ++ others), by simp, fun before left => ?_⟩
      simpa using completes _ (Derives.join operator operand left right)
  | uncompared _ _ ih =>
      obtain ⟨taken, rfl, derives⟩ := ih
      exact ⟨taken, rfl, Derives.tighter .sum derives⟩
  | compare operator _ _ leftIH rightIH =>
      obtain ⟨first, rfl, left⟩ := leftIH
      obtain ⟨second, rfl, right⟩ := rightIH
      exact ⟨_, by simp, Derives.compare operator left right⟩
  | not _ ih =>
      obtain ⟨taken, rfl, derives⟩ := ih
      exact ⟨_, rfl, Derives.not derives⟩
  | affirmed _ _ ih =>
      obtain ⟨taken, rfl, derives⟩ := ih
      exact ⟨taken, rfl, Derives.tighter .comparison derives⟩
  | negativeInteger _ ih =>
      obtain ⟨taken, rfl, completes⟩ := ih
      exact ⟨_, rfl, Derives.tighter .signedNumber (completes _ _ .signedNumber .negativeInteger)⟩
  | negativeFloat _ ih =>
      obtain ⟨taken, rfl, completes⟩ := ih
      exact ⟨_, rfl, Derives.tighter .signedNumber (completes _ _ .signedNumber .negativeFloat)⟩
  | negate other _ ih =>
      obtain ⟨taken, rfl, derives⟩ := ih
      refine ⟨_, rfl, Derives.negate (fun token first => other token ?_) derives⟩
      rw [List.head?_append, first]
      rfl
  | unsigned _ _ _ primaryIH suffixesIH =>
      obtain ⟨first, rfl, derives⟩ := primaryIH
      obtain ⟨others, rfl, completes⟩ := suffixesIH
      exact ⟨first ++ others, by simp,
        Derives.tighter .postfixed (completes _ _ .postfixed (Derives.tighter .primary derives))⟩
  | bare _ => exact ⟨[], rfl, fun _ before _ derives => by rwa [List.append_nil]⟩
  | @field _ _ name _ _ _ _ ih =>
      obtain ⟨others, rfl, completes⟩ := ih
      refine ⟨.symbol .dot :: .name name :: others, rfl, fun level before takes left => ?_⟩
      simpa using completes _ _ takes (Derives.field takes left)
  | @method _ _ name _ _ _ _ _ _ argumentsIH suffixesIH =>
      obtain ⟨written, rfl, arguments, rfl, derived, separated⟩ := argumentsIH
      obtain ⟨others, rfl, completes⟩ := suffixesIH
      refine ⟨.symbol .dot :: .name name :: .symbol .leftParen ::
        (written ++ .symbol .rightParen :: others), by simp, fun level before takes left => ?_⟩
      simpa using completes _ _ takes (Derives.method takes left derived separated)
  | integer => exact ⟨[_], rfl, Derives.integer⟩
  | float => exact ⟨[_], rfl, Derives.float⟩
  | text => exact ⟨[_], rfl, Derives.text⟩
  | boolean => exact ⟨[_], rfl, Derives.boolean⟩
  | reference _ => exact ⟨[_], rfl, Derives.reference⟩
  | call _ ih =>
      obtain ⟨written, rfl, arguments, rfl, derived, separated⟩ := ih
      exact ⟨_, by simp, Derives.call derived separated⟩
  | parentheses _ ih =>
      obtain ⟨taken, rfl, derives⟩ := ih
      exact ⟨_, by simp, Derives.parentheses derives⟩
  | none => exact ⟨[], rfl, [], rfl, List.forall_mem_nil _, .none⟩
  | @last _ _ argument _ _ ih =>
      obtain ⟨taken, rfl, derives⟩ := ih
      exact ⟨taken, rfl, [(taken, argument)], rfl, List.forall_mem_singleton.2 derives, .last⟩
  | @more _ _ _ argument _ _ _ _ firstIH othersIH =>
      obtain ⟨taken, rfl, derives⟩ := firstIH
      obtain ⟨written, rfl, arguments, rfl, derived, separated⟩ := othersIH
      exact ⟨taken ++ .symbol .comma :: written, by simp, (taken, argument) :: arguments, rfl,
        List.forall_mem_cons.2 ⟨derives, derived⟩, .more separated⟩

end Pipeline.Grammar
