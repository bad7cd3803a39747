import Pipeline.Script.ChainParser

/-! Writing chains as scripts: first as tokens, then each token as it is spelled. Every operand of
an operator, of a conditional and of a suffix stands in brackets. -/

set_option autoImplicit false

namespace Pipeline

/-! ## Chains as tokens -/

def bracketed (tokens : List Token) : List Token :=
  .symbol .leftParen :: (tokens ++ [.symbol .rightParen])

def Arithmetic.symbol : Arithmetic → Symbol
  | add => .plus
  | subtract => .minus
  | multiply => .star
  | divide => .slash
  | modulo => .percent

def Relation.symbol : Relation → Symbol
  | equal => .equal
  | notEqual => .notEqual
  | less => .less
  | greater => .greater
  | lessEqual => .lessEqual
  | greaterEqual => .greaterEqual

def Connective.symbol : Connective → Symbol
  | and => .and
  | or => .or

def BinaryOp.symbol : BinaryOp → Symbol
  | arithmetic op => op.symbol
  | relation op => op.symbol
  | connective op => op.symbol

def UnaryOp.symbol : UnaryOp → Symbol
  | negate => .minus
  | not => .not

/-- A negative number is its absolute value behind a minus sign. -/
def Number.tokens : Number → List Token
  | integer value =>
    let digits := String.ofList (Nat.toDigits 10 value.toInt.natAbs)
    if value.toInt < 0 then [.symbol .minus, .integer digits] else [.integer digits]
  | float value =>
    if value.negative then [.symbol .minus, .float value.neg] else [.float value]

def Scalar.tokens : Scalar → List Token
  | number value => value.tokens
  | text value => [.text value]
  | boolean value => [.boolean value]

mutual

def Expr.tokens : Expr → List Token
  | .literal value => value.tokens
  | .reference name => [.name name]
  | .field object name => bracketed (tokens object) ++ [.symbol .dot, .name name]
  | .unary op operand => .symbol op.symbol :: bracketed (tokens operand)
  | .binary op left right =>
    bracketed (tokens left) ++ .symbol op.symbol :: bracketed (tokens right)
  | .conditional condition thenBranch elseBranch =>
    bracketed (tokens condition) ++ .symbol .question ::
      (bracketed (tokens thenBranch) ++ .symbol .colon :: bracketed (tokens elseBranch))
  | .method object name arguments =>
    bracketed (tokens object) ++ .symbol .dot :: .name name ::
      bracketed ([Token.symbol .comma].intercalate (tokensOfEach arguments))
  | .call function arguments =>
    .name function :: bracketed ([Token.symbol .comma].intercalate (tokensOfEach arguments))
termination_by structural expr => expr

def Expr.tokensOfEach : List Expr → List (List Token)
  | [] => []
  | expr :: rest => tokens expr :: tokensOfEach rest
termination_by structural exprs => exprs

end

def Lambda.tokens (lambda : Lambda) : List Token :=
  .name lambda.parameter :: .symbol .arrow :: lambda.body.tokens

/-- The identity is written as nothing at all. -/
def Selector.tokens : Selector → List Token
  | identity => []
  | field name => [.name name]
  | lambda function => function.tokens

def Direction.word : Direction → String
  | ascending => "asc"
  | descending => "desc"

/-- A key is the direction alone where the elements themselves are compared. -/
def SortKey.tokens : SortKey → List Token
  | ⟨.identity, direction⟩ => [.name direction.word]
  | ⟨selector, direction⟩ => .name "by" :: (selector.tokens ++ [.name direction.word])

def Comparator.tokens (comparator : Comparator) : List Token :=
  [Token.name "then"].intercalate (comparator.keys.map SortKey.tokens)

def Aggregator.tokens : Aggregator → List Token
  | toList => .name "toList" :: bracketed []
  | toSet => .name "toSet" :: bracketed []
  | counting => .name "counting" :: bracketed []
  | joining separator => .name "joining" :: bracketed [.text separator]
  | summing selector => .name "summing" :: bracketed selector.tokens

def Stage.argumentTokens : Stage → List Token
  | filter selector | map selector | sum selector | groupBy selector => selector.tokens
  | flatMap function => function.tokens
  | sorted comparator => comparator.elim [] Comparator.tokens
  | distinct => []
  | max comparator | min comparator => comparator.tokens
  | collect aggregator => aggregator.tokens
  | limit count | skip count => [.integer (String.ofList (Nat.toDigits 10 count))]

def Stage.tokens (stage : Stage) : List Token :=
  .symbol .dot :: .name stage.name :: bracketed stage.argumentTokens

def Chain.tokens (chain : Chain) : List Token :=
  chain.flatMap Stage.tokens

/-! ## Tokens as they are spelled -/

/-- Spellings of the finite doubles without a sign: digits, a point and digits that are read back
as the double. -/
structure Spelling where
  whole : Double → List Char
  fraction : Double → List Char
  whole_ne_nil (x : Double) : whole x ≠ []
  fraction_ne_nil (x : Double) : fraction x ≠ []
  isDigit_whole (x : Double) : ∀ c ∈ whole x, isDigit c = true
  isDigit_fraction (x : Double) : ∀ c ∈ fraction x, isDigit c = true
  reads_back (x : Double) : x.isFinite = true → x.negative = false →
    Double.ofDecimal false (digitsValue 0 (whole x ++ fraction x)) (-(fraction x).length) = x

def Symbol.spelling : Symbol → String
  | arrow => "->"
  | equal => "=="
  | notEqual => "!="
  | less => "<"
  | greater => ">"
  | lessEqual => "<="
  | greaterEqual => ">="
  | plus => "+"
  | minus => "-"
  | star => "*"
  | slash => "/"
  | percent => "%"
  | and => "and"
  | or => "or"
  | not => "not"
  | leftParen => "("
  | rightParen => ")"
  | dot => "."
  | comma => ","
  | question => "?"
  | colon => ":"

/-- A character as it stands between double quotes. -/
def escaped : Char → List Char
  | '\n' => ['\\', 'n']
  | '\t' => ['\\', 't']
  | '\r' => ['\\', 'r']
  | '"' => ['\\', '"']
  | '\\' => ['\\', '\\']
  | c => [c]

def Token.spelling (spelling : Spelling) : Token → List Char
  | integer digits => digits.toList
  | float value => spelling.whole value ++ '.' :: spelling.fraction value
  | text value => '"' :: (value.toList.flatMap escaped ++ ['"'])
  | boolean value => if value then "true".toList else "false".toList
  | name spelling => spelling.toList
  | symbol which => which.spelling.toList

/-- No blank is put between the two tokens. -/
def Token.touches : Token → Token → Bool
  | symbol .leftParen, _ | symbol .dot, _ => true
  | _, symbol .rightParen | _, symbol .comma => true
  | symbol .rightParen, symbol .dot => true
  | name _, symbol .leftParen => true
  | symbol .minus, integer _ | symbol .minus, float _ => true
  | _, _ => false

def Token.spellAll (spelling : Spelling) : List Token → List Char
  | [] => []
  | [token] => token.spelling spelling
  | token :: next :: rest =>
    token.spelling spelling ++
      (if token.touches next then [] else [' ']) ++ spellAll spelling (next :: rest)

/-- The chain as a script. -/
def Chain.print (spelling : Spelling) (chain : Chain) : String :=
  String.ofList (Token.spellAll spelling chain.tokens)

/-! ## What scripts can express -/

/-- The word is a name wherever it stands, and not a keyword. -/
def IsIdentifier (word : String) : Prop :=
  (∃ first others, word.toList = first :: others ∧ Scan.startsName first = true ∧
    ∀ c ∈ others, Scan.continuesName c = true) ∧
  Scan.wordToken word = .name word

instance (word : String) : Decidable (IsIdentifier word) :=
  decidable_of_iff
    ((word.toList.head?.any Scan.startsName && word.toList.tail.all Scan.continuesName) = true ∧
      Scan.wordToken word = .name word)
    (and_congr_left' (by cases word.toList <;> simp [and_assoc]))

/-- Floating point numbers are finite, and names are identifiers. -/
inductive Expr.Expressible : Expr → Prop where
  | integer {value : Int64} : Expressible (.literal (.number (.integer value)))
  | float {value : Double} : value.isFinite = true →
      Expressible (.literal (.number (.float value)))
  | text {value : String} : Expressible (.literal (.text value))
  | boolean {value : Bool} : Expressible (.literal (.boolean value))
  | reference {name : String} : IsIdentifier name → Expressible (.reference name)
  | field {object : Expr} {name : String} :
      Expressible object → IsIdentifier name → Expressible (.field object name)
  | unary {op : UnaryOp} {operand : Expr} :
      Expressible operand → Expressible (.unary op operand)
  | binary {op : BinaryOp} {left right : Expr} :
      Expressible left → Expressible right → Expressible (.binary op left right)
  | conditional {condition thenBranch elseBranch : Expr} :
      Expressible condition → Expressible thenBranch → Expressible elseBranch →
      Expressible (.conditional condition thenBranch elseBranch)
  | method {object : Expr} {name : String} {arguments : List Expr} :
      Expressible object → IsIdentifier name → (∀ argument ∈ arguments, Expressible argument) →
      Expressible (.method object name arguments)
  | call {function : String} {arguments : List Expr} :
      IsIdentifier function → (∀ argument ∈ arguments, Expressible argument) →
      Expressible (.call function arguments)

def Lambda.Expressible (lambda : Lambda) : Prop :=
  IsIdentifier lambda.parameter ∧ lambda.body.Expressible

/-- Only some places leave the identity unwritten. -/
def Selector.Expressible : Selector → Prop
  | identity => False
  | field name => IsIdentifier name
  | lambda function => function.Expressible

def Comparator.Expressible (comparator : Comparator) : Prop :=
  comparator.keys ≠ [] ∧
    ∀ key ∈ comparator.keys, key.selector = .identity ∨ key.selector.Expressible

def Aggregator.Expressible : Aggregator → Prop
  | toList | toSet | counting | joining _ => True
  | summing selector => selector.Expressible

def Stage.Expressible : Stage → Prop
  | filter selector | map selector | groupBy selector => selector.Expressible
  | flatMap function => function.Expressible
  | sorted comparator => ∀ given, comparator = some given → given.Expressible
  | distinct => True
  | max comparator | min comparator => comparator.Expressible
  | sum selector => selector = .identity ∨ selector.Expressible
  | collect aggregator => aggregator.Expressible
  | limit count | skip count => count < Nat.pow 2 64

def Chain.Expressible (chain : Chain) : Prop :=
  chain ≠ [] ∧ ∀ stage ∈ chain, stage.Expressible

/-! ## The nesting of what is written -/

mutual

/-- How often an expression goes one level deeper, on the path that does so most often. -/
def Expr.nesting : Expr → Nat
  | .literal _ | .reference _ => 0
  | .field object _ => nesting object + 1
  | .unary _ operand => nesting operand + 2
  | .binary _ left right => max (nesting left + 1) (nesting right + 1)
  | .conditional condition thenBranch elseBranch =>
    max (nesting condition + 1) (max (nesting thenBranch + 2) (nesting elseBranch + 2))
  | .method object _ arguments => max (nesting object + 1) (nestingOfAll arguments)
  | .call _ arguments => nestingOfAll arguments
termination_by structural expr => expr

def Expr.nestingOfAll : List Expr → Nat
  | [] => 0
  | expr :: rest => max (nesting expr + 1) (nestingOfAll rest)
termination_by structural exprs => exprs

end

def Selector.nesting : Selector → Nat
  | identity | field _ => 0
  | lambda function => function.body.nesting + 1

def Comparator.nesting (comparator : Comparator) : Nat :=
  comparator.keys.foldr (fun key deepest => max key.selector.nesting deepest) 0

def Stage.nesting : Stage → Nat
  | filter selector | map selector | sum selector | groupBy selector => selector.nesting
  | flatMap function => function.body.nesting + 1
  | sorted comparator => comparator.elim 0 Comparator.nesting
  | max comparator | min comparator => comparator.nesting
  | collect (.summing selector) => selector.nesting
  | collect _ | distinct | limit _ | skip _ => 0

def Chain.nesting (chain : Chain) : Nat :=
  chain.foldr (fun stage deepest => max stage.nesting deepest) 0

end Pipeline
