import Pipeline.Script.ExprParser

/-! The grammar of expressions, apart from how they are parsed: levels of precedence, the
operators that belong to them, and the trees that sequences of tokens derive. -/

set_option autoImplicit false

namespace Pipeline.Grammar

/-- An expression as it is written. Integers are any digits, with the sign that belongs to
them. -/
inductive Tree where
  | integer (negative : Bool) (digits : String)
  | float (value : Double)
  | text (value : String)
  | boolean (value : Bool)
  | reference (name : String)
  | field (object : Tree) (name : String)
  | unary (op : UnaryOp) (operand : Tree)
  | binary (op : BinaryOp) (left right : Tree)
  | conditional (condition thenBranch elseBranch : Tree)
  | method (object : Tree) (name : String) (arguments : List Tree)
  | call (function : String) (arguments : List Tree)

/-- The integer that digits with a sign denote, if it fits. -/
def integer? (negative : Bool) (digits : String) : Option Int64 :=
  let size : Int := digitsValue 0 digits.toList
  boundedInteger? (if negative then -size else size)

namespace Tree

mutual

/-- The expression that a tree stands for, if all its integers fit. -/
def expr? : Tree → Option Expr
  | integer negative digits =>
    (integer? negative digits).map fun n => .literal (.number (.integer n))
  | float value => some (.literal (.number (.float value)))
  | text value => some (.literal (.text value))
  | boolean value => some (.literal (.boolean value))
  | reference name => some (.reference name)
  | field object name => (expr? object).map (.field · name)
  | unary op operand => (expr? operand).map (.unary op)
  | binary op left right => do
    let left ← expr? left
    let right ← expr? right
    return .binary op left right
  | conditional condition thenBranch elseBranch => do
    let condition ← expr? condition
    let thenBranch ← expr? thenBranch
    let elseBranch ← expr? elseBranch
    return .conditional condition thenBranch elseBranch
  | method object name arguments => do
    let object ← expr? object
    let arguments ← exprs? arguments
    return .method object name arguments
  | call function arguments => (exprs? arguments).map (.call function)
termination_by structural tree => tree

def exprs? : List Tree → Option (List Expr)
  | [] => some []
  | tree :: rest => do
    let expr ← expr? tree
    let exprs ← exprs? rest
    return expr :: exprs
termination_by structural trees => trees

end

section Fits

variable {expr : Expr}

theorem expr?_binary_eq_some {op : BinaryOp} {left right : Tree} :
    (binary op left right).expr? = some expr ↔ ∃ first second,
      left.expr? = some first ∧ right.expr? = some second ∧ .binary op first second = expr := by
  simp [expr?, Option.bind_eq_some_iff]

theorem expr?_conditional_eq_some {condition thenBranch elseBranch : Tree} :
    (conditional condition thenBranch elseBranch).expr? = some expr ↔ ∃ first second third,
      condition.expr? = some first ∧ thenBranch.expr? = some second ∧
        elseBranch.expr? = some third ∧ .conditional first second third = expr := by
  simp [expr?, Option.bind_eq_some_iff]

theorem expr?_method_eq_some {object : Tree} {name : String} {arguments : List Tree} :
    (method object name arguments).expr? = some expr ↔ ∃ inner exprs,
      object.expr? = some inner ∧ exprs? arguments = some exprs ∧
        .method inner name exprs = expr := by
  simp [expr?, Option.bind_eq_some_iff]

theorem exprs?_cons_eq_some {tree : Tree} {rest : List Tree} {exprs : List Expr} :
    exprs? (tree :: rest) = some exprs ↔ ∃ first others,
      tree.expr? = some first ∧ exprs? rest = some others ∧ first :: others = exprs := by
  simp [exprs?, Option.bind_eq_some_iff]

end Fits

mutual

/-- The integers in a tree, each with its sign and digits. -/
def integers : Tree → List (Bool × String)
  | integer negative digits => [(negative, digits)]
  | float _ | text _ | boolean _ | reference _ => []
  | field object _ => integers object
  | unary _ operand => integers operand
  | binary _ left right => integers left ++ integers right
  | conditional condition thenBranch elseBranch =>
    integers condition ++ integers thenBranch ++ integers elseBranch
  | method object _ arguments => integers object ++ integersOfAll arguments
  | call _ arguments => integersOfAll arguments
termination_by structural tree => tree

def integersOfAll : List Tree → List (Bool × String)
  | [] => []
  | tree :: rest => integers tree ++ integersOfAll rest
termination_by structural trees => trees

end

end Tree

/-- The levels of precedence, from the loosest to the tightest. A signed number is a number
with the minus sign directly before it. -/
inductive Level where
  | conditional
  | disjunction
  | conjunction
  | negation
  | comparison
  | sum
  | product
  | signed
  | signedNumber
  | postfixed
  | primary
deriving DecidableEq

/-- An expression of the tighter level stands where one of the looser level is expected. -/
inductive Level.Includes : Level → Level → Prop where
  | disjunction : Includes conditional disjunction
  | conjunction : Includes disjunction conjunction
  | negation : Includes conjunction negation
  | comparison : Includes negation comparison
  | sum : Includes comparison sum
  | product : Includes sum product
  | signed : Includes product signed
  | signedNumber : Includes signed signedNumber
  | postfixed : Includes signed postfixed
  | primary : Includes postfixed primary

/-- The level of an operator with two operands, and the operator. -/
def operator? : Symbol → Option (Level × BinaryOp)
  | .or => some (.disjunction, .connective .or)
  | .and => some (.conjunction, .connective .and)
  | .equal => some (.comparison, .relation .equal)
  | .notEqual => some (.comparison, .relation .notEqual)
  | .less => some (.comparison, .relation .less)
  | .greater => some (.comparison, .relation .greater)
  | .lessEqual => some (.comparison, .relation .lessEqual)
  | .greaterEqual => some (.comparison, .relation .greaterEqual)
  | .plus => some (.sum, .arithmetic .add)
  | .minus => some (.sum, .arithmetic .subtract)
  | .star => some (.product, .arithmetic .multiply)
  | .slash => some (.product, .arithmetic .divide)
  | .percent => some (.product, .arithmetic .modulo)
  | _ => none

/-- The level of the right operands where operators chain, joining from the left. -/
def Level.operand? : Level → Option Level
  | disjunction => some conjunction
  | conjunction => some negation
  | sum => some product
  | product => some signed
  | _ => none

theorem Level.operand?_includes {outer inner : Level} (operand : outer.operand? = some inner) :
    outer.Includes inner := by
  cases outer <;> cases operand
  · exact .conjunction
  · exact .negation
  · exact .product
  · exact .signed

/-- The levels that take suffixes. -/
inductive Level.TakesSuffix : Level → Prop where
  | signedNumber : TakesSuffix signedNumber
  | postfixed : TakesSuffix postfixed

/-- The token is a number. -/
inductive IsNumber : Token → Prop where
  | integer {digits : String} : IsNumber (.integer digits)
  | float {value : Double} : IsNumber (.float value)

/-- The tokens are the given sequences, with a comma behind each but the last, where it is
optional. -/
inductive Separated : List (List Token) → List Token → Prop where
  | none : Separated [] []
  | last {tokens : List Token} : Separated [tokens] tokens
  | more {tokens rest : List Token} {others : List (List Token)} : Separated others rest →
      Separated (tokens :: others) (tokens ++ .symbol .comma :: rest)

/-- The tokens derive the tree at a level of precedence. -/
inductive Derives : Level → List Token → Tree → Prop where
  | tighter {outer inner : Level} {tokens : List Token} {tree : Tree} :
      outer.Includes inner → Derives inner tokens tree → Derives outer tokens tree
  /-- The branches are conditionals in turn, so that those nest to the right. -/
  | conditional {first second third : List Token} {condition thenBranch elseBranch : Tree} :
      Derives .disjunction first condition → Derives .conditional second thenBranch →
      Derives .conditional third elseBranch →
      Derives .conditional
        (first ++ .symbol .question :: (second ++ .symbol .colon :: third))
        (.conditional condition thenBranch elseBranch)
  /-- Operators of one level join from the left. -/
  | join {symbol : Symbol} {level inner : Level} {op : BinaryOp} {first second : List Token}
      {left right : Tree} :
      operator? symbol = some (level, op) → level.operand? = some inner →
      Derives level first left → Derives inner second right →
      Derives level (first ++ .symbol symbol :: second) (.binary op left right)
  /-- Comparisons do not chain. -/
  | compare {symbol : Symbol} {op : BinaryOp} {first second : List Token} {left right : Tree} :
      operator? symbol = some (.comparison, op) → Derives .sum first left →
      Derives .sum second right →
      Derives .comparison (first ++ .symbol symbol :: second) (.binary op left right)
  | not {tokens : List Token} {operand : Tree} : Derives .negation tokens operand →
      Derives .negation (.symbol .not :: tokens) (.unary .not operand)
  | negate {tokens : List Token} {operand : Tree} :
      (∀ token, tokens.head? = some token → ¬ IsNumber token) → Derives .signed tokens operand →
      Derives .signed (.symbol .minus :: tokens) (.unary .negate operand)
  | negativeInteger {digits : String} :
      Derives .signedNumber [.symbol .minus, .integer digits] (.integer true digits)
  | negativeFloat {value : Double} :
      Derives .signedNumber [.symbol .minus, .float value] (.float value.neg)
  | field {level : Level} {tokens : List Token} {object : Tree} {name : String} :
      level.TakesSuffix → Derives level tokens object →
      Derives level (tokens ++ [.symbol .dot, .name name]) (.field object name)
  | method {level : Level} {tokens written : List Token} {object : Tree} {name : String}
      {arguments : List (List Token × Tree)} :
      level.TakesSuffix → Derives level tokens object →
      (∀ argument ∈ arguments, Derives .conditional argument.1 argument.2) →
      Separated (arguments.map Prod.fst) written →
      Derives level
        (tokens ++ .symbol .dot :: .name name :: .symbol .leftParen ::
          (written ++ [.symbol .rightParen]))
        (.method object name (arguments.map Prod.snd))
  | integer {digits : String} : Derives .primary [.integer digits] (.integer false digits)
  | float {value : Double} : Derives .primary [.float value] (.float value)
  | text {value : String} : Derives .primary [.text value] (.text value)
  | boolean {value : Bool} : Derives .primary [.boolean value] (.boolean value)
  | reference {name : String} : Derives .primary [.name name] (.reference name)
  | call {name : String} {written : List Token} {arguments : List (List Token × Tree)} :
      (∀ argument ∈ arguments, Derives .conditional argument.1 argument.2) →
      Separated (arguments.map Prod.fst) written →
      Derives .primary
        (.name name :: .symbol .leftParen :: (written ++ [.symbol .rightParen]))
        (.call name (arguments.map Prod.snd))
  | parentheses {tokens : List Token} {tree : Tree} : Derives .conditional tokens tree →
      Derives .primary (.symbol .leftParen :: (tokens ++ [.symbol .rightParen])) tree

end Pipeline.Grammar
