import Pipeline.Proofs.Reading

/-! Whatever the grammar derives is read, as long as nothing follows that would go on with
it. So the grammar derives at most one tree from a sequence of tokens. -/

set_option autoImplicit false

namespace Pipeline.Grammar

/-- How tightly a level of precedence binds: the tighter, the smaller. -/
def Level.rank : Level → Nat
  | primary => 0
  | postfixed | signedNumber | signed => 1
  | product => 2
  | sum => 3
  | comparison | negation => 4
  | conjunction => 5
  | disjunction => 6
  | conditional => 7

/-- The rank of the level at which an expression goes on with a symbol. No expression goes
on with one of the last rank. -/
def rankBehind : Symbol → Nat
  | .leftParen => 0
  | .dot => 1
  | .star | .slash | .percent => 2
  | .plus | .minus => 3
  | .equal | .notEqual | .less | .greater | .lessEqual | .greaterEqual => 4
  | .and => 5
  | .or => 6
  | .question => 7
  | .arrow | .not | .rightParen | .comma | .colon => 8

/-- No expression of at most the given rank goes on with the tokens. -/
def Stops (rank : Nat) (tokens : List Token) : Prop :=
  ∀ symbol, tokens.head? = some (.symbol symbol) → rank < rankBehind symbol

theorem Stops.mono {rank tighter : Nat} {tokens : List Token} (stops : Stops rank tokens)
    (at_most : tighter ≤ rank) : Stops tighter tokens :=
  fun symbol first => Nat.lt_of_le_of_lt at_most (stops symbol first)

theorem stops_symbol {rank : Nat} {symbol : Symbol} {tokens : List Token}
    (behind : rank < rankBehind symbol) : Stops rank (.symbol symbol :: tokens) := by
  intro other first
  cases first
  exact behind

theorem stops_nil (rank : Nat) : Stops rank [] :=
  fun _ first => nomatch first

theorem rankBehind_operator {symbol : Symbol} {level : Level} {op : BinaryOp}
    (operator : operator? symbol = some (level, op)) : rankBehind symbol = level.rank := by
  cases symbol <;> cases operator <;> rfl

theorem Level.operand?_rank {outer inner : Level} (operand : outer.operand? = some inner) :
    inner.rank < outer.rank := by
  cases outer <;> cases operand <;> decide

theorem Stops.unlinked {level : Level} {tokens : List Token} (stops : Stops level.rank tokens) :
    Unlinked level tokens := by
  intro symbol op first operator
  have behind := stops symbol first
  rw [rankBehind_operator operator] at behind
  exact Nat.lt_irrefl _ behind

theorem Stops.head?_ne {rank : Nat} {symbol : Symbol} {tokens : List Token}
    (stops : Stops rank tokens) (within : rankBehind symbol ≤ rank) :
    tokens.head? ≠ some (.symbol symbol) :=
  fun first => Nat.not_lt.2 within (stops symbol first)

/-! ## First tokens -/

/-- The token is one that expressions of the level start with. -/
def Level.StartsWith (level : Level) (token : Token) : Prop :=
  ∀ symbol, token = .symbol symbol → symbol = .leftParen ∨
    (symbol = .minus ∧ level ≠ .primary ∧ level ≠ .postfixed) ∨
    (symbol = .not ∧ level.rank ≥ 4 ∧ level ≠ .comparison)

theorem Level.Includes.startsWith {outer inner : Level} (includes : outer.Includes inner)
    {token : Token} (starts : inner.StartsWith token) : outer.StartsWith token := by
  intro symbol same
  rcases starts symbol same with leftParen | ⟨minus, signed⟩ | ⟨not, loose⟩
  · exact .inl leftParen
  · exact .inr (.inl ⟨minus, by cases includes <;> simp_all⟩)
  · exact .inr (.inr ⟨not, by cases includes <;> simp_all [rank]⟩)

theorem Level.startsWith_of_not_symbol {level : Level} {token : Token}
    (other : ∀ symbol, token ≠ .symbol symbol) : level.StartsWith token :=
  fun symbol same => absurd same (other symbol)

theorem Derives.starts {level : Level} {tokens : List Token} {tree : Tree}
    (derives : Derives level tokens tree) :
    ∃ first others, tokens = first :: others ∧ level.StartsWith first := by
  induction derives with
  | tighter includes _ ih =>
      obtain ⟨first, others, same, starts⟩ := ih
      exact ⟨first, others, same, includes.startsWith starts⟩
  | conditional _ _ _ ih _ _ =>
      obtain ⟨first, others, rfl, starts⟩ := ih
      refine ⟨first, _, rfl, fun symbol same => (starts symbol same).imp_right (.imp ?_ ?_)⟩
      · exact fun minus => ⟨minus.1, by decide, by decide⟩
      · exact fun not => ⟨not.1, by decide, by decide⟩
  | join _ _ _ _ ih _ | field _ _ ih | method _ _ _ _ ih _ =>
      obtain ⟨first, others, rfl, starts⟩ := ih
      exact ⟨first, _, rfl, starts⟩
  | compare _ _ _ ih _ =>
      obtain ⟨first, others, rfl, starts⟩ := ih
      exact ⟨first, _, rfl, Level.Includes.sum.startsWith starts⟩
  | not _ _ => exact ⟨_, _, rfl, fun _ same => by cases same; exact .inr (.inr (by decide))⟩
  | negate _ _ _ | negativeInteger | negativeFloat =>
      exact ⟨_, _, rfl, fun _ same => by cases same; exact .inr (.inl (by decide))⟩
  | integer | float | text | boolean | reference | call _ _ _ =>
      exact ⟨_, _, rfl, Level.startsWith_of_not_symbol (by simp)⟩
  | parentheses _ _ => exact ⟨_, _, rfl, fun _ same => by cases same; exact .inl rfl⟩

/-- What an expression starts with is what the tokens start with that it stands in front of. -/
theorem Derives.head?_ne {level : Level} {tokens : List Token} {tree : Tree}
    (derives : Derives level tokens tree) {symbol : Symbol}
    (other : ¬ level.StartsWith (.symbol symbol)) (rest : List Token) :
    (tokens ++ rest).head? ≠ some (.symbol symbol) := by
  obtain ⟨first, others, rfl, starts⟩ := derives.starts
  intro same
  cases same
  exact other starts

/-! ## What is derived is read -/

/-- What the tokens behind an expression of a level make of it before they stop: operators
of its level and suffixes go on with it. -/
inductive Completes (left : Tree) : Level → Tree → List Token → List Token → Prop where
  | links {level inner : Level} {tree : Tree} {tokens rest : List Token} :
      level.operand? = some inner → Stops inner.rank tokens →
      Reads (.links level left) tokens [tree] rest → Completes left level tree tokens rest
  | suffixes {level : Level} {tree : Tree} {tokens rest : List Token} :
      level.TakesSuffix → Stops 0 tokens → Reads (.suffixes left) tokens [tree] rest →
      Completes left level tree tokens rest
  | stop {level : Level} {tokens : List Token} : level.operand? = none →
      ¬ level.TakesSuffix → Stops level.rank tokens → Completes left level left tokens tokens

/-- An expression is complete where nothing goes on with it. -/
theorem Completes.self {left : Tree} {level : Level} {tokens : List Token}
    (stops : Stops level.rank tokens) : Completes left level left tokens tokens := by
  cases operand : level.operand? with
  | some inner =>
      exact .links operand (stops.mono (Nat.le_of_lt (Level.operand?_rank operand)))
        (.unlinked stops.unlinked)
  | none =>
      by_cases takes : level.TakesSuffix
      · have rank : level.rank = 1 := by cases takes <;> rfl
        rw [rank] at stops
        exact .suffixes takes (stops.mono (by decide)) (.bare (stops.head?_ne (by decide)))
      · exact .stop operand takes stops

theorem Completes.eq_of_stop {left tree : Tree} {level : Level} {tokens rest : List Token}
    (completes : Completes left level tree tokens rest) (operand : level.operand? = none)
    (takes : ¬ level.TakesSuffix) : tree = left ∧ rest = tokens ∧ Stops level.rank tokens := by
  cases completes with
  | links other => cases operand.symm.trans other
  | suffixes other => exact absurd other takes
  | stop _ _ stops => exact ⟨rfl, rfl, stops⟩

theorem Completes.suffixes_of_takes {left tree : Tree} {level : Level} {tokens rest : List Token}
    (completes : Completes left level tree tokens rest) (takes : level.TakesSuffix) :
    Stops 0 tokens ∧ Reads (.suffixes left) tokens [tree] rest := by
  cases completes with
  | links operand => cases takes <;> cases operand
  | suffixes _ stops suffixes => exact ⟨stops, suffixes⟩
  | stop _ other => exact absurd takes other

theorem Completes.links_of_operand {left tree : Tree} {level inner : Level}
    {tokens rest : List Token} (completes : Completes left level tree tokens rest)
    (operand : level.operand? = some inner) :
    Stops inner.rank tokens ∧ Reads (.links level left) tokens [tree] rest := by
  cases completes with
  | links same stops links =>
      cases operand.symm.trans same
      exact ⟨stops, links⟩
  | suffixes takes => cases takes <;> cases operand
  | stop other => cases operand.symm.trans other

/-- The task that reads expressions of a level: those that take suffixes are read as signed
ones. -/
def Level.task : Level → Task
  | postfixed | signedNumber => .level signed
  | level => .level level

theorem Level.task_operand {outer inner : Level} (operand : outer.operand? = some inner) :
    inner.task = .level inner := by
  cases outer <;> cases operand <;> rfl

/-- The arguments of a call are read up to the closing bracket, if each of them is. -/
theorem reads_arguments {arguments : List (List Token × Tree)} {written : List Token}
    (separated : Separated (arguments.map Prod.fst) written)
    (derived : ∀ argument ∈ arguments, Derives .conditional argument.1 argument.2)
    (read : ∀ argument ∈ arguments, ∀ rest, Stops Level.conditional.rank rest →
      Reads (.level .conditional) (argument.1 ++ rest) [argument.2] rest)
    (rest : List Token) :
    Reads .arguments (written ++ .symbol .rightParen :: rest) (arguments.map Prod.snd)
      (.symbol .rightParen :: rest) := by
  generalize spans : arguments.map Prod.fst = first at separated
  induction separated generalizing arguments with
  | none =>
      cases List.map_eq_nil_iff.1 spans
      exact .none
  | last =>
      obtain ⟨argument, rfl, rfl⟩ := List.map_eq_singleton_iff.1 spans
      rw [List.forall_mem_singleton] at derived read
      exact .last (derived.head?_ne (by simp [Level.StartsWith]) _)
        (read _ (stops_symbol (by decide)))
  | @more _ others _ _ ih =>
      obtain ⟨argument, arguments, rfl, rfl, behind⟩ := List.map_eq_cons_iff.1 spans
      rw [List.forall_mem_cons] at derived read
      rw [List.append_assoc]
      exact .more (derived.1.head?_ne (by simp [Level.StartsWith]) _)
        (read.1 _ (stops_symbol (by decide))) (ih derived.2 read.2 behind)

/-- An expression is read together with what goes on with it. -/
theorem Derives.reads {level : Level} {tokens : List Token} {left : Tree}
    (derives : Derives level tokens left) {tree : Tree} {middle rest : List Token}
    (completes : Completes left level tree middle rest) :
    Reads level.task (tokens ++ middle) [tree] rest := by
  induction derives generalizing tree middle rest with
  | tighter includes derives ih =>
      cases includes with
      | disjunction =>
          obtain ⟨rfl, rfl, stops⟩ := completes.eq_of_stop rfl nofun
          exact .condition (ih (.self (stops.mono (by decide)))) (stops.head?_ne (by decide))
      | comparison =>
          obtain ⟨rfl, rfl, stops⟩ := completes.eq_of_stop rfl nofun
          exact .affirmed (derives.head?_ne (by simp [Level.StartsWith]) _) (ih (.self stops))
      | sum =>
          obtain ⟨rfl, rfl, stops⟩ := completes.eq_of_stop rfl nofun
          exact .uncompared (ih (.self (stops.mono (by decide)))) stops.unlinked
      | signedNumber | postfixed =>
          obtain ⟨rfl, rfl, stops⟩ := completes.eq_of_stop rfl nofun
          exact ih (.self stops)
      | primary =>
          obtain ⟨stops, suffixes⟩ := completes.suffixes_of_takes .postfixed
          exact .unsigned (derives.head?_ne (by simp [Level.StartsWith]) _)
            (ih (.self stops)) suffixes
      | conjunction | negation | product | signed =>
          obtain ⟨stops, links⟩ := completes.links_of_operand rfl
          exact .chain rfl (ih (.self stops)) links
  | conditional _ _ _ conditionIH thenIH elseIH =>
      obtain ⟨rfl, rfl, stops⟩ := completes.eq_of_stop rfl nofun
      rw [List.append_assoc, List.cons_append, List.append_assoc, List.cons_append]
      exact Reads.conditional (conditionIH (.self (stops_symbol (by decide))))
        (thenIH (.self (stops_symbol (by decide)))) (elseIH (.self stops))
  | join operator operand _ _ leftIH rightIH =>
      obtain ⟨stops, links⟩ := completes.links_of_operand operand
      have right := rightIH (.self stops)
      rw [Level.task_operand operand] at right
      rw [List.append_assoc]
      refine leftIH (.links operand (stops_symbol ?_) (.link operator operand right links))
      rw [rankBehind_operator operator]
      exact Level.operand?_rank operand
  | compare operator _ _ leftIH rightIH =>
      obtain ⟨rfl, rfl, stops⟩ := completes.eq_of_stop rfl nofun
      rw [List.append_assoc, List.cons_append]
      refine Reads.compare operator (leftIH (.self (stops_symbol ?_)))
        (rightIH (.self (stops.mono (by decide))))
      rw [rankBehind_operator operator]
      decide
  | not _ ih =>
      obtain ⟨rfl, rfl, stops⟩ := completes.eq_of_stop rfl nofun
      exact Reads.not (ih (.self stops))
  | negate other derives ih =>
      obtain ⟨rfl, rfl, stops⟩ := completes.eq_of_stop rfl nofun
      refine Reads.negate (fun token first => other token ?_) (ih (.self stops))
      obtain ⟨head, others, rfl, _⟩ := derives.starts
      exact first
  | negativeInteger =>
      obtain ⟨_, suffixes⟩ := completes.suffixes_of_takes .signedNumber
      exact Reads.negativeInteger suffixes
  | negativeFloat =>
      obtain ⟨_, suffixes⟩ := completes.suffixes_of_takes .signedNumber
      exact Reads.negativeFloat suffixes
  | field takes _ ih =>
      obtain ⟨stops, suffixes⟩ := completes.suffixes_of_takes takes
      rw [List.append_assoc]
      exact ih (.suffixes takes (stops_symbol (by decide))
        (.field (stops.head?_ne (by decide)) suffixes))
  | method takes _ derived separated ih argumentsIH =>
      obtain ⟨_, suffixes⟩ := completes.suffixes_of_takes takes
      have arguments := reads_arguments separated derived
        (fun argument member rest stops => argumentsIH argument member (.self stops)) middle
      refine List.append_assoc _ _ _ ▸ ih (.suffixes takes (stops_symbol (by decide)) ?_)
      simpa using Reads.method arguments suffixes
  | integer =>
      obtain ⟨rfl, rfl, stops⟩ := completes.eq_of_stop rfl nofun
      exact Reads.integer
  | float =>
      obtain ⟨rfl, rfl, stops⟩ := completes.eq_of_stop rfl nofun
      exact Reads.float
  | text =>
      obtain ⟨rfl, rfl, stops⟩ := completes.eq_of_stop rfl nofun
      exact Reads.text
  | boolean =>
      obtain ⟨rfl, rfl, stops⟩ := completes.eq_of_stop rfl nofun
      exact Reads.boolean
  | reference =>
      obtain ⟨rfl, rfl, stops⟩ := completes.eq_of_stop rfl nofun
      exact Reads.reference (stops.head?_ne (by decide))
  | call derived separated ih =>
      obtain ⟨rfl, rfl, _⟩ := completes.eq_of_stop rfl nofun
      have arguments := reads_arguments separated derived
        (fun argument member rest stops => ih argument member (.self stops)) rest
      simpa [Level.task] using Reads.call arguments
  | parentheses _ ih =>
      obtain ⟨rfl, rfl, stops⟩ := completes.eq_of_stop rfl nofun
      rw [List.cons_append, List.append_assoc]
      exact Reads.parentheses (ih (.self (stops_symbol (by decide))))

/-- A sequence of tokens derives an expression exactly if it is read to its end. -/
theorem derives_iff_reads {tokens : List Token} {tree : Tree} :
    Derives .conditional tokens tree ↔ Reads (.level .conditional) tokens [tree] [] := by
  constructor
  · intro derives
    simpa [Level.task] using derives.reads (.self (stops_nil _))
  · intro reads
    obtain ⟨taken, rfl, derives⟩ := reads.means
    rw [List.append_nil]
    exact derives

/-- The grammar is unambiguous. -/
theorem Derives.unique {tokens : List Token} {tree other : Tree}
    (first : Derives .conditional tokens tree) (second : Derives .conditional tokens other) :
    tree = other :=
  List.singleton_inj.1 ((derives_iff_reads.1 first).unique (derives_iff_reads.1 second)).1

end Pipeline.Grammar
