import Pipeline.Proofs.Concatenation

/-! Parsers that may read up to the last token and still read the same in front of more tokens.
Expressions and selectors do so in front of a closing bracket and of a name, sort keys in front of
a closing bracket and of `then`. -/

set_option autoImplicit false

namespace Pipeline

namespace Parse

/-- What the parser reads from the tokens, it reads in front of more of them. -/
def IgnoresFrom {α : Type} (parser : Parse α) (more tokens : List Token) : Prop :=
  ∀ (result : α) (after : Cursor), parser.run ⟨tokens, none⟩ = .ok (result, after) →
    ∃ rest, after = ⟨rest, none⟩ ∧
      parser.run ⟨tokens ++ more, none⟩ = .ok (result, ⟨rest ++ more, none⟩)

def Ignores {α : Type} (parser : Parse α) (more : List Token) : Prop :=
  ∀ tokens, parser.IgnoresFrom more tokens

/-- A closing bracket or a name comes first. -/
inductive Follower : List Token → Prop where
  | bracket (rest : List Token) : Follower (.symbol .rightParen :: rest)
  | name (name : String) (rest : List Token) : Follower (.name name :: rest)

variable {α β : Type} {more tokens : List Token}

theorem Follower.head?_ne (follows : Follower more) {symbol : Symbol}
    (other : symbol ≠ .rightParen) : more.head? ≠ some (.symbol symbol) := by
  intro first
  cases follows with
  | bracket rest =>
      cases first
      exact other rfl
  | name name rest => cases first

/-! ## Ways of building such parsers -/

theorem pure_ignores (value : α) : (pure value : Parse α).Ignores more := by
  intro tokens result after accepted
  cases accepted
  exact ⟨tokens, rfl, rfl⟩

theorem throw_ignores (error : ParseError) : (throw error : Parse α).Ignores more := by
  intro tokens result after accepted
  cases accepted

theorem unexpected_ignores (expected : Expected) :
    (unexpected expected : Parse α).Ignores more := by
  intro tokens result after accepted
  cases accepted

theorem IgnoresFrom.bind {first : Parse α} {next : α → Parse β}
    (ignores : first.IgnoresFrom more tokens) (further : ∀ value, (next value).Ignores more) :
    (first >>= next).IgnoresFrom more tokens := by
  intro result after accepted
  obtain ⟨value, _, ran, accepted⟩ := run_bind_eq_ok.1 accepted
  obtain ⟨middle, rfl, same⟩ := ignores _ _ ran
  obtain ⟨rest, rfl, furtherSame⟩ := further value _ _ _ accepted
  exact ⟨rest, rfl, run_bind_eq_ok.2 ⟨_, _, same, furtherSame⟩⟩

theorem Ignores.bind {first : Parse α} {next : α → Parse β} (ignores : first.Ignores more)
    (further : ∀ value, (next value).Ignores more) : (first >>= next).Ignores more :=
  fun tokens => (ignores tokens).bind further

theorem Ignores.map {parser : Parse α} (ignores : parser.Ignores more) (image : α → β) :
    (image <$> parser).Ignores more := by
  rw [map_eq_pure_bind]
  exact ignores.bind fun value => pure_ignores (image value)

theorem Closes.ignores {parser : Parse α} (closes : parser.Closes) : parser.Ignores more := by
  intro tokens result after accepted
  obtain ⟨rest, rfl, _, same⟩ := closes _ _ _ accepted
  exact ⟨rest, rfl, same more⟩

theorem IgnoresFrom.advance_bind {next : Unit → Parse β} {token : Token}
    (ignores : (next ()).IgnoresFrom more tokens) :
    (advance >>= next).IgnoresFrom more (token :: tokens) := by
  intro result after accepted
  rw [run_advance_cons_bind] at accepted
  rw [List.cons_append, run_advance_cons_bind]
  exact ignores _ _ accepted

theorem expect_ignores (symbol : Symbol) : (expect symbol).Ignores more := by
  intro tokens result after accepted
  obtain ⟨rest, rfl, rfl⟩ := of_run_expect accepted
  refine ⟨rest, rfl, ?_⟩
  rw [List.cons_append, expect, run_atSymbol_cons_bind, if_pos rfl, run_advance]
  rfl

theorem expectName_ignores (expected : Expected) : (expectName expected).Ignores more := by
  intro tokens name after accepted
  obtain ⟨front, reaches⟩ := passes_of_expectName accepted
  obtain ⟨rest, fault⟩ := after
  cases reaches.fault
  subst front
  refine ⟨rest, rfl, ?_⟩
  rw [expectName, run_current_bind]
  rfl

/-- Behind the last token the parser may also see what follows. -/
theorem IgnoresFrom.current_bind {next : Option Token → Parse β}
    (inside : ∀ token rest, (next (some token)).IgnoresFrom more (token :: rest))
    (ended : ∀ result after, (next none).run ⟨[], none⟩ = .ok (result, after) →
      ∃ rest, after = ⟨rest, none⟩ ∧
        (next more.head?).run ⟨more, none⟩ = .ok (result, ⟨rest ++ more, none⟩)) :
    (current >>= next).IgnoresFrom more tokens := by
  cases tokens with
  | nil => exact ended
  | cons token rest => exact inside token rest

theorem IgnoresFrom.atSymbol_bind {symbol : Symbol} {next : Bool → Parse β}
    (found : ∀ rest, (next true).IgnoresFrom more (.symbol symbol :: rest))
    (other : (next false).IgnoresFrom more tokens) (absent : more.head? ≠ some (.symbol symbol)) :
    (atSymbol symbol >>= next).IgnoresFrom more tokens := by
  intro result after accepted
  by_cases first : tokens.head? = some (.symbol symbol)
  · obtain ⟨rest, rfl⟩ := List.head?_eq_some_iff.1 first
    rw [run_atSymbol_cons_bind] at accepted
    rw [List.cons_append, run_atSymbol_cons_bind]
    exact found rest _ _ accepted
  · have firstOfAll : (tokens ++ more).head? ≠ some (.symbol symbol) := by
      cases tokens with
      | nil => exact absent
      | cons token rest => exact first
    rw [run_atSymbol_ne_bind first] at accepted
    rw [run_atSymbol_ne_bind firstOfAll]
    exact other _ _ accepted

theorem IgnoresFrom.atName_bind {name : String} {next : Bool → Parse β}
    (found : ∀ rest, (next true).IgnoresFrom more (.name name :: rest))
    (other : (next false).IgnoresFrom more tokens) (absent : more.head? ≠ some (.name name)) :
    (atName name >>= next).IgnoresFrom more tokens := by
  intro result after accepted
  by_cases first : tokens.head? = some (.name name)
  · obtain ⟨rest, rfl⟩ := List.head?_eq_some_iff.1 first
    rw [run_atName_cons_bind] at accepted
    rw [List.cons_append, run_atName_cons_bind]
    exact found rest _ _ accepted
  · have firstOfAll : (tokens ++ more).head? ≠ some (.name name) := by
      cases tokens with
      | nil => exact absent
      | cons token rest => exact first
    rw [run_atName_ne_bind first] at accepted
    rw [run_atName_ne_bind firstOfAll]
    exact other _ _ accepted

theorem IgnoresFrom.atNameThen_bind {name : String} {token : Token} {next : Bool → Parse β}
    (found : ∀ rest, (next true).IgnoresFrom more (.name name :: token :: rest))
    (other : (next false).IgnoresFrom more tokens) (noName : more.head? ≠ some (.name name))
    (noToken : more.head? ≠ some token) :
    (atNameThen name token >>= next).IgnoresFrom more tokens := by
  intro result after accepted
  rw [run_atNameThen_bind] at accepted ⊢
  match tokens with
  | [] =>
      have unseen : (more.head? == some (.name name)) = false := beq_eq_false_iff_ne.2 noName
      simp only [Cursor.current, List.nil_append, unseen, Bool.false_and]
      exact other _ _ accepted
  | [first] =>
      have unseen : (more.head? == some token) = false := beq_eq_false_iff_ne.2 noToken
      have none : ((Option.none : Option Token) == some token) = false := rfl
      simp only [Cursor.peek, List.tail_cons, List.head?_nil, none, Bool.and_false] at accepted
      simp only [Cursor.peek, List.singleton_append, List.tail_cons, unseen, Bool.and_false]
      exact other _ _ accepted
  | first :: second :: rest =>
      simp only [Cursor.current, Cursor.peek, List.cons_append, List.tail_cons,
        List.head?_cons] at accepted ⊢
      cases seen : (some first == some (.name name) && some second == some token) with
      | false =>
          rw [seen] at accepted
          exact other _ _ accepted
      | true =>
          rw [seen] at accepted
          simp only [Bool.and_eq_true, beq_iff_eq, Option.some.injEq] at seen
          obtain ⟨rfl, rfl⟩ := seen
          exact found rest _ _ accepted

/-- A loop may be bounded by the number of tokens left if a larger bound makes no difference. -/
theorem Ignores.remaining_bind {loop : Nat → Parse β} (ignores : ∀ bound, (loop bound).Ignores more)
    (enough : ∀ (tokens : List Token) (bound : Nat), tokens.length ≤ bound →
      (loop (bound + 1)).run ⟨tokens, none⟩ = (loop bound).run ⟨tokens, none⟩) :
    (remaining >>= loop).Ignores more := by
  intro tokens result after accepted
  rw [run_remaining_bind] at accepted ⊢
  have larger : ∀ extra,
      (loop (tokens.length + extra)).run ⟨tokens, none⟩ = .ok (result, after) := by
    intro extra
    induction extra with
    | zero => exact accepted
    | succ extra ih => exact (enough tokens _ (Nat.le_add_right _ _)).trans ih
  rw [List.length_append]
  exact ignores _ _ _ _ (larger more.length)

end Parse

namespace ExprParsers

open Parse

variable {more tokens : List Token}

/-! ## Expressions -/

/-- All parsers that an expression calls one level deeper read the same in front of more tokens. -/
structure Ignores (inner : ExprParsers) (more : List Token) : Prop where
  expression : inner.expression.Ignores more
  negation : inner.negation.Ignores more
  unary : inner.unary.Ignores more
  orLinks (left : Expr) : (inner.orLinks left).Ignores more
  andLinks (left : Expr) : (inner.andLinks left).Ignores more
  sumLinks (left : Expr) : (inner.sumLinks left).Ignores more
  productLinks (left : Expr) : (inner.productLinks left).Ignores more
  suffixes (expr : Expr) : (inner.suffixes expr).Ignores more

theorem integer_ignoresFrom (negative : Bool) (digits : String) (token : Token)
    (tokens : List Token) : (integer negative digits).IgnoresFrom more (token :: tokens) := by
  unfold integer
  dsimp only
  split
  · exact .advance_bind (pure_ignores _ tokens)
  · exact throw_ignores _ _

/-- Arguments end in their own closing bracket, so nothing behind it matters. -/
theorem Local.arguments_closes {inner : ExprParsers} (innerLocal : inner.Local) :
    inner.arguments.Closes := by
  have list : (remaining >>= fun bound => argumentList inner.expression (bound + 1)).Local :=
    .remaining_bind (fun bound => argumentList_local innerLocal.expression _)
      fun tokens bound long => argumentList_enough innerLocal.expression (Nat.lt_succ_of_le long)
  have closes := Closes.of_local list expect_closes
  rw [bind_assoc] at closes
  exact .of_local (expect_local .leftParen) fun _ => closes

section Levels

variable {inner : ExprParsers} (innerLocal : inner.Local) (ignores : inner.Ignores more)
  (follows : Follower more)

include innerLocal ignores follows

theorem Ignores.primary : inner.primary.Ignores more := by
  intro tokens
  refine .current_bind (fun token rest => ?_) nofun
  split
  · exact integer_ignoresFrom _ _ _ _
  · exact .advance_bind (pure_ignores _ rest)
  · exact .advance_bind (pure_ignores _ rest)
  · exact .advance_bind (pure_ignores _ rest)
  · have called : ∀ name, (do return .call name (← inner.arguments) : Parse Expr).Ignores more :=
      fun name => innerLocal.arguments_closes.ignores.bind fun _ => pure_ignores _
    exact .advance_bind (.atSymbol_bind (fun _ => called _ _) (pure_ignores _ rest)
      (follows.head?_ne (by decide)))
  · have bracketed : (do
        let expr ← inner.expression
        expect .rightParen
        return expr : Parse Expr).Ignores more :=
      ignores.expression.bind fun _ => (expect_ignores .rightParen).bind fun _ => pure_ignores _
    exact .advance_bind (bracketed rest)
  · exact unexpected_ignores _ _

theorem Ignores.suffixesOf (expr : Expr) : (inner.suffixesOf expr).Ignores more := by
  have called (name : String) :
      (do inner.suffixes (.method expr name (← inner.arguments)) : Parse Expr).Ignores more :=
    innerLocal.arguments_closes.ignores.bind fun _ => ignores.suffixes _
  refine fun tokens => .atSymbol_bind (fun rest => ?_) (pure_ignores _ tokens)
    (follows.head?_ne (by decide))
  refine .advance_bind ((expectName_ignores .member rest).bind fun name tokens => ?_)
  exact .atSymbol_bind (fun _ => called name _) (ignores.suffixes _ tokens)
    (follows.head?_ne (by decide))

theorem Ignores.postfixed : inner.postfixed.Ignores more :=
  (ignores.primary innerLocal follows).bind (ignores.suffixesOf innerLocal follows)

theorem Ignores.signed : inner.signed.Ignores more := by
  have suffixed := ignores.suffixesOf innerLocal follows
  have negated : (do return .unary .negate (← inner.unary) : Parse Expr).Ignores more :=
    ignores.unary.bind fun _ => pure_ignores _
  refine fun tokens => .atSymbol_bind (fun rest => ?_)
    (ignores.postfixed innerLocal follows tokens) (follows.head?_ne (by decide))
  refine .advance_bind (.current_bind (fun token rest => ?_) ?_)
  · split
    · exact (integer_ignoresFrom _ _ _ _).bind suffixed
    · exact .advance_bind (suffixed _ rest)
    · exact negated _
  · cases follows with
    | bracket | name => exact negated []

omit innerLocal ignores in
theorem links_ignores {operator? : Symbol → Option BinaryOp}
    (noBracket : operator? .rightParen = none) {operand : Parse Expr}
    {further : Expr → Parse Expr} (operands : operand.Ignores more)
    (furthers : ∀ left, (further left).Ignores more) (left : Expr) :
    (links operator? operand further left).Ignores more := by
  refine fun tokens => .current_bind (fun token rest => ?_) ?_
  · split
    · split
      · exact .advance_bind ((operands rest).bind fun _ => furthers _)
      · exact pure_ignores _ _
    · exact pure_ignores _ _
  · cases follows with
    | bracket rest =>
        simp only [List.head?_cons, noBracket]
        exact pure_ignores left []
    | name => exact pure_ignores left []

theorem Ignores.productLinksOf (left : Expr) : (inner.productLinksOf left).Ignores more :=
  links_ignores follows rfl (ignores.signed innerLocal follows) ignores.productLinks left

theorem Ignores.product : inner.product.Ignores more :=
  (ignores.signed innerLocal follows).bind (ignores.productLinksOf innerLocal follows)

theorem Ignores.sumLinksOf (left : Expr) : (inner.sumLinksOf left).Ignores more :=
  links_ignores follows rfl (ignores.product innerLocal follows) ignores.sumLinks left

theorem Ignores.sum : inner.sum.Ignores more :=
  (ignores.product innerLocal follows).bind (ignores.sumLinksOf innerLocal follows)

theorem Ignores.comparison : inner.comparison.Ignores more :=
  have sums := ignores.sum innerLocal follows
  sums.bind (links_ignores follows rfl sums pure_ignores)

theorem Ignores.negated : inner.negated.Ignores more := by
  refine fun tokens => .atSymbol_bind (fun rest => ?_)
    (ignores.comparison innerLocal follows tokens) (follows.head?_ne (by decide))
  exact .advance_bind ((ignores.negation rest).bind fun _ => pure_ignores _)

theorem Ignores.andLinksOf (left : Expr) : (inner.andLinksOf left).Ignores more :=
  links_ignores follows rfl (ignores.negated innerLocal follows) ignores.andLinks left

theorem Ignores.conjunction : inner.conjunction.Ignores more :=
  (ignores.negated innerLocal follows).bind (ignores.andLinksOf innerLocal follows)

theorem Ignores.orLinksOf (left : Expr) : (inner.orLinksOf left).Ignores more :=
  links_ignores follows rfl (ignores.conjunction innerLocal follows) ignores.orLinks left

theorem Ignores.disjunction : inner.disjunction.Ignores more :=
  (ignores.conjunction innerLocal follows).bind (ignores.orLinksOf innerLocal follows)

theorem Ignores.conditional : inner.conditional.Ignores more := by
  refine (ignores.disjunction innerLocal follows).bind fun condition tokens =>
    .atSymbol_bind (fun rest => ?_) (pure_ignores _ tokens) (follows.head?_ne (by decide))
  exact .advance_bind ((ignores.expression rest).bind fun _ => (expect_ignores .colon).bind
    fun _ => ignores.expression.bind fun _ => pure_ignores _)

theorem Ignores.deeper : inner.deeper.Ignores more where
  expression := ignores.conditional innerLocal follows
  negation := ignores.negated innerLocal follows
  unary := ignores.signed innerLocal follows
  orLinks := ignores.orLinksOf innerLocal follows
  andLinks := ignores.andLinksOf innerLocal follows
  sumLinks := ignores.sumLinksOf innerLocal follows
  productLinks := ignores.productLinksOf innerLocal follows
  suffixes := ignores.suffixesOf innerLocal follows

end Levels

theorem ofBudget_ignores (follows : Follower more) (budget : Nat) :
    (ofBudget budget).Ignores more := by
  induction budget with
  | zero =>
      have deep {α : Type} : (throw .tooDeep : Parse α).Ignores more := throw_ignores _
      exact ⟨deep, deep, deep, fun _ => deep, fun _ => deep, fun _ => deep, fun _ => deep,
        fun _ => deep⟩
  | succ budget ih => exact ih.deeper (ofBudget_local budget) follows

end ExprParsers

namespace Parse

variable {more tokens : List Token}

/-! ## Selectors -/

theorem expression_ignores (follows : Follower more) : expression.Ignores more :=
  (ExprParsers.ofBudget_ignores follows nestingLimit).expression

theorem lambda_ignores (follows : Follower more) : lambda.Ignores more :=
  (expectName_ignores _).bind fun _ => (expect_ignores _).bind fun _ =>
    (expression_ignores follows).bind fun _ => pure_ignores _

/-- A name is a field unless an arrow follows it. -/
theorem run_selector_field {name : String} (noArrow : tokens.head? ≠ some (.symbol .arrow)) :
    selector.run ⟨.name name :: tokens, none⟩ = .ok (.field name, ⟨tokens, none⟩) := by
  rw [selector, run_get_bind]
  simp only [Cursor.current, Cursor.peek, List.head?_cons, List.tail_cons]
  rfl

theorem run_selector_lambda {name : String} {function : Lambda} {after : Cursor}
    (read : lambda.run ⟨.name name :: .symbol .arrow :: tokens, none⟩ = .ok (function, after)) :
    selector.run ⟨.name name :: .symbol .arrow :: tokens, none⟩ = .ok (.lambda function, after) :=
  run_map_eq_ok.2 ⟨function, read, rfl⟩

theorem selector_starts {result : Selector} {after : Cursor}
    (accepted : selector.run ⟨tokens, none⟩ = .ok (result, after)) :
    ∃ name rest, tokens = .name name :: rest := by
  rw [selector, run_get_bind] at accepted
  split at accepted
  · rename_i name named _
    obtain ⟨rest, rfl⟩ := List.head?_eq_some_iff.1 named
    exact ⟨name, rest, rfl⟩
  · rename_i name named _
    obtain ⟨rest, rfl⟩ := List.head?_eq_some_iff.1 named
    exact ⟨name, rest, rfl⟩
  · cases accepted

theorem selector_ignores (follows : Follower more) : selector.Ignores more := by
  intro tokens result after accepted
  obtain ⟨name, rest, rfl⟩ := selector_starts accepted
  by_cases arrow : rest.head? = some (.symbol .arrow)
  · obtain ⟨rest, rfl⟩ := List.head?_eq_some_iff.1 arrow
    exact (lambda_ignores follows).map _ _ _ _ accepted
  · have noArrow : (rest ++ more).head? ≠ some (.symbol .arrow) := by
      cases rest with
      | nil => exact follows.head?_ne (by decide)
      | cons token rest => exact arrow
    rw [run_selector_field arrow] at accepted
    cases accepted
    exact ⟨rest, rfl, run_selector_field noArrow⟩

/-! ## Sort keys -/

/-- What may stand behind a sort key: a closing bracket, or `then`. -/
inductive KeyFollower : List Token → Prop where
  | bracket (rest : List Token) : KeyFollower (.symbol .rightParen :: rest)
  | further (rest : List Token) : KeyFollower (.name "then" :: rest)

theorem KeyFollower.follows (follows : KeyFollower more) : Follower more := by
  cases follows with
  | bracket rest => exact .bracket rest
  | further rest => exact .name "then" rest

theorem KeyFollower.head?_ne (follows : KeyFollower more) {name : String} (other : name ≠ "then") :
    more.head? ≠ some (.name name) := by
  intro first
  cases follows with
  | bracket rest => cases first
  | further rest =>
      cases first
      exact other rfl

theorem run_optionalDirection_word {word : String} {direction : Direction}
    (found : direction? word = some direction) :
    optionalDirection.run ⟨.name word :: tokens, none⟩ = .ok (some direction, ⟨tokens, none⟩) := by
  rw [optionalDirection, run_current_bind]
  simp only [Cursor.current, List.head?_cons, found]
  rfl

theorem run_optionalDirection_other {word : String} (absent : direction? word = none) :
    optionalDirection.run ⟨.name word :: tokens, none⟩ =
      .ok (none, ⟨.name word :: tokens, none⟩) := by
  rw [optionalDirection, run_current_bind]
  simp only [Cursor.current, List.head?_cons, absent]
  rfl

theorem optionalDirection_ignores (follows : KeyFollower more) :
    optionalDirection.Ignores more := by
  refine fun tokens => .current_bind (fun token rest => ?_) ?_
  · split
    · split
      · exact .advance_bind (pure_ignores _ rest)
      · exact pure_ignores _ _
    · exact pure_ignores _ _
  · cases follows with
    | bracket | further => exact pure_ignores none []

theorem run_reversals_reversed (direction : Direction) (bound : Nat) :
    (reversals direction (bound + 1)).run ⟨.symbol .dot :: .name "reversed" :: tokens, none⟩ =
      (do
        expect .leftParen
        expect .rightParen
        reversals direction.reversed bound : Parse Direction).run ⟨tokens, none⟩ :=
  rfl

theorem run_reversals_ended (direction : Direction) (bound : Nat)
    (ended : ∀ rest, tokens ≠ .symbol .dot :: .name "reversed" :: rest) :
    (reversals direction bound).run ⟨tokens, none⟩ = .ok (direction, ⟨tokens, none⟩) := by
  cases bound with
  | zero => rfl
  | succ bound =>
      rw [reversals, run_get_bind, if_neg]
      · rfl
      · intro seen
        simp only [Cursor.current, Cursor.peek, Bool.and_eq_true, beq_iff_eq] at seen
        obtain ⟨behind, rfl⟩ := List.head?_eq_some_iff.1 seen.1
        obtain ⟨rest, rfl⟩ := List.head?_eq_some_iff.1 seen.2
        exact ended rest rfl

theorem reversals_ignores (follows : KeyFollower more) (direction : Direction) (bound : Nat) :
    (reversals direction bound).Ignores more := by
  induction bound generalizing direction with
  | zero => exact pure_ignores _
  | succ bound ih =>
      intro tokens result after accepted
      by_cases reversed : ∃ rest, tokens = .symbol .dot :: .name "reversed" :: rest
      · obtain ⟨rest, rfl⟩ := reversed
        have ignores : (do
            expect .leftParen
            expect .rightParen
            reversals direction.reversed bound : Parse Direction).Ignores more :=
          (expect_ignores _).bind fun _ => (expect_ignores _).bind fun _ => ih _
        rw [run_reversals_reversed] at accepted
        exact ignores _ _ _ accepted
      · have ended := not_exists.1 reversed
        have endedBehind : ∀ rest, tokens ++ more ≠ .symbol .dot :: .name "reversed" :: rest := by
          intro rest same
          match tokens with
          | [] =>
              cases follows with
              | bracket | further => cases same
          | [_] =>
              cases follows with
              | bracket => cases same
              | further => simp at same
          | first :: second :: others =>
              cases same
              exact ended others rfl
        rw [run_reversals_ended direction _ ended] at accepted
        cases accepted
        exact ⟨tokens, rfl, run_reversals_ended direction _ endedBehind⟩

/-- A sort key where neither a factory nor a direction nor `by` is in front. -/
def directedKey : Parse SortKey := do
  let selector ← selector
  let direction ← optionalDirection
  return ⟨selector, direction.getD .ascending⟩

theorem run_directedKey {selected : Selector} {given : Option Direction} {middle after : Cursor}
    (first : selector.run ⟨tokens, none⟩ = .ok (selected, middle))
    (second : optionalDirection.run middle = .ok (given, after)) :
    directedKey.run ⟨tokens, none⟩ = .ok (⟨selected, given.getD .ascending⟩, after) := by
  rw [directedKey, run_bind_ok first, run_bind_ok second]
  rfl

theorem directedKey_ignores (follows : KeyFollower more) : directedKey.Ignores more :=
  (selector_ignores follows.follows).bind fun _ =>
    (optionalDirection_ignores follows).bind fun _ => pure_ignores _

/-- The cursor is at `Comparator` and the dot behind it. -/
theorem factoryKey_ignoresFrom (follows : KeyFollower more) (first second : Token)
    (tokens : List Token) : factoryKey.IgnoresFrom more (first :: second :: tokens) := by
  have reversed (selector : Selector) :
      (do return ⟨selector, ← reversals .ascending (← remaining)⟩ : Parse SortKey).Ignores
        more := by
    refine .remaining_bind (fun bound => ?_) fun tokens bound long => ?_
    · exact (reversals_ignores follows _ _).bind fun _ => pure_ignores _
    · rw [StateT.run_bind, StateT.run_bind, reversals_enough _ long]
  have ended (selector : Selector) : (do
      expect .rightParen
      return ⟨selector, ← reversals .ascending (← remaining)⟩ : Parse SortKey).Ignores more :=
    (expect_ignores _).bind fun _ => reversed selector
  refine .advance_bind (.advance_bind ?_)
  refine (expectName_ignores _).bind (fun factory => (expect_ignores _).bind fun _ => ?_) tokens
  split
  · exact (expect_ignores _).bind fun _ => pure_ignores _
  · dsimp only
    split
    · exact (selector_ignores follows.follows).bind ended
    · split
      · exact (pure_ignores _).bind ended
      · exact (throw_ignores _).bind ended

theorem sortKey_ignores (follows : KeyFollower more) : sortKey.Ignores more := by
  have directed := directedKey_ignores follows
  have noSymbol {symbol : Symbol} (other : symbol ≠ .rightParen) := follows.follows.head?_ne other
  refine fun tokens => .atNameThen_bind ?_ ?_ (follows.head?_ne (by decide)) (noSymbol (by decide))
  · exact fun rest => factoryKey_ignoresFrom follows _ _ rest
  · refine (optionalDirection_ignores follows).bind (fun given tokens => ?_) tokens
    cases given with
    | some direction => exact pure_ignores _ tokens
    | none =>
        refine .atName_bind ?_ ?_ (follows.head?_ne (by decide))
        · intro rest
          exact .atNameThen_bind (fun _ => directed _) (.advance_bind (directed rest))
            (follows.head?_ne (by decide)) (noSymbol (by decide))
        · exact .atNameThen_bind (fun _ => directed _) (directed _)
            (follows.head?_ne (by decide)) (noSymbol (by decide))

end Parse

end Pipeline
