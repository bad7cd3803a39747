import Mathlib.Order.Bounds.Basic
import Pipeline.Proofs.Levels
import Pipeline.Proofs.Reparsing
import Pipeline.Proofs.Spelling

/-! The deepest expressions that scripts have. Around an expression in brackets stand as many
suffixes as the budget allows, and around these as many operators of each level that chains. The
parsers accept all of them together, so the limit on nesting bounds the depth of expressions only
from far above. -/

set_option autoImplicit false

namespace Pipeline

open Grammar

namespace Expr

/-- The expression with a field of a field and so on taken from it. -/
def fields : Nat → Expr → Expr
  | 0, object => object
  | count + 1, object => fields count (.field object "a")

/-- The expression with operators behind it, each with a name on its right. -/
def linked (op : BinaryOp) : Nat → Expr → Expr
  | 0, left => left
  | count + 1, left => linked op count (.binary op left (.reference "a"))

/-- An expression with all that a budget allows around it, again and again. -/
def crowded : Nat → Expr
  | 0 => .reference "a"
  | budget + 1 =>
    linked (.connective .or) (budget + 1) <| linked (.connective .and) (budget + 1) <|
      linked (.arithmetic .add) (budget + 1) <| linked (.arithmetic .multiply) (budget + 1) <|
        fields (budget + 1) (crowded budget)

theorem levels_fields (count : Nat) (object : Expr) :
    (fields count object).levels = object.levels + count := by
  induction count generalizing object with
  | zero => rfl
  | succ count ih =>
      rw [fields, ih, levels]
      omega

theorem levels_linked {op : BinaryOp} (counted : op.isLevel = true) (count : Nat) (left : Expr) :
    (linked op count left).levels = left.levels + count := by
  induction count generalizing left with
  | zero => rfl
  | succ count ih =>
      rw [linked, ih, levels, levels, counted]
      simp only [Nat.max_zero, Bool.toNat_true]
      omega

theorem levels_crowded (budget : Nat) :
    (crowded budget).levels = ExprParsers.mostLevels (budget + 1) := by
  induction budget with
  | zero => rfl
  | succ budget ih =>
      rw [crowded, levels_linked rfl, levels_linked rfl, levels_linked rfl, levels_linked rfl,
        levels_fields, ih]
      simp only [ExprParsers.mostLevels]
      omega

end Expr

/-! ## Their tokens -/

def fieldTokens : Nat → List Token
  | 0 => []
  | count + 1 => .symbol .dot :: .name "a" :: fieldTokens count

def linkTokens (symbol : Symbol) : Nat → List Token
  | 0 => []
  | count + 1 => .symbol symbol :: ([.name "a"] ++ linkTokens symbol count)

def crowdedTokens : Nat → List Token
  | 0 => [.name "a"]
  | budget + 1 =>
    bracketed (crowdedTokens budget) ++ fieldTokens (budget + 1) ++ linkTokens .star (budget + 1) ++
      linkTokens .plus (budget + 1) ++ linkTokens .and (budget + 1) ++ linkTokens .or (budget + 1)

theorem stops_linkTokens {rank : Nat} {symbol : Symbol} (behind : rank < rankBehind symbol)
    (count : Nat) {rest : List Token} (stops : Stops rank rest) :
    Stops rank (linkTokens symbol count ++ rest) := by
  cases count with
  | zero => exact stops
  | succ count => exact stops_symbol behind

theorem spellable_name : (Token.name "a").Spellable := by
  have identifier : IsIdentifier "a" :=
    isIdentifier_of_letters (by decide) (by decide) (by decide)
  exact identifier

theorem spellable_fieldTokens (count : Nat) : Spellable (fieldTokens count) := by
  induction count with
  | zero => exact spellable_nil
  | succ count ih => simp [fieldTokens, spellable_name, ih]

theorem spellable_linkTokens (symbol : Symbol) (count : Nat) :
    Spellable (linkTokens symbol count) := by
  induction count with
  | zero => exact spellable_nil
  | succ count ih => simp [linkTokens, spellable_name, ih]

theorem spellable_crowdedTokens (budget : Nat) : Spellable (crowdedTokens budget) := by
  induction budget with
  | zero => simp [crowdedTokens, spellable_name]
  | succ budget ih =>
      simp only [crowdedTokens, spellable_append, spellable_bracketed]
      exact ⟨⟨⟨⟨⟨ih, spellable_fieldTokens _⟩, spellable_linkTokens _ _⟩,
        spellable_linkTokens _ _⟩, spellable_linkTokens _ _⟩, spellable_linkTokens _ _⟩

/-! ## How they are read -/

namespace ExprParsers

open Parse

variable {tokens : List Token} {need : Nat}

theorem suffixesOf_fieldTokens (count : Nat) {rest : List Token} (stops : Stops 1 rest)
    (object : Expr) (budget : Nat) :
    ((ofBudget budget).suffixesOf object).run ⟨fieldTokens count ++ rest, none⟩ =
      granted count budget (Expr.fields count object) rest := by
  induction count generalizing object budget with
  | zero =>
      rw [granted_zero]
      exact suffixesOf_bare _ _ (stops.head?_ne (by decide))
  | succ count ih =>
      have uncalled : (fieldTokens count ++ rest).head? ≠ some (.symbol .leftParen) := by
        cases count with
        | zero => exact stops.head?_ne (by decide)
        | succ count => simp [fieldTokens]
      rw [suffixesOf, fieldTokens, List.cons_append, run_atSymbol_cons_bind, if_pos rfl,
        run_advance_cons_bind, List.cons_append, run_expectName_cons_bind,
        run_atSymbol_ne_bind uncalled]
      exact granted_deeper (·.suffixes (.field object "a")) (·.suffixesOf (.field object "a")) rfl
        (fun _ => rfl) (ih (.field object "a")) budget

theorem ReadsBack.fields {expr : Expr} (readsBack : ReadsBack .primary tokens expr need)
    (count : Nat) : ReadsBack .signed (tokens ++ fieldTokens count)
      (Expr.fields count expr) (max need count) := by
  obtain ⟨first, others, same, starts⟩ := readsBack.starts
  refine ReadsBack.loosen_all ⟨⟨first, others ++ fieldTokens count, by simp [same], ?_⟩,
    fun budget rest stops => ?_⟩ (.tail .refl .postfixed)
  · exact Level.Includes.primary.startsWith starts
  · have unsigned := readsBack.head?_ne .minus (by simp [Level.StartsWith])
      (fieldTokens count ++ rest)
    have behind : Stops Level.primary.rank (fieldTokens count ++ rest) := by
      cases count with
      | zero => exact stops.mono (by decide)
      | succ count => exact stops_symbol (by decide)
    change (ofBudget budget).signed.run _ = _
    rw [List.append_assoc, signed, run_atSymbol_ne_bind unsigned]
    exact run_bind_granted (readsBack.runs budget _ behind)
      (suffixesOf_fieldTokens count stops expr budget)

theorem linksOfLevel_linkTokens {level operand : Level} {op : BinaryOp} {symbol : Symbol}
    (operator : operator? symbol = some (level, op)) (chains : level.operand? = some operand)
    (count : Nat) {rest : List Token} (stops : Stops level.rank rest) (left : Expr)
    (budget : Nat) :
    ((ofBudget budget).linksOfLevel level left).run ⟨linkTokens symbol count ++ rest, none⟩ =
      granted count budget (Expr.linked op count left) rest := by
  induction count generalizing left budget with
  | zero =>
      rw [granted_zero]
      exact linksOfLevel_unlinked chains stops.unlinked budget left
  | succ count ih =>
      have tighter := Level.operand?_rank chains
      have other : operand ≠ .signedNumber := by
        rintro rfl
        cases level <;> cases chains
      have named : ReadsBack operand [.name "a"] (.reference "a") 0 :=
        (readsBack_name "a").loosen_all (admits_primary other)
      have behind : Stops operand.rank (linkTokens symbol count ++ rest) :=
        stops_linkTokens (by rwa [rankBehind_operator operator]) count
          (stops.mono (Nat.le_of_lt tighter))
      have run := linksOfLevel_goes_on operator chains named behind (ih (.binary op left _)) budget
      rw [Nat.zero_max] at run
      rw [linkTokens, List.cons_append, List.append_assoc]
      exact run

theorem ReadsBack.linked {level operand : Level} {op : BinaryOp} {expr : Expr}
    (readsBack : ReadsBack operand tokens expr need) (symbol : Symbol)
    (operator : operator? symbol = some (level, op)) (chains : level.operand? = some operand)
    (count : Nat) : ReadsBack level (tokens ++ linkTokens symbol count)
      (Expr.linked op count expr) (max need count) := by
  obtain ⟨first, others, same, starts⟩ := readsBack.starts
  have tighter := Level.operand?_rank chains
  refine ⟨⟨first, others ++ linkTokens symbol count, by simp [same], ?_⟩,
    fun budget rest stops => ?_⟩
  · exact (Level.operand?_includes chains).startsWith starts
  · have behind : Stops operand.rank (linkTokens symbol count ++ rest) :=
      stops_linkTokens (by rwa [rankBehind_operator operator]) count
        (stops.mono (Nat.le_of_lt tighter))
    rw [List.append_assoc, ofLevel_eq_bind _ chains]
    exact run_bind_granted (readsBack.runs budget _ behind)
      (linksOfLevel_linkTokens operator chains count stops expr budget)

/-- Whatever is put around an expression takes no more of the budget than its brackets do. -/
theorem readsBack_crowded (budget : Nat) :
    ReadsBack .conditional (crowdedTokens budget) (Expr.crowded budget) budget := by
  induction budget with
  | zero => exact readsBack_reference "a"
  | succ budget ih =>
      have factor := (ih.operand .primary (by decide)).fields (budget + 1)
      have product := factor.linked .star rfl rfl (budget + 1)
      have sum := product.linked .plus rfl rfl (budget + 1)
      have negation := (sum.loosen .sum).loosen .comparison
      have conjunction := negation.linked .and rfl rfl (budget + 1)
      have disjunction := conjunction.linked .or rfl rfl (budget + 1)
      simp only [Nat.max_self] at disjunction
      exact disjunction.loosen .disjunction

end ExprParsers

namespace Parse

open ExprParsers (ReadsBack)

variable {tokens : List Token} {body : Expr} {need : Nat}

theorem selector_arrow (readsBack : ReadsBack .conditional tokens body need) (parameter : String)
    (rest : List Token) :
    selector.run ⟨.name parameter :: .symbol .arrow :: (tokens ++ .symbol .rightParen :: rest),
        none⟩ =
      granted (need + 1) nestingLimit (.lambda ⟨parameter, body⟩)
        (.symbol .rightParen :: rest) := by
  rw [selector, run_get_bind]
  simp only [Cursor.current, Cursor.peek, List.head?_cons, List.tail_cons]
  rw [lambda, bind_assoc, run_expectName_cons_bind, bind_assoc, run_expect_cons_bind, bind_assoc]
  exact run_bind_granted_pure (readsBack.expression (stops_symbol (by decide)) nestingLimit) rfl

/-- A chain of one stage with a lambda, whose body is written in any way that is read as it. -/
theorem wholeChain_map (readsBack : ReadsBack .conditional tokens body need)
    (parameter : String) :
    wholeChain.run ⟨.symbol .dot :: .name "map" ::
        bracketed (.name parameter :: .symbol .arrow :: tokens), none⟩ =
      granted (need + 1) nestingLimit [.map (.lambda ⟨parameter, body⟩)] [] := by
  have mapped : stage.run ⟨.name "map" ::
        bracketed (.name parameter :: .symbol .arrow :: tokens), none⟩ =
      granted (need + 1) nestingLimit (.map (.lambda ⟨parameter, body⟩)) [] := by
    have found : stageArguments? "map" = some (.map <$> selector) := rfl
    rw [stage, run_expectName_cons_bind]
    simp only [found]
    rw [bracketed, List.cons_append, List.cons_append, run_expect_cons_bind]
    refine run_bind_granted_pure (run_map_granted _ (selector_arrow readsBack parameter [])) ?_
    rw [run_expect_cons_bind]
    rfl
  have all : ∀ bound, (stages none (bound + 1)).run ⟨.symbol .dot :: .name "map" ::
        bracketed (.name parameter :: .symbol .arrow :: tokens), none⟩ =
      granted (need + 1) nestingLimit [.map (.lambda ⟨parameter, body⟩)] [] := by
    intro bound
    rw [stages, run_atSymbol_cons_bind, if_pos rfl, run_advance_cons_bind,
      run_atName_ne_bind (by simp), if_neg Bool.false_ne_true]
    refine run_bind_granted_pure mapped ?_
    cases bound <;> rfl
  rw [wholeChain, run_atSymbol_cons_bind, if_pos rfl, run_remaining_bind]
  exact run_bind_granted_pure (all _) rfl

end Parse

/-- Tokens that can be spelled are a script, which denotes what they are read as. -/
theorem Chain.parse_spellAll {tokens : List Token} (spellable : Spellable (.symbol .dot :: tokens))
    {chain : Chain} {after : Cursor}
    (ran : Parse.wholeChain.run ⟨.symbol .dot :: tokens, none⟩ = .ok (chain, after)) :
    Chain.parse (String.ofList (Token.spellAll .exact (.symbol .dot :: tokens))) = .ok chain := by
  have lexes := Scan.lexes_spellAll .exact spellable
  rw [← String.toList_ofList (l := Token.spellAll .exact (.symbol .dot :: tokens))] at lexes
  rw [Chain.parse_of_lexes lexes rfl, ran]
  rfl

theorem Chain.exists_parse_crowded (budget : Nat) (within : budget < nestingLimit) :
    ∃ script, Chain.parse script = .ok [.map (.lambda ⟨"a", Expr.crowded budget⟩)] := by
  have spellable : Spellable (.symbol .dot :: .name "map" ::
      bracketed (.name "a" :: .symbol .arrow :: crowdedTokens budget)) := by
    have map : (Token.name "map").Spellable := spellable_fixedName (by decide)
    simp [map, spellable_name, spellable_crowdedTokens]
  have run := Parse.wholeChain_map (ExprParsers.readsBack_crowded budget) "a"
  rw [Parse.granted, if_pos (Nat.succ_le_of_lt within)] at run
  exact ⟨_, Chain.parse_spellAll spellable run⟩

theorem Expr.readWithin_crowded {budget units : Nat} (within : budget < units) :
    (crowded budget).ReadWithin units := by
  have run := (ExprParsers.readsBack_crowded budget).expression (stops_nil _) units
  rw [Parse.granted, if_pos (Nat.succ_le_of_lt within)] at run
  exact ⟨_, _, run⟩

theorem Expr.exists_path_crowded (budget : Nat) : ∃ path, (crowded budget).Path path ∧
    path.countP isLevel = 5 * (budget + 1).choose 2 := by
  obtain ⟨path, leads, counted⟩ := (crowded budget).exists_path
  rw [levels_crowded, ExprParsers.mostLevels_eq] at counted
  exact ⟨path, leads, counted⟩

/-- Where the parsers take `n` units of the nesting budget for a lambda, there are up to
`5 * (1 + 2 + ... + (n - 1))` operators and suffixes on a path through its body: `10080` of them for
all of the `64` units. -/
theorem Chain.isGreatest_levels {units : Nat} (some : 0 < units) (within : units ≤ nestingLimit) :
    IsGreatest {count | ∃ script chain, Chain.parse script = .ok chain ∧
      ∃ stage ∈ chain, ∃ function, Selector.lambda function ∈ stage.selectors ∧
        function.body.ReadWithin units ∧
          ∃ path, function.body.Path path ∧ path.countP Expr.isLevel = count}
      (5 * units.choose 2) := by
  constructor
  · obtain ⟨budget, rfl⟩ := Nat.exists_eq_succ_of_ne_zero (Nat.ne_of_gt some)
    obtain ⟨script, accepted⟩ := exists_parse_crowded budget within
    exact ⟨script, _, accepted, _, List.mem_singleton_self _, _, List.mem_singleton_self _,
      Expr.readWithin_crowded (Nat.lt_succ_self budget), Expr.exists_path_crowded budget⟩
  · rintro count ⟨script, chain, accepted, stage, member, function, among, read, path, leads, rfl⟩
    exact read.countP_le leads

/-- The limit on nesting is one on the operators and suffixes of a path for the lambdas that take
up to `5` of its `64` units, and for no more: with `6` of them a path may have `75`. -/
theorem Chain.levels_le_nestingLimit_iff (units : Nat) :
    (∀ script chain, Chain.parse script = .ok chain → ∀ stage ∈ chain, ∀ function,
      Selector.lambda function ∈ stage.selectors → function.body.ReadWithin units →
        ∀ path, function.body.Path path → path.countP Expr.isLevel ≤ nestingLimit) ↔
      units ≤ 5 := by
  constructor
  · intro limited
    by_contra more
    obtain ⟨script, accepted⟩ := exists_parse_crowded 5 (by decide)
    obtain ⟨path, leads, counted⟩ := Expr.exists_path_crowded 5
    have deep : path.countP Expr.isLevel ≤ nestingLimit :=
      limited script _ accepted _ (List.mem_singleton_self _) _ (List.mem_singleton_self _)
        (Expr.readWithin_crowded (Nat.lt_of_not_le more)) path leads
    rw [counted] at deep
    exact absurd deep (by decide)
  · intro few script chain accepted stage member function among read path leads
    calc path.countP Expr.isLevel
        ≤ 5 * units.choose 2 := read.countP_le leads
      _ ≤ 5 * Nat.choose 5 2 := Nat.mul_le_mul_left 5 (Nat.choose_le_choose 2 few)
      _ ≤ nestingLimit := by decide

/-- The script is given by its characters, as which the kernel reads it much faster. -/
private theorem deep_of_spelled {script : String}
    (spelled : script.toList = ".map(a -> a".toList ++ (List.replicate 33 ".f".toList).flatten ++
      (List.replicate 32 " + 1".toList).flatten ++ [')']) :
    ((Chain.parse script).toOption.any fun
      | [.map (.lambda function)] => function.body.levels == 65
      | _ => false) = true := by
  simp only [Chain.parse, Cursor.ofScript, Lexed.ofScript, spelled]
  decide +kernel

/-- Behind `33` suffixes the parser has all of the nesting limit again for `32` sums. -/
theorem Chain.nestingLimit_lt_levels :
    let script := String.ofList (".map(a -> a".toList ++ (List.replicate 33 ".f".toList).flatten ++
      (List.replicate 32 " + 1".toList).flatten ++ [')'])
    ∃ chain, Chain.parse script = .ok chain ∧
      ∃ stage ∈ chain, ∃ function, Selector.lambda function ∈ stage.selectors ∧
        ∃ path, function.body.Path path ∧ nestingLimit < path.countP Expr.isLevel := by
  obtain ⟨chain, accepted, deep⟩ := exists_of_any (deep_of_spelled String.toList_ofList)
  split at deep
  · rename_i function
    obtain ⟨path, leads, counted⟩ := function.body.exists_path
    refine ⟨_, accepted, _, List.mem_singleton_self _, function, List.mem_singleton_self _, path,
      leads, ?_⟩
    rw [counted, beq_iff_eq.1 deep]
    decide
  · cases deep

end Pipeline
