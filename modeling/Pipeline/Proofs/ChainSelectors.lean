import Pipeline.Proofs.Mention
import Pipeline.Proofs.ParserSoundness
import Pipeline.Script.ChainParser

/-! Every selector of a chain is written among the tokens of its script, so these cite every name
that the chain mentions. -/

set_option autoImplicit false

namespace Pipeline

open Grammar

namespace Grammar

/-- A selector is written among the tokens, and not directly behind a number. The element itself
is written as nothing. -/
inductive Writes : List Token → Selector → Prop where
  | identity {tokens : List Token} : Writes tokens .identity
  | field {name : String} {rest : List Token} : Writes (.name name :: rest) (.field name)
  | lambda {parameter : String} {taken rest : List Token} {tree : Tree} {body : Expr} :
      Derives .conditional taken tree → tree.expr? = some body →
      Writes (.name parameter :: .symbol .arrow :: (taken ++ rest)) (.lambda ⟨parameter, body⟩)
  | behind {second : List Token} {selector : Selector} {token : Token} :
      Writes second selector → ¬ IsNumber token → (first : List Token) →
      Writes (first ++ token :: second) selector

theorem Writes.cites {tokens : List Token} {selector : Selector} (written : Writes tokens selector)
    {name : String} (mentioned : name ∈ selector.names) : Cites tokens name := by
  induction written with
  | identity => cases mentioned
  | field =>
      cases List.mem_singleton.1 mentioned
      exact .head _ _
  | @lambda parameter taken rest tree body derives fits =>
      cases mentioned with
      | head => exact .head _ _
      | tail _ inBody =>
          exact ((derives.cites fits inBody).append rest).behind_symbol .arrow [.name parameter]
  | behind _ noNumber first ih => exact (ih mentioned).behind noNumber first

end Grammar

/-- The second cursor is further on in the tokens, without coming upon a fault. -/
structure Cursor.Leads (cursor after : Cursor) : Prop where
  reaches : cursor.Reaches after
  suffix : after.tokens <:+ cursor.tokens

namespace Cursor

variable {cursor middle after : Cursor}

theorem Leads.refl (cursor : Cursor) : cursor.Leads cursor :=
  ⟨.refl _, List.suffix_refl _⟩

theorem Leads.trans (first : cursor.Leads middle) (second : middle.Leads after) :
    cursor.Leads after :=
  ⟨first.reaches.trans second.reaches, second.suffix.trans first.suffix⟩

theorem Passes.leads {token : Token} (passes : cursor.Passes token after) :
    cursor.Leads after :=
  ⟨passes.2, passes.1 ▸ List.suffix_cons _ _⟩

/-- What is written behind a token that is no number is written in front of it. -/
theorem Leads.writes_behind {token : Token} (leads : cursor.Leads middle)
    (passes : middle.Passes token after) (noNumber : ¬ IsNumber token) {selector : Selector}
    (written : Writes after.tokens selector) : Writes cursor.tokens selector := by
  obtain ⟨taken, all⟩ := leads.suffix
  rw [← all, passes.1]
  exact written.behind noNumber taken

end Cursor

/-- Where the parser succeeds, the selectors in its result are written among the tokens. -/
def Parse.Writes {α : Type} (parser : Parse α) (selectors : α → List Selector) : Prop :=
  ∀ (cursor after : Cursor) (result : α), parser.run cursor = .ok (result, after) →
    cursor.Leads after ∧ ∀ selector ∈ selectors result, Grammar.Writes cursor.tokens selector

namespace Parse

variable {α β : Type} {cursor after : Cursor}

theorem leads_of_run_advance {result : Unit} (passed : advance.run cursor = .ok (result, after)) :
    cursor.Leads after := by
  rw [run_advance, map_eq_ok] at passed
  obtain ⟨_, advanced, same⟩ := passed
  cases same
  obtain ⟨reaches, tail⟩ := Cursor.advance_reaches advanced
  exact ⟨reaches, tail ▸ List.tail_suffix _⟩

theorem pure_writes {value : α} {selectors : α → List Selector} (none : selectors value = []) :
    (pure value : Parse α).Writes selectors := by
  intro cursor after result accepted
  cases accepted
  exact ⟨.refl _, by simp [none]⟩

theorem throw_writes (error : ParseError) (selectors : α → List Selector) :
    (throw error : Parse α).Writes selectors := by
  intro cursor after result accepted
  cases accepted

theorem Writes.map {parser : Parse α} {selectors : α → List Selector}
    (writes : parser.Writes selectors) {image : α → β} {imageSelectors : β → List Selector}
    (fewer : ∀ value, imageSelectors (image value) ⊆ selectors value) :
    (image <$> parser).Writes imageSelectors := by
  intro cursor after result accepted
  obtain ⟨value, first, rfl⟩ := run_map_eq_ok.1 accepted
  obtain ⟨leads, written⟩ := writes _ _ _ first
  exact ⟨leads, fun selector member => written selector (fewer value member)⟩

/-- A parser between brackets. -/
theorem Writes.between {parser : Parse α} {selectors : α → List Selector}
    (writes : parser.Writes selectors) {middle inside : Cursor} {value : α} {opened closed : Unit}
    (left : (expect .leftParen).run cursor = .ok (opened, middle))
    (accepted : parser.run middle = .ok (value, inside))
    (right : (expect .rightParen).run inside = .ok (closed, after)) :
    cursor.Leads after ∧ ∀ start : Cursor, start.Leads cursor →
      ∀ selector ∈ selectors value, Grammar.Writes start.tokens selector := by
  have opens := passes_of_expect left
  obtain ⟨leads, written⟩ := writes _ _ _ accepted
  refine ⟨(opens.leads.trans leads).trans (passes_of_expect right).leads, ?_⟩
  intro start before selector member
  exact before.writes_behind opens (not_isNumber_symbol _) (written selector member)

theorem lambda_writes : lambda.Writes fun function => [.lambda function] := by
  intro cursor after result accepted
  obtain ⟨parameter, named, spelled, accepted⟩ := run_bind_eq_ok.1 accepted
  have names := passes_of_expectName spelled
  obtain ⟨_, bound, arrow, accepted⟩ := run_bind_eq_ok.1 accepted
  have binds := passes_of_expect arrow
  obtain ⟨body, _, accepted, same⟩ := run_bind_eq_ok.1 accepted
  cases same
  obtain ⟨reaches, tree, fits, reads⟩ := expression_readsAs _ _ _ accepted
  obtain ⟨taken, all, derives⟩ := reads.means
  refine ⟨(names.leads.trans binds.leads).trans ⟨reaches, taken, all.symm⟩, ?_⟩
  intro selector member
  cases List.mem_singleton.1 member
  rw [names.1, binds.1, all]
  exact .lambda derives fits

theorem selector_writes : selector.Writes fun selector => [selector] := by
  intro cursor after result accepted
  rw [selector, run_get_bind] at accepted
  split at accepted
  · obtain ⟨function, _, accepted, same⟩ := run_bind_eq_ok.1 accepted
    cases same
    exact lambda_writes _ _ _ accepted
  · rename_i field _ current _
    obtain ⟨_, _, advanced, same⟩ := run_bind_eq_ok.1 accepted
    cases same
    have passes := passes_of_run_advance current advanced
    refine ⟨passes.leads, fun selector member => ?_⟩
    cases List.mem_singleton.1 member
    rw [passes.1]
    exact .field
  · cases accepted

theorem optionalSelector_writes : optionalSelector.Writes fun selector => [selector] := by
  intro cursor after result accepted
  rw [optionalSelector, run_atSymbol_bind] at accepted
  split at accepted
  · cases accepted
    exact ⟨.refl _, List.forall_mem_singleton.2 .identity⟩
  · exact selector_writes _ _ _ accepted

theorem leads_of_optionalDirection {result : Option Direction}
    (accepted : optionalDirection.run cursor = .ok (result, after)) :
    cursor.Leads after ∧ (result = none → after = cursor) := by
  rw [optionalDirection, run_current_bind] at accepted
  split at accepted
  · split at accepted
    · obtain ⟨_, _, advanced, same⟩ := run_bind_eq_ok.1 accepted
      cases same
      exact ⟨leads_of_run_advance advanced, by simp⟩
    · cases accepted
      exact ⟨.refl _, fun _ => rfl⟩
  · cases accepted
    exact ⟨.refl _, fun _ => rfl⟩

theorem reversals_writes (direction : Direction) (bound : Nat) :
    (reversals direction bound).Writes fun _ => [] := by
  induction bound generalizing direction with
  | zero => exact pure_writes rfl
  | succ bound ih =>
      intro cursor after result accepted
      rw [reversals, run_get_bind] at accepted
      split at accepted
      · obtain ⟨_, _, dot, accepted⟩ := run_bind_eq_ok.1 accepted
        obtain ⟨_, _, reversed, accepted⟩ := run_bind_eq_ok.1 accepted
        obtain ⟨_, _, opened, accepted⟩ := run_bind_eq_ok.1 accepted
        obtain ⟨_, _, closed, accepted⟩ := run_bind_eq_ok.1 accepted
        have named := (leads_of_run_advance dot).trans (leads_of_run_advance reversed)
        have passed := (passes_of_expect opened).leads.trans (passes_of_expect closed).leads
        exact ⟨(named.trans passed).trans (ih _ _ _ _ accepted).1, by simp⟩
      · cases accepted
        exact ⟨.refl _, by simp⟩

/-- The end of a sort key, from the closing bracket on. -/
theorem ending_of_factoryKey {selector : Selector} {result : SortKey}
    (accepted : StateT.run (do
      expect .rightParen
      return ⟨selector, ← reversals .ascending (← remaining)⟩ : Parse SortKey) cursor =
        .ok (result, after)) :
    ∃ closed, (expect .rightParen).run cursor = .ok ((), closed) ∧ closed.Leads after ∧
      result.selector = selector := by
  obtain ⟨_, closed, right, accepted⟩ := run_bind_eq_ok.1 accepted
  rw [run_remaining_bind] at accepted
  obtain ⟨direction, _, reversed, same⟩ := run_bind_eq_ok.1 accepted
  cases same
  exact ⟨closed, right, (reversals_writes _ _ _ _ _ reversed).1, rfl⟩

theorem factoryKey_writes : factoryKey.Writes fun key => [key.selector] := by
  intro cursor after result accepted
  obtain ⟨_, _, comparator, accepted⟩ := run_bind_eq_ok.1 accepted
  obtain ⟨_, _, dot, accepted⟩ := run_bind_eq_ok.1 accepted
  obtain ⟨factory, _, spelled, accepted⟩ := run_bind_eq_ok.1 accepted
  obtain ⟨_, _, opened, accepted⟩ := run_bind_eq_ok.1 accepted
  have named := ((leads_of_run_advance comparator).trans (leads_of_run_advance dot)).trans
    (passes_of_expectName spelled).leads
  split at accepted
  · obtain ⟨_, _, closed, same⟩ := run_bind_eq_ok.1 accepted
    cases same
    have passed := (passes_of_expect opened).leads.trans (passes_of_expect closed).leads
    exact ⟨named.trans passed, List.forall_mem_singleton.2 .identity⟩
  · dsimp only at accepted
    split at accepted
    · obtain ⟨selected, _, first, accepted⟩ := run_bind_eq_ok.1 accepted
      obtain ⟨_, closed, further, rfl⟩ := ending_of_factoryKey accepted
      obtain ⟨passed, written⟩ := selector_writes.between opened first closed
      exact ⟨(named.trans passed).trans further, written _ named⟩
    · split at accepted
      · obtain ⟨_, closed, further, natural⟩ := ending_of_factoryKey accepted
        have passed := (passes_of_expect opened).leads.trans (passes_of_expect closed).leads
        refine ⟨(named.trans passed).trans further, List.forall_mem_singleton.2 ?_⟩
        exact natural ▸ .identity
      · cases accepted

/-- A selector and the direction behind it, where the sort key starts. -/
theorem directedKey_writes :
    (do
      let selector ← selector
      let direction ← optionalDirection
      return ⟨selector, direction.getD .ascending⟩ : Parse SortKey).Writes
        fun key => [key.selector] := by
  intro cursor after result accepted
  obtain ⟨selected, _, first, accepted⟩ := run_bind_eq_ok.1 accepted
  obtain ⟨direction, _, given, same⟩ := run_bind_eq_ok.1 accepted
  cases same
  obtain ⟨leads, written⟩ := selector_writes _ _ _ first
  exact ⟨leads.trans (leads_of_optionalDirection given).1, written⟩

theorem sortKey_writes : sortKey.Writes fun key => [key.selector] := by
  intro cursor after result accepted
  rw [sortKey, run_atNameThen_bind] at accepted
  split at accepted
  · exact factoryKey_writes _ _ _ accepted
  · obtain ⟨direction, middle, given, accepted⟩ := run_bind_eq_ok.1 accepted
    obtain ⟨leads, still⟩ := leads_of_optionalDirection given
    cases direction with
    | some direction =>
        cases accepted
        exact ⟨leads, List.forall_mem_singleton.2 .identity⟩
    | none =>
        cases still rfl
        dsimp only at accepted
        rw [run_atName_bind, run_atNameThen_bind] at accepted
        split at accepted
        · rename_i atBy
          obtain ⟨_, _, advanced, accepted⟩ := run_bind_eq_ok.1 accepted
          have current : cursor.current = some (.name "by") :=
            beq_iff_eq.1 ((Bool.and_eq_true _ _).mp atBy).1
          have passes := passes_of_run_advance current advanced
          obtain ⟨leads, written⟩ := directedKey_writes _ _ _ accepted
          refine ⟨passes.leads.trans leads, fun selector member => ?_⟩
          exact (Cursor.Leads.refl _).writes_behind passes (not_isNumber_name _)
            (written selector member)
        · exact directedKey_writes _ _ _ accepted

/-- Each further key is written behind the word in front of it. -/
theorem furtherKeys_writes {bound : Nat} {start : Cursor} {keys : List SortKey}
    (leads : start.Leads cursor)
    (accepted : (furtherKeys bound).run cursor = .ok (keys, after)) :
    start.Leads after ∧ ∀ key ∈ keys, Grammar.Writes start.tokens key.selector := by
  induction bound generalizing cursor keys with
  | zero =>
      cases accepted
      exact ⟨leads, by simp⟩
  | succ bound ih =>
      rw [furtherKeys, run_atName_bind] at accepted
      split at accepted
      · rename_i atThen
        obtain ⟨_, _, advanced, accepted⟩ := run_bind_eq_ok.1 accepted
        have passes := passes_of_run_advance (beq_iff_eq.1 atThen) advanced
        obtain ⟨key, _, first, accepted⟩ := run_bind_eq_ok.1 accepted
        obtain ⟨others, _, rest, same⟩ := run_bind_eq_ok.1 accepted
        cases same
        obtain ⟨further, written⟩ := sortKey_writes _ _ _ first
        obtain ⟨reached, writtenOthers⟩ := ih ((leads.trans passes.leads).trans further) rest
        refine ⟨reached, List.forall_mem_cons.2 ⟨?_, writtenOthers⟩⟩
        exact leads.writes_behind passes (not_isNumber_name _) (written _ (.head _))
      · cases accepted
        exact ⟨leads, by simp⟩

theorem comparator_writes : comparator.Writes (·.keys.map SortKey.selector) := by
  intro cursor after result accepted
  obtain ⟨key, _, first, accepted⟩ := run_bind_eq_ok.1 accepted
  rw [run_remaining_bind] at accepted
  obtain ⟨keys, _, rest, same⟩ := run_bind_eq_ok.1 accepted
  cases same
  obtain ⟨leads, written⟩ := sortKey_writes _ _ _ first
  obtain ⟨further, writtenOthers⟩ := furtherKeys_writes leads rest
  refine ⟨further, List.forall_mem_cons.2 ⟨written _ (.head _), ?_⟩⟩
  exact List.forall_mem_map.2 writtenOthers

/-- Where no comparator is given, the natural one is not written. -/
theorem optionalComparator_writes :
    optionalComparator.Writes fun given => (given.getD .natural).keys.map SortKey.selector := by
  intro cursor after result accepted
  rw [optionalComparator, run_atSymbol_bind] at accepted
  split at accepted
  · cases accepted
    exact ⟨.refl _, List.forall_mem_singleton.2 .identity⟩
  · obtain ⟨given, _, accepted, same⟩ := run_bind_eq_ok.1 accepted
    cases same
    exact comparator_writes _ _ _ accepted

theorem count_writes (stage : CountedStage) : (count stage).Writes fun _ => [] := by
  intro cursor after result accepted
  rw [count, run_current_bind] at accepted
  split at accepted
  · dsimp only at accepted
    split at accepted
    · obtain ⟨_, _, advanced, same⟩ := run_bind_eq_ok.1 accepted
      cases same
      exact ⟨leads_of_run_advance advanced, by simp⟩
    · cases accepted
  · cases accepted

theorem optionalText_writes : optionalText.Writes fun _ => [] := by
  intro cursor after result accepted
  rw [optionalText, run_current_bind] at accepted
  split at accepted
  · obtain ⟨_, _, advanced, same⟩ := run_bind_eq_ok.1 accepted
    cases same
    exact ⟨leads_of_run_advance advanced, by simp⟩
  · cases accepted
    exact ⟨.refl _, by simp⟩

theorem aggregatorArguments_writes (name : String) :
    (aggregatorArguments name).Writes fun aggregator => (Stage.collect aggregator).selectors := by
  unfold aggregatorArguments
  split
  · exact pure_writes rfl
  · exact pure_writes rfl
  · exact pure_writes rfl
  · exact optionalText_writes.map fun _ => List.Subset.refl _
  · exact selector_writes.map fun _ => List.Subset.refl _
  · exact throw_writes _ _

/-- The name of an aggregator and its arguments, as far behind a cursor as they are. -/
theorem namedAggregator_writes {start : Cursor} {result : Aggregator} (leads : start.Leads cursor)
    (accepted : StateT.run (do
      let name ← expectName .aggregator
      expect .leftParen
      let aggregator ← aggregatorArguments name
      expect .rightParen
      return aggregator : Parse Aggregator) cursor = .ok (result, after)) :
    start.Leads after ∧
      ∀ selector ∈ (Stage.collect result).selectors, Grammar.Writes start.tokens selector := by
  obtain ⟨name, _, spelled, accepted⟩ := run_bind_eq_ok.1 accepted
  obtain ⟨_, _, opened, accepted⟩ := run_bind_eq_ok.1 accepted
  obtain ⟨aggregator, _, first, accepted⟩ := run_bind_eq_ok.1 accepted
  obtain ⟨_, _, closed, same⟩ := run_bind_eq_ok.1 accepted
  cases same
  have named := leads.trans (passes_of_expectName spelled).leads
  obtain ⟨passed, written⟩ := (aggregatorArguments_writes name).between opened first closed
  exact ⟨named.trans passed, written _ named⟩

theorem aggregator_writes :
    aggregator.Writes fun aggregator => (Stage.collect aggregator).selectors := by
  intro cursor after result accepted
  rw [aggregator, run_atNameThen_bind] at accepted
  dsimp only at accepted
  split at accepted
  · obtain ⟨_, _, collectors, accepted⟩ := run_bind_eq_ok.1 accepted
    obtain ⟨_, _, dot, accepted⟩ := run_bind_eq_ok.1 accepted
    have leads := (leads_of_run_advance collectors).trans (leads_of_run_advance dot)
    exact namedAggregator_writes leads accepted
  · exact namedAggregator_writes (.refl _) accepted

theorem stageArguments_writes {name : String} {arguments : Parse Stage}
    (found : stageArguments? name = some arguments) : arguments.Writes Stage.selectors := by
  have sorted : ∀ given : Option Comparator, (Stage.sorted given).selectors ⊆
      (given.getD .natural).keys.map SortKey.selector := by
    intro given
    cases given with
    | none => exact List.nil_subset _
    | some comparator => exact List.Subset.refl _
  unfold stageArguments? at found
  split at found <;> cases found
  · exact selector_writes.map fun _ => List.Subset.refl _
  · exact selector_writes.map fun _ => List.Subset.refl _
  · exact lambda_writes.map fun _ => List.Subset.refl _
  · exact optionalComparator_writes.map sorted
  · exact optionalComparator_writes.map sorted
  · exact pure_writes rfl
  · exact optionalComparator_writes.map fun _ => List.Subset.refl _
  · exact optionalComparator_writes.map fun _ => List.Subset.refl _
  · exact optionalComparator_writes.map fun _ => List.Subset.refl _
  · exact optionalComparator_writes.map fun _ => List.Subset.refl _
  · exact optionalSelector_writes.map fun _ => List.Subset.refl _
  · exact optionalSelector_writes.map fun _ => List.Subset.refl _
  · exact selector_writes.map fun _ => List.Subset.refl _
  · exact selector_writes.map fun _ => List.Subset.refl _
  · exact aggregator_writes.map fun _ => List.Subset.refl _
  · exact pure_writes rfl
  · exact pure_writes rfl
  · exact (count_writes .limit).map fun _ => List.Subset.refl _
  · exact (count_writes .skip).map fun _ => List.Subset.refl _

theorem stage_writes : stage.Writes Stage.selectors := by
  intro cursor after result accepted
  obtain ⟨name, _, spelled, accepted⟩ := run_bind_eq_ok.1 accepted
  have named := (passes_of_expectName spelled).leads
  split at accepted
  · cases accepted
  · rename_i arguments found
    obtain ⟨_, _, opened, accepted⟩ := run_bind_eq_ok.1 accepted
    obtain ⟨stage, _, first, accepted⟩ := run_bind_eq_ok.1 accepted
    obtain ⟨_, _, closed, same⟩ := run_bind_eq_ok.1 accepted
    cases same
    obtain ⟨passed, written⟩ := (stageArguments_writes found).between opened first closed
    exact ⟨named.trans passed, written _ named⟩

theorem leads_of_orElseThrow {previous : Option Stage} {result : Unit}
    (accepted : (orElseThrow previous).run cursor = .ok (result, after)) :
    cursor.Leads after := by
  obtain ⟨_, _, named, accepted⟩ := run_bind_eq_ok.1 accepted
  obtain ⟨_, _, opened, accepted⟩ := run_bind_eq_ok.1 accepted
  obtain ⟨_, _, closed, accepted⟩ := run_bind_eq_ok.1 accepted
  split at accepted
  · cases accepted
  · cases accepted
    exact ((leads_of_run_advance named).trans (passes_of_expect opened).leads).trans
      (passes_of_expect closed).leads

/-- Each stage is written behind its dot. -/
theorem stages_writes {previous : Option Stage} {bound : Nat} {start : Cursor} {chain : Chain}
    (leads : start.Leads cursor)
    (accepted : (stages previous bound).run cursor = .ok (chain, after)) :
    start.Leads after ∧ ∀ stage ∈ chain, ∀ selector ∈ stage.selectors,
      Grammar.Writes start.tokens selector := by
  induction bound generalizing previous cursor chain with
  | zero =>
      cases accepted
      exact ⟨leads, List.forall_mem_nil _⟩
  | succ bound ih =>
      rw [stages, run_atSymbol_bind] at accepted
      split at accepted
      · rename_i dot
        obtain ⟨_, _, advanced, accepted⟩ := run_bind_eq_ok.1 accepted
        have passes := passes_of_run_advance (beq_iff_eq.1 dot) advanced
        have dotted := leads.trans passes.leads
        rw [run_atName_bind] at accepted
        split at accepted
        · obtain ⟨_, _, thrown, accepted⟩ := run_bind_eq_ok.1 accepted
          exact ih (dotted.trans (leads_of_orElseThrow thrown)) accepted
        · obtain ⟨first, _, found, accepted⟩ := run_bind_eq_ok.1 accepted
          obtain ⟨others, _, rest, same⟩ := run_bind_eq_ok.1 accepted
          cases same
          obtain ⟨further, written⟩ := stage_writes _ _ _ found
          obtain ⟨reached, writtenOthers⟩ := ih (dotted.trans further) rest
          refine ⟨reached, List.forall_mem_cons.2 ⟨fun selector member => ?_, writtenOthers⟩⟩
          exact leads.writes_behind passes (not_isNumber_symbol _) (written selector member)
      · cases accepted
        exact ⟨leads, List.forall_mem_nil _⟩

/-- A chain that makes up the rest of a script is parsed only if no fault follows. -/
theorem wholeChain_writes {chain : Chain} (outOfView : cursor.FaultOutOfView)
    (accepted : wholeChain.run cursor = .ok (chain, after)) :
    cursor.fault = none ∧ ∀ stage ∈ chain, ∀ selector ∈ stage.selectors,
      Grammar.Writes cursor.tokens selector := by
  rw [wholeChain, run_atSymbol_bind] at accepted
  split at accepted
  · rw [run_remaining_bind] at accepted
    obtain ⟨_, _, all, accepted⟩ := run_bind_eq_ok.1 accepted
    obtain ⟨_, _, ended, same⟩ := run_bind_eq_ok.1 accepted
    cases same
    obtain ⟨none, rfl⟩ := of_expectEnd ended
    obtain ⟨leads, written⟩ := stages_writes (.refl _) all
    refine ⟨?_, written⟩
    rcases leads.reaches.outOfView outOfView with faultless | further
    · exact leads.reaches.fault ▸ faultless
    · rw [none] at further
      cases further
  · cases accepted

end Parse

theorem Cursor.ofScript_eq_ok {script : String} {cursor : Cursor}
    (accepted : Cursor.ofScript script = .ok cursor) :
    cursor = ⟨(Lexed.ofScript script).tokens.map (·.2), (Lexed.ofScript script).fault.map (·.2)⟩ ∧
      cursor.FaultOutOfView := by
  unfold Cursor.ofScript at accepted
  dsimp only at accepted
  split at accepted
  · cases accepted
  · cases accepted
  · rename_i noToken oneToken
    cases accepted
    refine ⟨rfl, ?_⟩
    cases fault : (Lexed.ofScript script).fault with
    | none => exact .inl rfl
    | some stopped =>
        obtain ⟨position, error⟩ := stopped
        cases tokens : (Lexed.ofScript script).tokens.map (·.2) with
        | nil => exact absurd tokens (noToken position error fault)
        | cons first rest =>
            cases rest with
            | nil => exact absurd tokens (oneToken position error first fault)
            | cons second rest => exact .inr (by simp)

/-- A script that has a chain is free of lexical faults, and all selectors of the chain are written
among its tokens. -/
theorem Chain.parse_writes {script : String} {chain : Chain}
    (accepted : Chain.parse script = .ok chain) :
    (Lexed.ofScript script).fault = none ∧ ∀ stage ∈ chain, ∀ selector ∈ stage.selectors,
      Writes ((Lexed.ofScript script).tokens.map (·.2)) selector := by
  unfold Chain.parse at accepted
  split at accepted
  · obtain ⟨cursor, started, accepted⟩ := bind_eq_ok.1 accepted
    obtain ⟨⟨_, after⟩, ran, same⟩ := bind_eq_ok.1 accepted
    cases same
    obtain ⟨rfl, outOfView⟩ := Cursor.ofScript_eq_ok started
    obtain ⟨faultless, written⟩ := Parse.wholeChain_writes outOfView ran
    exact ⟨Option.map_eq_none_iff.1 faultless, written⟩
  · cases accepted

theorem Chain.parse_cites {script : String} {chain : Chain}
    (accepted : Chain.parse script = .ok chain) {name : String} (mentioned : name ∈ chain.names) :
    Cites ((Lexed.ofScript script).tokens.map (·.2)) name := by
  obtain ⟨stage, member, selector, among, named⟩ := mem_names.1 mentioned
  exact ((Chain.parse_writes accepted).2 stage member selector among).cites named

end Pipeline
