import Pipeline.Proofs.Pieces

/-! Sort keys in a row, each written by itself, with `then` between them. -/

set_option autoImplicit false

namespace Pipeline

open Scan

namespace Parse

variable {tokens rest : List Token} {keys : List SortKey}

/-- From the tokens on, the keys are read one after another, up to the rest. -/
inductive KeysRead : List Token → List SortKey → List Token → Prop where
  | last {tokens rest : List Token} {key : SortKey} :
      sortKey.run ⟨tokens, none⟩ = .ok (key, ⟨rest, none⟩) → rest.head? ≠ some (.name "then") →
      KeysRead tokens [key] rest
  | more {tokens others rest : List Token} {key : SortKey} {keys : List SortKey} :
      sortKey.run ⟨tokens, none⟩ = .ok (key, ⟨.name "then" :: others, none⟩) →
      KeysRead others keys rest → KeysRead tokens (key :: keys) rest

theorem sortKey_starts {key : SortKey} {after : Cursor}
    (accepted : sortKey.run ⟨tokens, none⟩ = .ok (key, after)) :
    ∃ name rest, tokens = .name name :: rest := by
  match tokens with
  | [] => cases accepted
  | .name name :: rest => exact ⟨name, rest, rfl⟩
  | .symbol _ :: _ | .integer _ :: _ | .float _ :: _ | .text _ :: _ | .boolean _ :: _ =>
      cases accepted

theorem KeysRead.starts (read : KeysRead tokens keys rest) :
    ∃ name rest, tokens = .name name :: rest := by
  cases read with
  | last ran | more ran => exact sortKey_starts ran

/-- Every further key takes a token at least, so the number of tokens is bound enough. -/
theorem KeysRead.parts (read : KeysRead tokens keys rest) :
    ∃ key others middle, keys = key :: others ∧
      sortKey.run ⟨tokens, none⟩ = .ok (key, ⟨middle, none⟩) ∧
      ∀ bound, middle.length ≤ bound →
        (furtherKeys bound).run ⟨middle, none⟩ = .ok (others, ⟨rest, none⟩) := by
  induction read with
  | @last tokens rest key ran ended =>
      refine ⟨key, [], rest, rfl, ran, fun bound _ => ?_⟩
      cases bound with
      | zero => rfl
      | succ bound =>
          rw [furtherKeys, run_atName_ne_bind ended]
          rfl
  | @more tokens others rest key keys ran _ ih =>
      obtain ⟨next, further, middle, rfl, read, behind⟩ := ih
      refine ⟨key, next :: further, _, rfl, ran, fun bound long => ?_⟩
      obtain ⟨bound, rfl⟩ := Nat.exists_eq_succ_of_ne_zero (Nat.ne_zero_of_lt long)
      obtain ⟨_, same, suffix, _⟩ := sortKey_local _ _ _ read
      cases same
      have shorter := suffix.length_le
      rw [List.length_cons] at long
      rw [furtherKeys, run_atName_cons_bind, if_pos rfl, run_advance_cons_bind, run_bind_ok read,
        run_bind_ok (behind bound (by omega))]
      rfl

theorem KeysRead.comparator (read : KeysRead tokens keys rest) :
    comparator.run ⟨tokens, none⟩ = .ok (⟨keys⟩, ⟨rest, none⟩) := by
  obtain ⟨key, others, middle, rfl, ran, further⟩ := read.parts
  rw [Parse.comparator, run_bind_ok ran, run_remaining_bind,
    run_bind_ok (further _ (Nat.le_refl _))]
  rfl

theorem KeysRead.optionalComparator (read : KeysRead tokens keys rest) :
    optionalComparator.run ⟨tokens, none⟩ = .ok (some ⟨keys⟩, ⟨rest, none⟩) := by
  obtain ⟨name, others, rfl⟩ := read.starts
  rw [Parse.optionalComparator, run_atSymbol_ne_bind (by simp)]
  exact run_bind_ok read.comparator

/-! ## Stages with a comparator -/

/-- The stages that take a comparator, by their names. -/
def comparatorStages : List (String × (Comparator → Stage)) :=
  [("sorted", fun comparator => .sorted (some comparator)),
    ("sort", fun comparator => .sorted (some comparator)), ("max", .max), ("maxBy", .max),
    ("min", .min), ("minBy", .min)]

variable {name : String} {make : Comparator → Stage}

theorem comparatorStages_names (member : (name, make) ∈ comparatorStages) :
    IsIdentifier name ∧ name ≠ "orElseThrow" := by
  have each : ∀ word ∈ comparatorStages.map Prod.fst, IsIdentifier word ∧ word ≠ "orElseThrow" := by
    decide
  exact each name (List.mem_map_of_mem member)

theorem comparatorStages_arguments (member : (name, make) ∈ comparatorStages) :
    ∃ image : Option Comparator → Stage, (∀ comparator, image (some comparator) = make comparator) ∧
      stageArguments? name = some (image <$> optionalComparator) := by
  simp only [comparatorStages, List.mem_cons, List.not_mem_nil, or_false, Prod.mk.injEq] at member
  rcases member with ⟨rfl, rfl⟩ | ⟨rfl, rfl⟩ | ⟨rfl, rfl⟩ | ⟨rfl, rfl⟩ | ⟨rfl, rfl⟩ | ⟨rfl, rfl⟩
  all_goals exact ⟨_, fun _ => rfl, rfl⟩

theorem KeysRead.stage (member : (name, make) ∈ comparatorStages)
    (read : KeysRead tokens keys rest) :
    stage.run ⟨.name name :: .symbol .leftParen :: tokens, none⟩ =
      (do
        expect .rightParen
        return make ⟨keys⟩ : Parse Stage).run ⟨rest, none⟩ := by
  obtain ⟨image, same, arguments⟩ := comparatorStages_arguments member
  have ran : (image <$> Parse.optionalComparator).run ⟨tokens, none⟩ =
      .ok (make ⟨keys⟩, ⟨rest, none⟩) :=
    run_map_eq_ok.2 ⟨_, read.optionalComparator, same _⟩
  rw [Parse.stage, run_expectName_cons_bind, arguments]
  simp only
  rw [run_expect_cons_bind, run_bind_ok ran]

/-! ## Texts of keys -/

theorem intercalate_cons (text : String) {texts : List String} (some : texts ≠ []) :
    " then ".intercalate (text :: texts) = text ++ " then " ++ " then ".intercalate texts := by
  obtain ⟨next, texts, rfl⟩ := List.exists_cons_of_ne_nil some
  exact String.intercalate_cons_cons

theorem consists_then {text : String} {texts : List String} (some : texts ≠ [])
    {first tail : List Token} (front : Consists text.toList first)
    (behind : Consists (" then ".intercalate texts).toList tail) :
    Consists (" then ".intercalate (text :: texts)).toList (first ++ .name "then" :: tail) := by
  have isThen : IsIdentifier "then" := by decide
  have gap := fun (text : List Char) => severs_gap (.inl rfl : ' ' = ' ' ∨ ' ' = ')') text
  have between := (behind.blank.name isThen fun c found => (gap _ c found).1).blank
  have joined := front.append_gap (.inl rfl) between
  rw [intercalate_cons text some]
  simpa [String.toList_append] using joined

/-- Keys that are written in front of others are read in front of them. -/
theorem exists_tokens_behind {before : List (String × SortKey)}
    (each : ∀ key ∈ before, SortKey.parse key.1 = .ok key.2) {texts : List String}
    (some : texts ≠ []) {tail : List Token}
    (consists : Consists (" then ".intercalate texts).toList tail) :
    ∃ tokens, Consists (" then ".intercalate (before.map (·.1) ++ texts)).toList tokens ∧
      ∀ more keys rest, KeysRead (tail ++ more) keys rest →
        KeysRead (tokens ++ more) (before.map (·.2) ++ keys) rest := by
  induction before with
  | nil => exact ⟨tail, consists, fun _ _ _ read => read⟩
  | cons key before ih =>
      obtain ⟨parsed, others⟩ := List.forall_mem_cons.1 each
      obtain ⟨behind, consistsBehind, reads⟩ := ih others
      obtain ⟨first, consistsFirst, run⟩ := exists_tokens_of_whole sortKey_reaching parsed
      refine ⟨first ++ .name "then" :: behind,
        consists_then (by simp [some]) consistsFirst consistsBehind, fun more keys rest read => ?_⟩
      rw [List.append_assoc, List.cons_append]
      exact .more (run _ (sortKey_ignores (.further _))) (reads more keys rest read)

theorem exists_tokens_of_keys {keys : List (String × SortKey)} (some : keys ≠ [])
    (each : ∀ key ∈ keys, SortKey.parse key.1 = .ok key.2) :
    ∃ tokens, Consists (" then ".intercalate (keys.map (·.1))).toList tokens ∧
      ∀ rest, KeysRead (tokens ++ .symbol .rightParen :: rest) (keys.map (·.2))
        (.symbol .rightParen :: rest) := by
  obtain ⟨before, last, rfl⟩ : ∃ before last, keys = before ++ [last] :=
    ⟨_, _, (List.dropLast_append_getLast some).symm⟩
  rw [List.forall_mem_append, List.forall_mem_singleton] at each
  obtain ⟨tail, consists, run⟩ := exists_tokens_of_whole sortKey_reaching each.2
  obtain ⟨tokens, consistsAll, reads⟩ := exists_tokens_behind each.1 (List.cons_ne_nil last.1 [])
    (by rwa [String.intercalate_singleton])
  refine ⟨tokens, ?_, fun rest => ?_⟩
  · rwa [List.map_append]
  · rw [List.map_append]
    exact reads _ _ _ (.last (run _ (sortKey_ignores (.bracket rest))) (by simp))

end Parse

def Script.call (name argument : String) : String :=
  name ++ "(" ++ argument ++ ")"

theorem Scan.Consists.call {name argument : String} (identifier : IsIdentifier name)
    {tokens : List Token} (consists : Consists argument.toList tokens) :
    Consists (Script.call name argument).toList
      (.name name :: .symbol .leftParen :: (tokens ++ [.symbol .rightParen])) := by
  have closed := consists.append_gap (.inr rfl) (consists_nil.next (.symbol rfl))
  have opened : Consists ('(' :: (argument.toList ++ [')']))
      (.symbol .leftParen :: (tokens ++ [.symbol .rightParen])) := closed.next (.symbol rfl)
  have named := opened.name identifier fun c found => ?_
  · simpa [Script.call, String.toList_append] using named
  · cases found
    exact continuesName_of_mem_signs (by decide)

theorem Scan.Consists.qualified {name : String} (identifier : IsIdentifier name) {text : List Char}
    {tokens : List Token} (consists : Consists text tokens) :
    Consists (name.toList ++ '.' :: text) (.name name :: .symbol .dot :: tokens) := by
  have dotted : Consists ('.' :: text) (.symbol .dot :: tokens) := consists.next (.symbol rfl)
  refine dotted.name identifier fun c found => ?_
  cases found
  exact continuesName_of_mem_signs (by decide)

theorem getLast?_call (name : String) (tokens : List Token) :
    (Token.name name :: .symbol .leftParen :: (tokens ++ [.symbol .rightParen])).getLast? =
      some (.symbol .rightParen) := by
  rw [← List.cons_append, ← List.cons_append, List.getLast?_concat]

/-- A stage whose keys are each written by itself has these keys. -/
theorem Chain.parse_keys {front back : String} {before after : Chain}
    (fronted : Chain.Part front before) (backed : Chain.Part back after) {name : String}
    {make : Comparator → Stage} (member : (name, make) ∈ Parse.comparatorStages)
    {keys : List (String × SortKey)} (some : keys ≠ [])
    (each : ∀ key ∈ keys, SortKey.parse key.1 = .ok key.2) :
    Chain.parse (front ++ "." ++ Script.call name (" then ".intercalate (keys.map (·.1))) ++ back) =
      .ok (before ++ make ⟨keys.map (·.2)⟩ :: after) := by
  obtain ⟨tokens, consists, reads⟩ := Parse.exists_tokens_of_keys some each
  obtain ⟨identifier, _⟩ := Parse.comparatorStages_names member
  refine Chain.parse_between fronted backed (consists.call identifier) ?_
  rw [(reads []).stage member, Parse.run_expect_cons_bind]
  rfl

/-- What a key denotes by itself, it denotes among other keys. -/
theorem Chain.parse_key {front back : String} {before after : Chain}
    (fronted : Chain.Part front before) (backed : Chain.Part back after) {name : String}
    {make : Comparator → Stage} (member : (name, make) ∈ Parse.comparatorStages) {form : String}
    {key : SortKey} (alone : SortKey.parse form = .ok key) {earlier later : List (String × SortKey)}
    (others : ∀ other ∈ earlier ++ later, SortKey.parse other.1 = .ok other.2) :
    Chain.parse (front ++ "." ++ Script.call name
        (" then ".intercalate (earlier.map (·.1) ++ form :: later.map (·.1))) ++ back) =
      .ok (before ++ make ⟨earlier.map (·.2) ++ key :: later.map (·.2)⟩ :: after) := by
  have each : ∀ other ∈ earlier ++ (form, key) :: later, SortKey.parse other.1 = .ok other.2 := by
    simp only [List.forall_mem_append, List.forall_mem_cons] at others ⊢
    exact ⟨others.1, alone, others.2⟩
  have all := Chain.parse_keys fronted backed member (by simp) each
  simpa only [List.map_append, List.map_cons] using all

end Pipeline
