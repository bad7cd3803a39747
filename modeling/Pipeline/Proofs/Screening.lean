import Pipeline.Proofs.ChainSelectors
import Pipeline.Proofs.Scanning
import Pipeline.Proofs.WholeWords
import Pipeline.Sandbox

/-! The screen looks at the text of a script, and the parser at its tokens. A forbidden word that
is a name in the chain stands whole in the text, so the screen finds it. -/

set_option autoImplicit false

namespace Pipeline

open Grammar

namespace Lexed

variable {length steps : Nat} {text : List Char}

/-- The first of several tokens is scanned, and the others come from behind it. -/
theorem ofRest_eq_cons {token : Token} {tokens : List Token}
    (found : (ofRest length steps text).tokens.map (·.2) = token :: tokens) :
    ∃ fewer rest, steps = fewer + 1 ∧ Scan.next length text = .token token rest ∧
      (ofRest length fewer rest).tokens.map (·.2) = tokens ∧
      (ofRest length steps text).fault = (ofRest length fewer rest).fault := by
  cases steps with
  | zero => cases found
  | succ steps =>
      rw [ofRest] at found ⊢
      split at found
      · cases found
      · cases found
      · rename_i next rest scanned
        obtain ⟨rfl, others⟩ := List.cons.inj found
        exact ⟨steps, rest, rfl, scanned, others, rfl⟩

/-- Where no fault follows, only what continues a name is a character of a word. -/
theorem isWordChar_of_faultless (enough : text.length < steps)
    (faultless : (ofRest length steps text).fault = none) :
    ∀ c, text.head? = some c → Scan.continuesName c = false → Text.isWordChar c = false := by
  intro c first ends
  obtain ⟨others, rfl⟩ := List.head?_eq_some_iff.1 first
  cases blank : Text.isBlank c with
  | true => exact Text.isWordChar_of_isBlank blank
  | false =>
      have visible : Text.trimStart (c :: others) = c :: others :=
        List.dropWhile_cons_of_neg (by simp [blank])
      obtain ⟨fewer, rfl⟩ := Nat.exists_eq_succ_of_ne_zero (Nat.ne_zero_of_lt enough)
      rw [ofRest, Scan.next, visible] at faultless
      split at faultless
      · rename_i finished
        exact absurd finished Scan.visible_ne_finished
      · cases faultless
      · rename_i scanned
        exact (Scan.visible_spells scanned).isWordChar_first ends

/-- A name that the tokens of a text cite stands whole in the masked text. -/
theorem whole_of_ofRest {before behind : List Token} {name : String}
    (enough : text.length < steps) (faultless : (ofRest length steps text).fault = none)
    (tokens : (ofRest length steps text).tokens.map (·.2) = before ++ .name name :: behind)
    (noNumber : ∀ token, before.getLast? = some token → ¬ IsNumber token) :
    (∃ c, name.toList.head? = some c ∧ Scan.continuesName c = true) ∧
      ∃ front back, maskFrom none text = front ++ (name.toList ++ back) ∧
        Text.Whole front back ∧ (before ≠ [] → front ≠ []) := by
  induction before generalizing steps text with
  | nil =>
      obtain ⟨fewer, rest, rfl, scanned, _, same⟩ := ofRest_eq_cons tokens
      have spells := Scan.visible_spells scanned
      have shorter := Nat.lt_of_lt_of_le spells.masks.1 (Text.length_trimStart_le text)
      obtain ⟨masks, starts, ended⟩ := spells.masks_name
      refine ⟨starts, text.takeWhile Text.isBlank, maskFrom none rest, ?_, ⟨?_, ?_⟩, by simp⟩
      · rw [maskFrom_none_trimStart, masks]
      · intro c last
        exact Text.isWordChar_of_isBlank
          (List.all_eq_true.1 List.all_takeWhile c (List.mem_of_getLast? last))
      · intro c first
        rw [head?_maskFrom_none] at first
        exact isWordChar_of_faultless (by omega) (same ▸ faultless) c first (ended c first)
  | cons token before ih =>
      obtain ⟨fewer, rest, rfl, scanned, others, same⟩ := ofRest_eq_cons tokens
      obtain ⟨shorter, masked, some, masks, divided⟩ := (Scan.visible_spells scanned).masks
      have shorter := Nat.lt_of_lt_of_le shorter (Text.length_trimStart_le text)
      have noNumberBehind : ∀ token, before.getLast? = Option.some token → ¬ IsNumber token := by
        intro last found
        exact noNumber last (by rw [List.getLast?_cons, found]; rfl)
      obtain ⟨starts, front, back, maskedRest, whole, apart⟩ :=
        ih (by omega) (same ▸ faultless) others noNumberBehind
      refine ⟨starts, text.takeWhile Text.isBlank ++ (masked ++ front), back, ?_,
        ⟨?_, whole.2⟩, by simp [some]⟩
      · rw [maskFrom_none_trimStart, masks, maskedRest]
        simp only [List.append_assoc]
      · refine Text.getLast?_append_ends some whole.1 fun none => ?_
        -- The name stands at the front of the rest, directly behind the token.
        have only : before = [] := Classical.byContradiction fun more => apart more none
        subst only none
        obtain ⟨first, starts, continues⟩ := starts
        have head : rest.head? = Option.some first := by
          rw [← head?_maskFrom_none, maskedRest, List.nil_append, List.head?_append, starts]
          rfl
        exact (divided.resolve_left (noNumber token rfl)).ends head continues

/-- A name that the tokens of a script cite stands whole in it, outside of text literals. -/
theorem whole_of_cites {script name : String} (faultless : (ofScript script).fault = none)
    (cited : Cites ((ofScript script).tokens.map (·.2)) name) :
    ∃ front back, maskLiterals script = front ++ (name.toList ++ back) ∧
      Text.Whole front back := by
  obtain ⟨before, behind, tokens, noNumber⟩ := cited
  obtain ⟨_, front, back, masks, whole, _⟩ :=
    whole_of_ofRest (Nat.lt_succ_self _) faultless tokens noNumber
  exact ⟨front, back, masks, whole⟩

end Lexed

theorem isWord_of_forbidden : ∀ word ∈ forbiddenWords, Text.IsWord word.toList := by
  decide

/-- The screen refuses a script with a forbidden word as a name in its chain. -/
theorem screen_refuses {script : String} {chain : Chain}
    (accepted : Chain.parse script = .ok chain) {name : String} (mentioned : name ∈ chain.names)
    (forbidden : name ∈ forbiddenWords) (limit : Nat) :
    ∃ error, screen limit script = .error error := by
  have faultless := (Chain.parse_writes accepted).1
  have cited := Chain.parse_cites accepted mentioned
  obtain ⟨front, back, masks, whole⟩ := Lexed.whole_of_cites faultless cited
  have stands := Text.startsWithWord_of_whole (isWord_of_forbidden name forbidden) whole
  have found : (Text.firstWord? forbiddenWords none (maskLiterals script)).isSome = true := by
    rw [masks]
    exact Text.firstWord?_isSome forbidden (by rwa [Option.or_none])
  obtain ⟨word, found⟩ := Option.isSome_iff_exists.1 found
  unfold screen
  split
  · exact ⟨_, rfl⟩
  · rw [found]
    exact ⟨_, rfl⟩

namespace Sandbox

/-- A sandbox uses its engine only for chains without forbidden words. -/
theorem submit_congr {limits : Limits} {first second : Engine}
    (agree : ∀ chain : Chain, (∀ name ∈ chain.names, name ∉ forbiddenWords) →
      first chain = second chain)
    (script : String) (elementType : ElementType) (input : List Value) :
    submit ⟨limits, first⟩ script elementType input =
      submit ⟨limits, second⟩ script elementType input := by
  unfold submit
  dsimp only
  cases screened : screen limits.maxScriptLength script with
  | error error => rfl
  | ok _ =>
      cases parsed : Chain.parse script with
      | error error => rfl
      | ok chain =>
          have permitted : ∀ name ∈ chain.names, name ∉ forbiddenWords := by
            intro name mentioned forbidden
            obtain ⟨error, refused⟩ :=
              screen_refuses parsed mentioned forbidden limits.maxScriptLength
            rw [refused] at screened
            cases screened
          have same :
              execute ⟨limits, first⟩ chain input = execute ⟨limits, second⟩ chain input := by
            simp only [execute, agree chain permitted]
          dsimp only
          rw [same]

/-- No forbidden word gets past the screen as a name in a chain, whatever the limit, and so
no engine is handed a chain that mentions one: two engines that agree on all other chains
cannot be told apart. -/
theorem forbidden_names_kept_out :
    (∀ (limit : Nat) (script : String) (chain : Chain), Chain.parse script = .ok chain →
      ∀ name ∈ chain.names, name ∈ forbiddenWords →
        ∃ error, screen limit script = .error error) ∧
    ∀ (limits : Limits) (first second : Engine),
      (∀ chain : Chain, (∀ name ∈ chain.names, name ∉ forbiddenWords) →
        first chain = second chain) →
      ∀ (script : String) (elementType : ElementType) (input : List Value),
        submit ⟨limits, first⟩ script elementType input =
          submit ⟨limits, second⟩ script elementType input :=
  ⟨fun limit _ _ accepted _ mentioned forbidden =>
      screen_refuses accepted mentioned forbidden limit,
    fun _ _ _ agree => submit_congr agree⟩

/-- The field `env` is refused, and the text `System` is not what is refused. An engine that
breaks down on forbidden names is as good as the evaluator. -/
theorem forbidden_names_kept_out_env :
    let script := ".filter(a -> a.name == \"System\").map(a -> a.env)"
    let wary : Engine := fun chain input steps =>
      if chain.names.all (!forbiddenWords.contains ·) then Engine.evaluator 10 chain input steps
      else .aborted none
    (∃ chain, Chain.parse script = .ok chain ∧ "env" ∈ chain.names) ∧
      (∃ error, screen 4096 script = .error error) ∧
      ∀ elementType input, submit ⟨.default, Engine.evaluator 10⟩ script elementType input =
        submit ⟨.default, wary⟩ script elementType input := by
  intro script wary
  have mentions :
      ((Chain.parse script).toOption.any fun chain => chain.names.contains "env") = true := by
    decide +kernel
  obtain ⟨chain, accepted, mentioned⟩ : ∃ chain, Chain.parse script = .ok chain ∧
      "env" ∈ chain.names := by
    cases parsed : Chain.parse script with
    | error error =>
        rw [parsed] at mentions
        cases mentions
    | ok chain =>
        rw [parsed] at mentions
        exact ⟨chain, rfl, List.contains_iff_mem.1 mentions⟩
  refine ⟨⟨chain, accepted, mentioned⟩, ?_, ?_⟩
  · exact forbidden_names_kept_out.1 4096 script chain accepted "env" mentioned (by decide)
  · refine forbidden_names_kept_out.2 .default _ _ (fun chain permitted => ?_) script
    funext input steps
    have all : chain.names.all (!forbiddenWords.contains ·) = true := by
      rw [List.all_eq_true]
      intro name member
      simpa using permitted name member
    exact (if_pos all).symm

end Sandbox

end Pipeline
