import Pipeline.Proofs.BoundedIntegers
import Pipeline.Proofs.Lookup
import Pipeline.Proofs.SpelledIntegers

/-! Map keys as texts, and the maps that are read from texts. A key is read back from its text
unless it is a text that reads as an integer or a boolean, and two texts are read as one key exactly
if they spell the same integer of 64 bits. -/

set_option autoImplicit false

namespace Pipeline

namespace Key

/-- The key is no text that reads as an integer or a boolean. -/
def IsPlain : Key → Prop
  | text s => (signedInteger? s.toList).bind boundedInteger? = none ∧ s ≠ "true" ∧ s ≠ "false"
  | boolean _ | integer _ => True

theorem read_isPlain (name : String) : (read name).IsPlain := by
  unfold read
  split
  · trivial
  · rename_i other
    split
    · trivial
    · split
      · trivial
      · exact ⟨other, by assumption, by assumption⟩

theorem read_eq_integer_iff {name : String} {n : Int64} :
    read name = integer n ↔ Spells name n.toInt := by
  rw [← signedInteger?_eq_some_iff]
  have bounded : (signedInteger? name.toList).bind boundedInteger? = some n ↔
      signedInteger? name.toList = some n.toInt := by
    simp only [Option.bind_eq_some_iff, boundedInteger?_eq_some_iff, exists_eq_right']
  rw [← bounded, read]
  cases (signedInteger? name.toList).bind boundedInteger? with
  | some m => simp
  | none =>
      refine iff_of_false ?_ nofun
      dsimp only
      split
      · nofun
      · split <;> nofun

theorem read_written {key : Key} (plain : key.IsPlain) : read key.written = key := by
  cases key with
  | boolean b => cases b <;> rfl
  | integer n => exact read_eq_integer_iff.2 (spells_toString n.toInt)
  | text s =>
      obtain ⟨noInteger, noTrue, noFalse⟩ := plain
      rw [written, read, noInteger]
      simp only [noTrue, noFalse, if_false]

/-- Apart from integers, a key is read only from the text that it is written as. -/
theorem written_read {name : String} (other : ∀ n, read name ≠ integer n) :
    (read name).written = name := by
  unfold read at other ⊢
  split
  · rename_i n found
    rw [found] at other
    exact absurd rfl (other n)
  · split
    · rename_i same
      exact same.symm
    · split
      · rename_i same
        exact same.symm
      · rfl

theorem read_eq_read_iff {name other : String} : read name = read other ↔
    name = other ∨ ∃ n : Int64, Spells name n.toInt ∧ Spells other n.toInt := by
  simp only [← read_eq_integer_iff]
  constructor
  · intro same
    by_cases integral : ∃ n, read name = integer n
    · obtain ⟨n, found⟩ := integral
      exact .inr ⟨n, found, same.symm.trans found⟩
    · have none := not_exists.1 integral
      left
      rw [← written_read none, same, written_read fun n => same ▸ none n]
  · rintro (rfl | ⟨n, first, second⟩)
    · rfl
    · rw [first, second]

end Key

/-! ## Entries in key order -/

section Entries

variable {α : Type} {key : Key} {value : α} {entries : List (Key × α)}

theorem mem_keys_putEntry {other : Key} : other ∈ (putEntry key value entries).map Prod.fst ↔
    other = key ∨ other ∈ entries.map Prod.fst := by
  fun_induction putEntry key value entries with
  | case1 | case2 => simp
  | case3 found old rest same =>
      cases Key.order_eq_iff.1 same
      simp
  | case4 found old rest _ ih =>
      simp only [List.map_cons, List.mem_cons, ih]
      exact or_left_comm

theorem mem_putEntry {entry : Key × α} (member : entry ∈ putEntry key value entries) :
    entry = (key, value) ∨ entry ∈ entries := by
  fun_induction putEntry key value entries with
  | case1 => exact .inl (List.mem_singleton.1 member)
  | case2 => exact List.mem_cons.1 member
  | case3 found old rest same =>
      cases Key.order_eq_iff.1 same
      exact (List.mem_cons.1 member).imp_right (.tail _)
  | case4 found old rest _ ih =>
      rcases List.mem_cons.1 member with same | behind
      · exact .inr (same ▸ .head _)
      · exact (ih behind).imp_right (.tail _)

theorem putEntry_inKeyOrder (ordered : InKeyOrder entries) (value : α) :
    InKeyOrder (putEntry key value entries) := by
  fun_induction putEntry key value entries with
  | case1 => exact List.pairwise_singleton _ _
  | case2 found old rest less =>
      refine List.pairwise_cons.2 ⟨fun entry member => ?_, ordered⟩
      rcases List.mem_cons.1 member with rfl | behind
      · exact less
      · exact Key.order_lt_trans less ((List.pairwise_cons.1 ordered).1 entry behind)
  | case3 => exact List.pairwise_cons.2 (List.pairwise_cons.1 ordered)
  | case4 found old rest greater ih =>
      obtain ⟨_, behind⟩ := List.pairwise_cons.1 ordered
      refine List.pairwise_cons.2 ⟨fun entry member => ?_, ih behind⟩
      rcases mem_keys_putEntry.1 (List.mem_map_of_mem member) with same | old
      · exact same ▸ Key.order_gt_iff.1 greater
      · exact ordered.lt_of_mem old

private theorem foldl_putEntry (entries before : List (Key × α)) (ordered : InKeyOrder before) :
    let after := entries.foldl (fun found (key, value) => putEntry key value found) before
    InKeyOrder after ∧ (∀ key, key ∈ after.map Prod.fst ↔ key ∈ (before ++ entries).map Prod.fst) ∧
      ∀ entry ∈ after, entry ∈ before ++ entries := by
  induction entries generalizing before with
  | nil => simpa using ordered
  | cons entry rest ih =>
      obtain ⟨key, value⟩ := entry
      obtain ⟨orderedAfter, keys, members⟩ := ih _ (putEntry_inKeyOrder ordered value)
      refine ⟨orderedAfter, fun other => ?_, fun entry member => ?_⟩
      · refine (keys other).trans ?_
        rw [List.map_append, List.mem_append, mem_keys_putEntry]
        simp only [List.map_append, List.map_cons, List.mem_append, List.mem_cons]
        exact or_assoc.trans or_left_comm
      · have found := members entry member
        rw [List.mem_append] at found ⊢
        rcases found with put | later
        · exact (mem_putEntry put).elim (fun same => .inr (same ▸ .head _)) .inl
        · exact .inr (.tail _ later)

theorem entriesOf_inKeyOrder (entries : List (Key × α)) : InKeyOrder (entriesOf entries) :=
  (foldl_putEntry entries [] .nil).1

theorem mem_keys_entriesOf : key ∈ (entriesOf entries).map Prod.fst ↔
    key ∈ entries.map Prod.fst :=
  (foldl_putEntry entries [] .nil).2.1 key

theorem mem_of_mem_entriesOf {entry : Key × α} (member : entry ∈ entriesOf entries) :
    entry ∈ entries :=
  (foldl_putEntry entries [] .nil).2.2 entry member

theorem entriesOf_of_inKeyOrder (ordered : InKeyOrder entries) : entriesOf entries = entries := by
  have sorted := entriesOf_inKeyOrder entries
  have keys := sorted.keys_eq ordered fun _ => mem_keys_entriesOf
  have lengths : (entriesOf entries).length = entries.length := by
    simpa using congrArg List.length keys
  have part : (entriesOf entries).Subperm entries :=
    sorted.nodup.of_map.subperm fun _ => mem_of_mem_entriesOf
  exact sorted.eq_of_perm ordered (part.perm_of_length_le lengths.ge)

end Entries

end Pipeline
