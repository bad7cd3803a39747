import Pipeline.Proofs.JsonForms
import Pipeline.Proofs.WrittenKeys

/-! Entries that are put into others one by one. Of those with one key the last stays, so that as
many stay as were put in exactly if none of them has the key of another. -/

set_option autoImplicit false

namespace Pipeline

section Fold

variable {κ α : Type} [BEq κ] [LawfulBEq κ]

omit [LawfulBEq κ] in
theorem lookup_cons_eq_ite (first key : κ) (value : α) (rest : List (κ × α)) :
    ((first, value) :: rest).lookup key = if key == first then some value else rest.lookup key := by
  rw [List.lookup_cons]
  cases key == first <;> rfl

/-- An entry is found where it is put in, and the others as before. -/
def Puts (put : κ → α → List (κ × α) → List (κ × α)) : Prop :=
  ∀ key value entries other, (put key value entries).lookup other =
    if other == key then some value else entries.lookup other

omit [LawfulBEq κ] in
theorem Puts.lookup_foldl {put : κ → α → List (κ × α) → List (κ × α)} (puts : Puts put)
    (entries before : List (κ × α)) (key : κ) :
    (entries.foldl (fun found (key, value) => put key value found) before).lookup key =
      (entries.reverse.lookup key).or (before.lookup key) := by
  induction entries generalizing before with
  | nil => rfl
  | cons entry rest ih =>
      obtain ⟨first, value⟩ := entry
      rw [List.foldl_cons, ih, puts, List.reverse_cons, List.lookup_append, Option.or_assoc,
        lookup_cons_eq_ite]
      cases key == first <;> rfl

theorem lookup_reverse_of_last {front behind : List (κ × α)} {key : κ} (value : α)
    (last : key ∉ behind.map Prod.fst) :
    (front ++ (key, value) :: behind).reverse.lookup key = some value := by
  have none : behind.reverse.lookup key = none := by
    rwa [lookup_eq_none_iff, List.map_reverse, List.mem_reverse]
  rw [List.reverse_append, List.reverse_cons, List.lookup_append, List.lookup_append, none,
    List.lookup_cons_self]
  rfl

theorem mem_keys_iff_of_lookup_reverse {stored entries : List (κ × α)}
    (same : ∀ key, stored.lookup key = entries.reverse.lookup key) (key : κ) :
    key ∈ stored.map Prod.fst ↔ key ∈ entries.map Prod.fst := by
  rw [← not_iff_not, ← lookup_eq_none_iff, same, lookup_eq_none_iff, List.map_reverse,
    List.mem_reverse]

omit [BEq κ] [LawfulBEq κ] in
/-- Entries of which one is stored for each key are all stored only if their keys are distinct. -/
theorem length_eq_iff_nodup {stored entries : List (κ × α)}
    (distinct : (stored.map Prod.fst).Nodup)
    (keys : ∀ key, key ∈ stored.map Prod.fst ↔ key ∈ entries.map Prod.fst) :
    stored.length = entries.length ↔ (entries.map Prod.fst).Nodup := by
  have lengths : stored.length = entries.length ↔
      (stored.map Prod.fst).length = (entries.map Prod.fst).length := by simp
  rw [lengths]
  constructor
  · intro same
    have part := distinct.subperm fun key => (keys key).1
    exact (part.perm_of_length_le same.ge).nodup_iff.1 distinct
  · intro distinctEntries
    exact ((List.perm_ext_iff_of_nodup distinct distinctEntries).2 keys).length_eq

end Fold

namespace Json

theorem puts_putMember : Puts putMember := by
  intro name value members other
  fun_induction putMember name value members with
  | case1 => exact lookup_cons_eq_ite ..
  | case2 old rest =>
      rw [lookup_cons_eq_ite, lookup_cons_eq_ite]
      cases other == name <;> rfl
  | case3 found old rest different ih =>
      rw [lookup_cons_eq_ite, ih, lookup_cons_eq_ite]
      by_cases first : other = found
      · simp [first, different]
      · simp [first]

theorem lookup_foldMembers (members : List (String × Json)) (name : String) :
    (foldMembers members).lookup name = members.reverse.lookup name := by
  rw [foldMembers, puts_putMember.lookup_foldl, List.lookup_nil, Option.or_none]

theorem length_foldMembers_iff (members : List (String × Json)) :
    (foldMembers members).length = members.length ↔ (members.map Prod.fst).Nodup :=
  length_eq_iff_nodup (foldMembers_nodup members)
    (mem_keys_iff_of_lookup_reverse (lookup_foldMembers members))

end Json

theorem puts_putEntry {α : Type} : Puts (putEntry (α := α)) := by
  intro key value entries other
  fun_induction putEntry key value entries with
  | case1 | case2 => exact lookup_cons_eq_ite ..
  | case3 found old rest same =>
      rw [Key.order_eq_iff.1 same, lookup_cons_eq_ite, lookup_cons_eq_ite]
      cases other == found <;> rfl
  | case4 found old rest greater ih =>
      have different : found ≠ key := Key.ne_of_order_lt (Key.order_gt_iff.1 greater)
      rw [lookup_cons_eq_ite, ih, lookup_cons_eq_ite]
      by_cases first : other = found
      · simp [first, different]
      · simp [first]

section Entries

variable {α : Type} (entries : List (Key × α))

theorem lookup_entriesOf (key : Key) :
    (entriesOf entries).lookup key = entries.reverse.lookup key := by
  rw [entriesOf, puts_putEntry.lookup_foldl, List.lookup_nil, Option.or_none]

theorem mem_entriesOf_of_nodup {entries : List (Key × α)} (distinct : (entries.map Prod.fst).Nodup)
    {entry : Key × α} (member : entry ∈ entries) : entry ∈ entriesOf entries := by
  have reversed : (entries.reverse.map Prod.fst).Nodup := by
    rwa [List.map_reverse, List.nodup_reverse]
  refine mem_of_lookup ((lookup_entriesOf entries entry.1).trans ?_)
  exact (lookup_eq_some_iff reversed).2 (List.mem_reverse.2 member)

theorem length_entriesOf_iff :
    (entriesOf entries).length = entries.length ↔ (entries.map Prod.fst).Nodup :=
  length_eq_iff_nodup (entriesOf_inKeyOrder entries).nodup fun _ => mem_keys_entriesOf

end Entries

end Pipeline
