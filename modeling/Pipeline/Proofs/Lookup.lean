import Mathlib.Data.List.Forall2
import Mathlib.Data.List.Nodup
import Pipeline.Proofs.KeyOrder

/-! Lists of entries as functions of their keys: what is found in them, what stands in them if they
are made of others one by one, and that entries in key order are known from what is found. -/

set_option autoImplicit false

namespace Pipeline

section Related

variable {κ α β : Type}

theorem exists_of_forall₂ {r : α → β → Prop} {items : List α} {images : List β}
    (related : List.Forall₂ r items images) : ∀ image ∈ images, ∃ item ∈ items, r item image := by
  induction related with
  | nil => exact List.forall_mem_nil _
  | cons first _ ih =>
      refine List.forall_mem_cons.2 ⟨⟨_, .head _, first⟩, fun image member => ?_⟩
      obtain ⟨item, within, found⟩ := ih image member
      exact ⟨item, .tail _ within, found⟩

theorem map_eq_of_forall₂ {r : α → β → Prop} {items : List α} {images : List β}
    (related : List.Forall₂ r items images) {first : α → κ} {second : β → κ}
    (same : ∀ item image, r item image → first item = second image) :
    images.map second = items.map first := by
  induction related with
  | nil => rfl
  | cons here _ ih => rw [List.map_cons, List.map_cons, same _ _ here, ih]

end Related

section Entries

variable {κ α β : Type} [BEq κ] [LawfulBEq κ] {entries : List (κ × α)} {key : κ}

theorem lookup_eq_none_iff : entries.lookup key = none ↔ key ∉ entries.map Prod.fst := by
  rw [List.lookup_eq_none_iff, List.mem_map, not_exists]
  refine forall_congr' fun entry => ?_
  rw [not_and, bne_iff_ne, ne_comm]

theorem mem_keys_iff_of_lookup {γ : Type} {others : List (κ × β)} {image : α → γ}
    {imageOther : β → γ}
    (same : ∀ key, (entries.lookup key).map image = (others.lookup key).map imageOther) (key : κ) :
    key ∈ entries.map Prod.fst ↔ key ∈ others.map Prod.fst := by
  have both : entries.lookup key = none ↔ others.lookup key = none := by
    simpa using congrArg (· = none) (same key)
  rwa [lookup_eq_none_iff, lookup_eq_none_iff, not_iff_not] at both

theorem mem_of_lookup {value : α} (found : entries.lookup key = some value) :
    (key, value) ∈ entries := by
  obtain ⟨front, behind, rfl, _⟩ := List.lookup_eq_some_iff.1 found
  simp

theorem lookup_eq_some_iff (distinct : (entries.map Prod.fst).Nodup) {value : α} :
    entries.lookup key = some value ↔ (key, value) ∈ entries := by
  refine ⟨mem_of_lookup, fun member => ?_⟩
  cases found : entries.lookup key with
  | none => exact absurd (List.mem_map_of_mem member) (lookup_eq_none_iff.1 found)
  | some other =>
      have same := List.inj_on_of_nodup_map distinct (mem_of_lookup found) member rfl
      exact congrArg (fun entry => some entry.2) same

omit [LawfulBEq κ] in
theorem lookup_map (image : α → β) :
    (entries.map fun (key, value) => (key, image value)).lookup key =
      (entries.lookup key).map image := by
  induction entries with
  | nil => rfl
  | cons entry rest ih =>
      rw [List.map_cons, List.lookup_cons, List.lookup_cons, ih]
      split <;> rfl

end Entries

namespace InKeyOrder

variable {α β : Type} {entries others : List (Key × α)} {rest : List (Key × β)}

theorem keys (ordered : InKeyOrder entries) :
    (entries.map Prod.fst).Pairwise fun first second => first.order second = .lt :=
  List.pairwise_map.2 ordered

theorem of_keys (ordered : InKeyOrder entries) (same : rest.map Prod.fst = entries.map Prod.fst) :
    InKeyOrder rest := by
  have keys := ordered.keys
  rw [← same] at keys
  exact List.pairwise_map.1 keys

theorem nodup (ordered : InKeyOrder entries) : (entries.map Prod.fst).Nodup :=
  ordered.keys.imp Key.ne_of_order_lt

theorem map (ordered : InKeyOrder entries) (image : α → β) :
    InKeyOrder (entries.map fun (key, value) => (key, image value)) :=
  List.pairwise_map.2 ordered

theorem keys_eq (ordered : InKeyOrder entries) (orderedRest : InKeyOrder rest)
    (same : ∀ key, key ∈ entries.map Prod.fst ↔ key ∈ rest.map Prod.fst) :
    entries.map Prod.fst = rest.map Prod.fst := by
  have perm := (List.perm_ext_iff_of_nodup ordered.nodup orderedRest.nodup).2 same
  refine perm.eq_of_pairwise (fun first second _ _ less greater => ?_) ordered.keys orderedRest.keys
  exact absurd rfl (Key.ne_of_order_lt (Key.order_lt_trans less greater))

theorem eq_of_perm (ordered : InKeyOrder entries) (orderedOthers : InKeyOrder others)
    (perm : entries.Perm others) : entries = others := by
  refine perm.eq_of_pairwise (fun first second _ _ less greater => ?_) ordered orderedOthers
  exact absurd rfl (Key.ne_of_order_lt (Key.order_lt_trans less greater))

theorem eq_of_lookup (ordered : InKeyOrder entries) (orderedOthers : InKeyOrder others)
    (same : ∀ key, entries.lookup key = others.lookup key) : entries = others := by
  have members : ∀ entry, entry ∈ entries ↔ entry ∈ others := by
    intro (key, value)
    rw [← lookup_eq_some_iff ordered.nodup, ← lookup_eq_some_iff orderedOthers.nodup, same]
  exact ordered.eq_of_perm orderedOthers
    ((List.perm_ext_iff_of_nodup ordered.nodup.of_map orderedOthers.nodup.of_map).2 members)

end InKeyOrder

end Pipeline
