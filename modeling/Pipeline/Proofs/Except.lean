/-! A result is read back through the computations that it came from. -/

set_option autoImplicit false

namespace Pipeline

variable {ε α β : Type} {source : Except ε α}

theorem bind_eq_ok {next : α → Except ε β} {result : β} :
    source >>= next = .ok result ↔ ∃ value, source = .ok value ∧ next value = .ok result := by
  cases source <;> simp [bind, Except.bind]

theorem bind_eq_error {next : α → Except ε β} {error : ε} :
    source >>= next = .error error ↔
      source = .error error ∨ ∃ value, source = .ok value ∧ next value = .error error := by
  cases source <;> simp [bind, Except.bind]

theorem bind_eq_error_of_ne {next : α → Except ε β} {error : ε}
    (never : ∀ value, next value ≠ .error error) :
    source >>= next = .error error ↔ source = .error error := by
  simp [bind_eq_error, never]

theorem map_eq_ok {image : α → β} {result : β} :
    source.map image = .ok result ↔ ∃ value, source = .ok value ∧ image value = result := by
  cases source <;> simp [Except.map]

theorem map_eq_error {image : α → β} {error : ε} :
    source.map image = .error error ↔ source = .error error := by
  cases source <;> simp [Except.map]

/-! ## Lists, item by item -/

section Items

variable {image : α → Except ε β} {items : List α}

theorem exists_mapM_eq_ok_iff :
    (∃ images, items.mapM image = .ok images) ↔
      ∀ item ∈ items, ∃ result, image item = .ok result := by
  induction items with
  | nil => simp [pure, Except.pure]
  | cons item rest ih =>
      simp only [List.mapM_cons, bind_eq_ok, pure, Except.pure, Except.ok.injEq,
        List.forall_mem_cons, ← ih]
      constructor
      · intro ⟨_, result, first, others, behind, _⟩
        exact ⟨⟨result, first⟩, others, behind⟩
      · intro ⟨⟨result, first⟩, others, behind⟩
        exact ⟨_, result, first, others, behind, rfl⟩

theorem mapM_cons_eq_error {item : α} {rest : List α} {error : ε} :
    (item :: rest).mapM image = .error error ↔ image item = .error error ∨
      ∃ result, image item = .ok result ∧ rest.mapM image = .error error := by
  simp [List.mapM_cons, bind_eq_error, pure, Except.pure]

/-- The failure is that of the first item that fails. -/
theorem mapM_eq_error_iff {error : ε} :
    items.mapM image = .error error ↔ ∃ (position : Nat) (item : α),
      items[position]? = some item ∧ image item = .error error ∧
        ∀ index < position, ∀ other, items[index]? = some other →
          ∃ result, image other = .ok result := by
  induction items with
  | nil => simp [pure, Except.pure]
  | cons item rest ih =>
      rw [mapM_cons_eq_error, ih]
      constructor
      · rintro (fails | ⟨result, succeeds, position, found, here, fails, before⟩)
        · exact ⟨0, item, rfl, fails, by simp⟩
        · refine ⟨position + 1, found, here, fails, fun index smaller other there => ?_⟩
          cases index with
          | zero => exact ⟨result, Option.some.inj there ▸ succeeds⟩
          | succ index => exact before index (Nat.lt_of_succ_lt_succ smaller) other there
      · intro ⟨position, found, here, fails, before⟩
        cases position with
        | zero => exact .inl (Option.some.inj here ▸ fails)
        | succ position =>
            obtain ⟨result, succeeds⟩ := before 0 (Nat.succ_pos position) item rfl
            exact .inr ⟨result, succeeds, position, found, here, fails,
              fun index smaller => before (index + 1) (Nat.succ_lt_succ smaller)⟩

end Items

theorem exists_of_any {accepts : α → Bool} (any : source.toOption.any accepts = true) :
    ∃ value, source = .ok value ∧ accepts value = true := by
  cases source with
  | error error => cases any
  | ok value => exact ⟨value, rfl, any⟩

/-- A result satisfies `post`, and a failure is one of the `allowed` ones. -/
def Ensures (post : α → Prop) (allowed : ε → Prop) : Except ε α → Prop
  | .ok value => post value
  | .error error => allowed error

section Ensures

variable {post : α → Prop} {allowed : ε → Prop}

theorem ensures_iff : Ensures post allowed source ↔
    (∀ value, source = .ok value → post value) ∧
      ∀ error, source = .error error → allowed error := by
  cases source <;> simp [Ensures]

theorem Ensures.bind {next : α → Except ε β} {behind : β → Prop}
    (first : Ensures post allowed source)
    (second : ∀ value, post value → Ensures behind allowed (next value)) :
    Ensures behind allowed (source >>= next) := by
  cases source with
  | error error => exact first
  | ok value => exact second value first

theorem Ensures.map {image : α → β} {behind : β → Prop} (first : Ensures post allowed source)
    (second : ∀ value, post value → behind (image value)) :
    Ensures behind allowed (source.map image) := by
  cases source with
  | error error => exact first
  | ok value => exact second value first

theorem Ensures.mono {weaker : α → Prop} {wider : ε → Prop}
    (ensures : Ensures post allowed source) (results : ∀ value, post value → weaker value)
    (failures : ∀ error, allowed error → wider error) : Ensures weaker wider source := by
  cases source with
  | error error => exact failures _ ensures
  | ok value => exact results _ ensures

/-- What a computation results in may be named where its result is used. -/
theorem Ensures.and_result (ensures : Ensures post allowed source) :
    Ensures (fun value => post value ∧ source = .ok value) allowed source := by
  cases source with
  | error error => exact ensures
  | ok value => exact ⟨ensures, rfl⟩

end Ensures

end Pipeline
