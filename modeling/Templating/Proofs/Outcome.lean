/-!
# Outcomes of steps that may fail

When a computation that may fail is put together from others, it succeeds exactly when
its parts do. These equations take such computations apart.
-/

namespace Templating

universe u v

variable {ε ε' : Type u} {α β : Type v}

/-- Two steps succeed when the first one does and then the second one. -/
theorem bind_eq_ok_iff {first : Except ε α} {second : α → Except ε β} {result : β} :
    (first >>= second) = .ok result ↔ ∃ value, first = .ok value ∧ second value = .ok result := by
  cases first with
  | error fault =>
    constructor
    · intro same
      cases same
    · rintro ⟨value, same, -⟩
      cases same
  | ok value =>
    constructor
    · intro same
      exact ⟨value, rfl, same⟩
    · rintro ⟨other, same, more⟩
      cases same
      exact more

/-- What is done with a result does not fail. -/
theorem map_eq_ok_iff {outcome : Except ε α} {f : α → β} {result : β} :
    outcome.map f = .ok result ↔ ∃ value, outcome = .ok value ∧ f value = result := by
  cases outcome with
  | error fault =>
    constructor
    · intro same
      cases same
    · rintro ⟨value, same, -⟩
      cases same
  | ok value =>
    constructor
    · intro same
      exact ⟨value, rfl, Except.ok.inj same⟩
    · rintro ⟨other, same, rfl⟩
      cases same
      rfl

/-- Restating a fault leaves a result as it is. -/
theorem mapError_eq_ok_iff {outcome : Except ε α} {f : ε → ε'} {result : α} :
    outcome.mapError f = .ok result ↔ outcome = .ok result := by
  cases outcome with
  | error fault =>
    constructor
    · intro same
      cases same
    · intro same
      cases same
  | ok value =>
    constructor
    · intro same
      cases same
      rfl
    · intro same
      cases same
      rfl

/-- Two steps fail when the first one does, or else the second one. -/
theorem bind_eq_error_iff {first : Except ε α} {second : α → Except ε β} {fault : ε} :
    (first >>= second) = .error fault ↔
      first = .error fault ∨ ∃ value, first = .ok value ∧ second value = .error fault := by
  cases first with
  | error other =>
    constructor
    · intro same
      cases same
      exact .inl rfl
    · rintro (same | ⟨value, same, -⟩)
      · cases same
        rfl
      · cases same
  | ok value =>
    constructor
    · intro same
      exact .inr ⟨value, rfl, same⟩
    · rintro (same | ⟨other, same, fails⟩)
      · cases same
      · cases same
        exact fails

/-- What is done with a result has the faults of the outcome. -/
theorem map_eq_error_iff {outcome : Except ε α} {f : α → β} {fault : ε} :
    outcome.map f = .error fault ↔ outcome = .error fault := by
  cases outcome with
  | error other =>
    constructor
    · intro same
      cases same
      rfl
    · intro same
      cases same
      rfl
  | ok value =>
    constructor
    · intro same
      cases same
    · intro same
      cases same

/-- Restating a fault gives its new name to each fault. -/
theorem mapError_eq_error_iff {outcome : Except ε α} {f : ε → ε'} {fault : ε'} :
    outcome.mapError f = .error fault ↔ ∃ other, outcome = .error other ∧ f other = fault := by
  cases outcome with
  | error other =>
    constructor
    · intro same
      exact ⟨other, rfl, Except.error.inj same⟩
    · rintro ⟨another, same, rfl⟩
      cases same
      rfl
  | ok value =>
    constructor
    · intro same
      cases same
    · rintro ⟨another, same, -⟩
      cases same

end Templating
