/-! When a chain of steps that may fail succeeds, and when it fails. -/

namespace SchemaBindings

theorem bind_eq_ok {ε α β : Type} (x : Except ε α) (f : α → Except ε β) (b : β) :
    (x >>= f) = .ok b ↔ ∃ a, x = .ok a ∧ f a = .ok b := by
  cases x <;> simp [bind, Except.bind]

theorem bind_eq_error {ε α β : Type} (x : Except ε α) (f : α → Except ε β) (e : ε) :
    (x >>= f) = .error e ↔ x = .error e ∨ ∃ a, x = .ok a ∧ f a = .error e := by
  cases x <;> simp [bind, Except.bind]

theorem pure_ne_error {ε α : Type} (a : α) (e : ε) : ¬ (pure a : Except ε α) = .error e := by
  simp [pure, Except.pure]

theorem pure_eq_ok {ε α : Type} (a b : α) : (pure a : Except ε α) = .ok b ↔ a = b := by
  simp [pure, Except.pure]

/-- Where a step is followed by nothing but its result, it is the step that fails. -/
theorem error_of_bind_pure {ε α β : Type} {x : Except ε α} {f : α → β} {e : ε}
    (failed : (x >>= fun a => pure (f a)) = .error e) : x = .error e := by
  rcases (bind_eq_error ..).1 failed with failed | ⟨a, -, failed⟩
  · exact failed
  · exact absurd failed (pure_ne_error (f a) e)

/-- The fault of a step that failed. -/
def fault? {ε α : Type} : Except ε α → Option ε
  | .ok _ => none
  | .error e => some e

theorem eq_error_of_fault? {ε α : Type} {x : Except ε α} {e : ε} (fails : fault? x = some e) :
    x = .error e := by
  cases x with
  | ok a => cases fails
  | error other => rw [Option.some.inj fails]

theorem eq_ok_of_toOption {ε α : Type} {x : Except ε α} {a : α} (succeeds : x.toOption = some a) :
    x = .ok a := by
  cases x with
  | ok b => exact congrArg _ (Option.some.inj succeeds)
  | error fault => cases succeeds

theorem exists_of_isOk {ε α : Type} {x : Except ε α} (succeeds : x.isOk = true) :
    ∃ a, x = .ok a := by
  cases x with
  | ok a => exact ⟨a, rfl⟩
  | error fault => cases succeeds

end SchemaBindings
