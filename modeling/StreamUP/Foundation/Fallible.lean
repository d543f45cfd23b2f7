import Mathlib.Logic.Basic

/-! Programs in sequence that stop at their first error: what a sequence computes, and when. -/

namespace Fallible

variable {ε α β : Type}

@[simp] theorem ok_bind (value : α) (next : α → Except ε β) :
    (Except.ok value >>= next : Except ε β) = next value := rfl

@[simp] theorem error_bind (error : ε) (next : α → Except ε β) :
    (Except.error error >>= next : Except ε β) = .error error := rfl

@[simp] theorem pure_eq_ok (value : α) : (pure value : Except ε α) = .ok value := rfl

/-- A sequence succeeds exactly when its first part does and its second does from there. -/
theorem bind_eq_ok {first : Except ε α} {next : α → Except ε β} {result : β} :
    (first >>= next) = .ok result ↔ ∃ value, first = .ok value ∧ next value = .ok result := by
  -- An error of the first part is the error of the sequence.
  cases first <;> simp

end Fallible
