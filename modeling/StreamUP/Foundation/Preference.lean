import Mathlib.Data.List.Basic
import Mathlib.Data.List.Find

/-! Choosing from what is offered by an order of preference, as a list that may repeat itself. -/

namespace Preference

variable {α : Type} [DecidableEq α]

/-- The first element of the order that is offered. -/
def preferred (order offered : List α) : Option α :=
  order.find? fun candidate => decide (candidate ∈ offered)

/-- The front of the order is preferred when it is offered, and otherwise the rest decides. -/
theorem preferred_cons (first : α) (order offered : List α) :
    preferred (first :: order) offered
      = if first ∈ offered then some first else preferred order offered := by
  by_cases offer : first ∈ offered <;> simp [preferred, offer]

/-- What is preferred is in the order, and it is offered. -/
theorem mem_of_preferred {order offered : List α} {chosen : α}
    (found : preferred order offered = some chosen) : chosen ∈ order ∧ chosen ∈ offered := by
  -- The search ends at an element of the order that passes its test.
  refine ⟨List.mem_of_find?_eq_some found, ?_⟩
  have passed := List.find?_some found
  exact of_decide_eq_true passed

/-- Nothing is preferred exactly when nothing in the order is offered. -/
theorem preferred_eq_none {order offered : List α} :
    preferred order offered = none ↔ ∀ candidate ∈ offered, candidate ∉ order := by
  -- The search looks through the order, so the two memberships change places.
  simp only [preferred, List.find?_eq_none, decide_eq_true_eq]
  exact ⟨fun absent candidate offered ordered => absent candidate ordered offered,
    fun absent candidate ordered offered => absent candidate offered ordered⟩

/-- Only the elements of the order matter among those that are offered. -/
theorem preferred_congr {order offered offered' : List α}
    (same : ∀ candidate ∈ order, candidate ∈ offered ↔ candidate ∈ offered') :
    preferred order offered = preferred order offered' :=
  List.find?_congr fun candidate ordered => decide_eq_decide.mpr (same candidate ordered)

/-- What is preferred stays so when the order goes on behind it. -/
theorem preferred_append_of_some {order offered : List α} {chosen : α}
    (found : preferred order offered = some chosen) (more : List α) :
    preferred (order ++ more) offered = some chosen := by
  -- The search ends before it comes to what has been added.
  rw [preferred, List.find?_append, ← preferred, found, Option.some_or]

/--
One more offer is chosen exactly when it comes earlier in the order than what was chosen before.

A repeated offer comes no earlier than itself, so it changes nothing.
-/
theorem preferred_concat (order offered : List α) (last : α) :
    preferred order (offered ++ [last])
      = if last ∈ order ∧ ∀ best, preferred order offered = some best →
            order.idxOf last < order.idxOf best
        then some last else preferred order offered := by
  -- The order is searched from its front, so the induction is on the order.
  induction order with
  | nil => rfl
  | cons first order ih =>
    by_cases offer : first ∈ offered
    · -- Nothing comes earlier than the front of the order.
      simp [preferred_cons, offer]
    · have later : ∀ best, preferred order offered = some best → first ≠ best := by
        rintro best found rfl
        exact offer (mem_of_preferred found).2
      rw [preferred_cons, preferred_cons, if_neg offer]
      by_cases front : first = last
      · -- The front comes earlier than all that has been offered so far.
        subst front
        rw [if_pos (by simp), if_pos]
        refine ⟨List.mem_cons_self, fun best found => ?_⟩
        rw [List.idxOf_cons_self, List.idxOf_cons_ne _ (later best found)]
        exact Nat.succ_pos _
      · -- The front is not offered, so it only moves every position by one.
        rw [if_neg (by simp [offer, front]), ih]
        simp only [List.mem_cons, Ne.symm front, false_or]
        congr 2
        refine propext (forall_congr' fun best => imp_congr_right fun found => ?_)
        rw [List.idxOf_cons_ne _ front, List.idxOf_cons_ne _ (later best found),
          Nat.succ_lt_succ_iff]

end Preference
