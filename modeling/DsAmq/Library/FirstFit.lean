import Mathlib.Data.Finset.Erase
import Mathlib.Data.Finset.Insert
import Mathlib.Data.Finset.Range
import DsAmq.Library.Machine

/-!
# A first-fit allocator of numbers

The allocator hands out the numbers below `n`; its state is the set of those in use.  A request is
answered with the least idle number, and with none exactly when all are in use; a number that is
given back becomes idle, and giving back an idle number changes nothing.  The answer is part of
the label of a request, so that a run of the machine is a sequence of requests with the right
answers.
-/

set_option autoImplicit false

namespace DsAmq.Library.FirstFit

/-- A request with its answer, or a number that is given back. -/
inductive Label where
  | alloc (answer : Option ℕ)
  | free (k : Option ℕ)
deriving DecidableEq, Repr

/-- The least number below `n` that is not in use. -/
def firstIdle (n : ℕ) (used : Finset ℕ) : Option ℕ := (List.range n).find? fun k => k ∉ used

/-- The allocator of the numbers below `n`. -/
def machine (n : ℕ) : Machine (Finset ℕ) Label where
  step used
    | .alloc answer =>
        if answer = firstIdle n used then
          some (match answer with
            | some k => insert k used
            | none => used)
        else none
    | .free (some k) => some (used.erase k)
    | .free none => some used

variable {n k : ℕ} {used : Finset ℕ}

theorem firstIdle_eq_some :
    firstIdle n used = some k ↔ k < n ∧ k ∉ used ∧ ∀ j < k, j ∈ used := by
  unfold firstIdle
  rw [List.find?_range_eq_some]
  simp only [decide_not, Bool.not_eq_true', decide_eq_false_iff_not, List.mem_range,
    decide_eq_true_eq, Bool.not_not]
  constructor
  · rintro ⟨hk, hlt, hmin⟩
    exact ⟨hlt, hk, hmin⟩
  · rintro ⟨hlt, hk, hmin⟩
    exact ⟨hk, hlt, hmin⟩

theorem firstIdle_eq_none : firstIdle n used = none ↔ ∀ j < n, j ∈ used := by
  unfold firstIdle
  simp only [List.find?_eq_none, List.mem_range, decide_not, Bool.not_eq_true',
    Bool.not_eq_false, decide_eq_true_eq]

/-- A request that is answered with the least idle number puts it in use. -/
theorem step_alloc_some (h : firstIdle n used = some k) :
    (machine n).step used (.alloc (some k)) = some (insert k used) := by
  simp only [machine, h, if_true]

/-- A request when all are in use. -/
theorem step_alloc_none (h : firstIdle n used = none) :
    (machine n).step used (.alloc none) = some used := by
  simp only [machine, h, if_true]

end DsAmq.Library.FirstFit
