import Mathlib.Data.List.Basic

/-!
# A bounded scan with a fallible test

`scan test i k` looks at the `k` indices from `i` on, in this order, and stops at the first
one that passes the test; a test that fails with an error stops the scan with that error.
As long as no test in the range fails, the scan finds the least index that passes.
-/

set_option autoImplicit false

namespace DsAmq.Library

variable {ε : Type}

/-- The first of the `k` indices from `i` on that passes `test`. -/
def scan (test : ℕ → Except ε Bool) (i : ℕ) : ℕ → Except ε (Option ℕ)
  | 0 => .ok none
  | k + 1 =>
      match test i with
      | .error e => .error e
      | .ok true => .ok (some i)
      | .ok false => scan test (i + 1) k

/-- A scan in which no test fails is a search in the range. -/
theorem scan_eq_find? {test : ℕ → Except ε Bool} {b : ℕ → Bool} (k i : ℕ)
    (h : ∀ j, i ≤ j → j < i + k → test j = .ok (b j)) :
    scan test i k = .ok ((List.range' i k).find? b) := by
  induction k generalizing i with
  | zero => rfl
  | succ k ih =>
      have hi : test i = .ok (b i) := h i (Nat.le_refl i) (by omega)
      have hrest := ih (i + 1) fun j hj hj' => h j (by omega) (by omega)
      simp only [scan, hi, List.range'_succ, List.find?_cons]
      cases b i with
      | true => rfl
      | false => exact hrest

/-- **The scan finds the least index that passes.** -/
theorem scan_eq_some {test : ℕ → Except ε Bool} {b : ℕ → Bool} {k i j : ℕ}
    (h : ∀ j, i ≤ j → j < i + k → test j = .ok (b j)) (hj : i ≤ j) (hjk : j < i + k)
    (hb : b j = true) (hmin : ∀ l, i ≤ l → l < j → b l = false) :
    scan test i k = .ok (some j) := by
  rw [scan_eq_find? k i h]
  congr 1
  rw [List.find?_range'_eq_some, List.mem_range'_1]
  refine ⟨hb, ⟨hj, hjk⟩, fun l hl hlj => ?_⟩
  rw [hmin l hl hlj]
  rfl

/-- What a scan has found, whatever the tests do elsewhere. -/
theorem of_scan_eq_some {test : ℕ → Except ε Bool} {k i j : ℕ} (h : scan test i k = .ok (some j)) :
    i ≤ j ∧ j < i + k ∧ test j = .ok true ∧ ∀ l, i ≤ l → l < j → test l = .ok false := by
  induction k generalizing i with
  | zero => cases h
  | succ k ih =>
      unfold scan at h
      split at h
      · cases h
      · rename_i hi
        cases h
        refine ⟨Nat.le_refl _, by omega, hi, ?_⟩
        intro l hl hlt
        omega
      · rename_i hi
        obtain ⟨hle, hlt, hj, hbefore⟩ := ih h
        refine ⟨by omega, by omega, hj, ?_⟩
        intro l hl hlj
        rcases Nat.eq_or_lt_of_le hl with rfl | hl
        · exact hi
        · exact hbefore l hl hlj

/-- A scan that stops with an error has come to a test that fails. -/
theorem of_scan_eq_error {test : ℕ → Except ε Bool} {k i : ℕ} {e : ε}
    (h : scan test i k = .error e) : ∃ j, i ≤ j ∧ j < i + k ∧ test j = .error e := by
  induction k generalizing i with
  | zero => cases h
  | succ k ih =>
      unfold scan at h
      split at h
      · rename_i e' hi
        cases h
        exact ⟨i, Nat.le_refl i, by omega, hi⟩
      · cases h
      · obtain ⟨j, hle, hlt, hj⟩ := ih h
        exact ⟨j, by omega, by omega, hj⟩

/-- A scan that finds nothing has seen every index of its range. -/
theorem of_scan_eq_none {test : ℕ → Except ε Bool} {k i : ℕ} (h : scan test i k = .ok none) :
    ∀ l, i ≤ l → l < i + k → test l = .ok false := by
  induction k generalizing i with
  | zero =>
      intro l hl hlt
      omega
  | succ k ih =>
      unfold scan at h
      split at h
      · cases h
      · cases h
      · rename_i hi
        intro l hl hlt
        rcases Nat.eq_or_lt_of_le hl with rfl | hl
        · exact hi
        · exact ih h l hl (by omega)

/-- Where nothing passes, the scan comes to its end or to a test that fails. -/
theorem scan_of_false {test : ℕ → Except ε Bool} {e : ε} (k i : ℕ)
    (h : ∀ j, test j = .ok false ∨ test j = .error e) :
    scan test i k = .ok none ∨ scan test i k = .error e := by
  induction k generalizing i with
  | zero => exact Or.inl rfl
  | succ k ih =>
      unfold scan
      rcases h i with hi | hi
      · rw [hi]
        exact ih (i + 1)
      · rw [hi]
        exact Or.inr rfl

end DsAmq.Library
