import Mathlib.Data.List.Nodup
import Mathlib.Order.Bounds.Defs
import DsAmq.Library.Machine

/-!
# A cursor that sweeps over numbered positions

The states of a machine have a set of busy positions and a cursor.  A visit returns the least busy
position from the cursor on and puts the cursor behind it; all other actions leave the cursor alone,
and may make any position busy or idle, on both sides of it (`Sweep`).  `Sweep.swept` says what a
run has visited between the cursor it starts with and the one it ends with: positions in increasing
order, each busy when it was visited, and among them all that stayed busy.
-/

set_option autoImplicit false

namespace DsAmq.Library

variable {σ α : Type}

/-- In the states that satisfy `I`, the steps that satisfy `P` work on the cursor as a sweep does:
`visit a` is the position that the action `a` returns, if it is a visit. -/
structure Sweep (M : Machine σ α) (I : σ → Prop) (P : σ → α → Prop) (busy : σ → Set ℕ)
    (cursor : σ → ℕ) (visit : α → Option ℕ) : Prop where
  inv : ∀ s a s', I s → P s a → M.step s a = some s' → I s'
  other : ∀ s a s', I s → P s a → M.step s a = some s' → visit a = none → cursor s' = cursor s
  next : ∀ s a s' k, I s → P s a → M.step s a = some s' → visit a = some k →
    IsLeast {j | j ∈ busy s ∧ cursor s ≤ j} k ∧ cursor s' = k + 1

/-- What has been visited on the way from `s` to `s'`. -/
structure Swept (M : Machine σ α) (busy : σ → Set ℕ) (cursor : σ → ℕ) (visit : α → Option ℕ)
    (s : σ) (as : List α) (s' : σ) : Prop where
  sorted : (as.filterMap visit).Pairwise (· < ·)
  above : ∀ k ∈ as.filterMap visit, cursor s ≤ k
  below : cursor s + (as.filterMap visit).length ≤ cursor s'
  visited : M.Meets (fun s a => ∀ k, visit a = some k → k ∈ busy s) s as
  complete : ∀ k, M.Always (fun s => k ∈ busy s) s as → cursor s ≤ k → k < cursor s' →
    k ∈ as.filterMap visit

variable {M : Machine σ α} {I : σ → Prop} {P : σ → α → Prop} {busy : σ → Set ℕ} {cursor : σ → ℕ}
  {visit : α → Option ℕ} {s s' t : σ} {a : α} {as : List α} {k : ℕ}

/-- A run that has not begun. -/
theorem Swept.nil (s : σ) : Swept M busy cursor visit s [] s := by
  refine ⟨List.Pairwise.nil, ?_, Nat.le_refl _, trivial, ?_⟩
  · intro k hk
    cases hk
  · intro k _ hle hlt
    omega

/-- A step that is no visit comes first. -/
theorem Swept.other (hstep : M.step s a = some t) (hvisit : visit a = none)
    (hcursor : cursor t = cursor s) (h : Swept M busy cursor visit t as s') :
    Swept M busy cursor visit s (a :: as) s' := by
  have hvisits : (a :: as).filterMap visit = as.filterMap visit :=
    List.filterMap_cons_none hvisit
  constructor
  · rw [hvisits]
    exact h.sorted
  · rw [hvisits, ← hcursor]
    exact h.above
  · rw [hvisits, ← hcursor]
    exact h.below
  · apply (Machine.meets_cons_iff hstep).mpr
    refine ⟨?_, h.visited⟩
    intro k hk
    rw [hvisit] at hk
    cases hk
  · intro k hbusy hle hlt
    rw [hvisits]
    rw [← hcursor] at hle
    exact h.complete k (hbusy.2 t hstep) hle hlt

/-- A visit comes first. -/
theorem Swept.next (hstep : M.step s a = some t) (hvisit : visit a = some k)
    (hleast : IsLeast {j | j ∈ busy s ∧ cursor s ≤ j} k) (hcursor : cursor t = k + 1)
    (h : Swept M busy cursor visit t as s') : Swept M busy cursor visit s (a :: as) s' := by
  have hvisits : (a :: as).filterMap visit = k :: as.filterMap visit :=
    List.filterMap_cons_some hvisit
  obtain ⟨⟨hbusy, hle⟩, hmin⟩ := hleast
  constructor
  · rw [hvisits, List.pairwise_cons]
    refine ⟨?_, h.sorted⟩
    intro j hj
    have := h.above j hj
    omega
  · rw [hvisits]
    intro j hj
    rcases List.mem_cons.mp hj with rfl | hj
    · exact hle
    · have := h.above j hj
      omega
  · have := h.below
    rw [hvisits, List.length_cons]
    omega
  · apply (Machine.meets_cons_iff hstep).mpr
    refine ⟨?_, h.visited⟩
    intro j hj
    obtain rfl := Option.some.inj (hvisit.symm.trans hj)
    exact hbusy
  · intro j hstays hj hlt
    rw [hvisits, List.mem_cons]
    -- a position below `k` would have been visited instead of `k`
    have hkj : k ≤ j := hmin ⟨hstays.1, hj⟩
    rcases Nat.eq_or_lt_of_le hkj with rfl | hkj
    · exact .inl rfl
    · exact .inr (h.complete j (hstays.2 t hstep) (by omega) hlt)

/-- **The sweep.**  What a run visits, whatever it does between the visits. -/
theorem Sweep.swept (h : Sweep M I P busy cursor visit) (hs : I s) (hP : M.Meets P s as)
    (hrun : M.run s as = some s') : Swept M busy cursor visit s as s' := by
  induction as generalizing s with
  | nil =>
      rw [Machine.run_nil, Option.some.injEq] at hrun
      rw [← hrun]
      exact Swept.nil s
  | cons a as ih =>
      obtain ⟨t, ht, hrun⟩ := Machine.run_cons_eq_some.mp hrun
      have hrest := ih (h.inv s a t hs hP.1 ht) (hP.2 t ht) hrun
      cases hvisit : visit a with
      | none => exact hrest.other ht hvisit (h.other s a t hs hP.1 ht hvisit)
      | some k =>
          obtain ⟨hleast, hcursor⟩ := h.next s a t k hs hP.1 ht hvisit
          exact hrest.next ht hvisit hleast hcursor

/-- No position is visited twice. -/
theorem Swept.count_eq_one (h : Swept M busy cursor visit s as s')
    (hk : k ∈ as.filterMap visit) : (as.filterMap visit).count k = 1 := by
  have hnodup : (as.filterMap visit).Nodup := h.sorted.imp fun hlt => Nat.ne_of_lt hlt
  exact List.count_eq_one_of_mem hnodup hk

end DsAmq.Library
