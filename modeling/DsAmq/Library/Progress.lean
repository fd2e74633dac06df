import DsAmq.Library.Machine

/-!
# Runs that come to an end

`size` says how much a machine still has to do.

* `size_add_countP_le` and `size_add_countP_le_of_meets` keep the account of a run: the steps that
  work use the size up, the steps that feed add to it, so that a run cannot work more than it was
  fed.
* `exists_run_to_final` brings a machine to its end: where there is always a step that makes the
  size smaller, until the machine is in a final state, finitely many such steps lead to one.
* `always_of_meets` is the invariant rule for what holds throughout a run.
-/

set_option autoImplicit false

namespace DsAmq.Library.Machine

variable {σ α : Type} {M : Machine σ α}

/-- **The account of a run** whose steps satisfy `P` and keep `I`. -/
theorem size_add_countP_le_of_meets {I : σ → Prop} {P : σ → α → Prop} (size : σ → ℕ)
    (works feeds : α → Bool) (k : ℕ)
    (hstep : ∀ s a s', I s → P s a → M.step s a = some s' →
      I s' ∧ size s' + (works a).toNat ≤ size s + k * (feeds a).toNat)
    {s s' : σ} {as : List α} (hs : I s) (hP : M.Meets P s as) (hrun : M.run s as = some s') :
    size s' + as.countP works ≤ size s + k * as.countP feeds := by
  induction as generalizing s with
  | nil =>
      rw [run_nil, Option.some.injEq] at hrun
      rw [hrun, List.countP_nil, List.countP_nil]
      exact Nat.le_add_right _ _
  | cons a as ih =>
      obtain ⟨t, ht, hrun⟩ := run_cons_eq_some.mp hrun
      obtain ⟨hI, hfirst⟩ := hstep s a t hs hP.1 ht
      have hrest := ih hI (hP.2 t ht) hrun
      have hworks : (a :: as).countP works = as.countP works + (works a).toNat := by
        rw [List.countP_cons]
        cases works a <;> rfl
      have hfeeds : (a :: as).countP feeds = as.countP feeds + (feeds a).toNat := by
        rw [List.countP_cons]
        cases feeds a <;> rfl
      rw [hworks, hfeeds, Nat.mul_add]
      omega

/-- **A machine that can always move on comes to its end**, by steps that satisfy `P`. -/
theorem exists_run_to_final {I final : σ → Prop} {P : σ → α → Prop} (size : σ → ℕ)
    (hmove : ∀ s, I s → ¬ final s →
      ∃ a s', P s a ∧ M.step s a = some s' ∧ size s' < size s ∧ I s')
    (s : σ) (hs : I s) :
    ∃ as s', M.Meets P s as ∧ M.run s as = some s' ∧ final s' ∧ I s' := by
  induction hn : size s using Nat.strongRecOn generalizing s with
  | ind n ih =>
      by_cases hfinal : final s
      · exact ⟨[], s, trivial, run_nil s, hfinal, hs⟩
      · obtain ⟨a, t, ha, ht, hlt, hI⟩ := hmove s hs hfinal
        obtain ⟨as, s', has, hrun, hs'⟩ := ih (size t) (hn ▸ hlt) t hI rfl
        exact ⟨a :: as, s', (meets_cons_iff ht).mpr ⟨ha, has⟩,
          run_cons_eq_some.mpr ⟨t, ht, hrun⟩, hs'⟩

/-- What every step that satisfies `C` keeps holds throughout a run. -/
theorem always_of_meets {I P : σ → Prop} {C : σ → α → Prop}
    (hstep : ∀ s a s', I s → C s a → M.step s a = some s' → I s') (hIP : ∀ s, I s → P s)
    {s : σ} {as : List α} (hs : I s) (hC : M.Meets C s as) : M.Always P s as := by
  induction as generalizing s with
  | nil => exact hIP s hs
  | cons a as ih =>
      refine ⟨hIP s hs, ?_⟩
      intro t ht
      exact ih (hstep s a t hs hC.1 ht) (hC.2 t ht)

end DsAmq.Library.Machine
