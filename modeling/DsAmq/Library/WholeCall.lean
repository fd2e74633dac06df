import DsAmq.Library.Machine

/-!
# A call, statement by statement and as a whole

A machine runs a call statement by statement and learns on the way how the calls it makes to the
outside end.  A function of all these outcomes says what the whole call does; `rest o s` is what
it says of the part from the state `s` on.  The two agree when

* every step can be foreseen: whatever outcomes the rest of the call meets, the step and the rest
  are what the whole does for some outcomes (`exists_outcome_of_run`);
* every outcome can be met: until the call has ended there is a step after which the rest is the
  same (`exists_run_of_outcome`).
-/

set_option autoImplicit false

namespace DsAmq.Library.Machine

variable {σ α ω χ : Type} {M : Machine σ α}

/-- **From runs to outcomes.** -/
theorem exists_outcome_of_run (rest : ω → σ → χ)
    (hstep : ∀ s a s', M.step s a = some s' → ∀ o', ∃ o, rest o s = rest o' s')
    {s s' : σ} {as : List α} (hrun : M.run s as = some s') (o' : ω) :
    ∃ o, rest o s = rest o' s' := by
  induction as generalizing s with
  | nil =>
      rw [run_nil, Option.some.injEq] at hrun
      exact ⟨o', by rw [hrun]⟩
  | cons a as ih =>
      obtain ⟨t, ht, hrun⟩ := run_cons_eq_some.mp hrun
      obtain ⟨o₁, ho₁⟩ := ih hrun
      obtain ⟨o, ho⟩ := hstep s a t ht o₁
      exact ⟨o, ho.trans ho₁⟩

/-- **From outcomes to runs**, for fixed outcomes.  `size` bounds the number of steps that are
left, and `Good` is what the steps may rely on. -/
theorem exists_run_of_outcome (rest : σ → χ) (Good : χ → Prop) (final : σ → Prop) (size : σ → ℕ)
    (hstep : ∀ s, ¬ final s → Good (rest s) →
      ∃ a s', M.step s a = some s' ∧ rest s' = rest s ∧ size s' < size s)
    (s : σ) (hgood : Good (rest s)) :
    ∃ as s', M.run s as = some s' ∧ final s' ∧ rest s' = rest s := by
  induction hn : size s using Nat.strongRecOn generalizing s with
  | ind n ih =>
      by_cases hfinal : final s
      · exact ⟨[], s, run_nil s, hfinal, rfl⟩
      · obtain ⟨a, t, ht, hrest, hlt⟩ := hstep s hfinal hgood
        obtain ⟨as, s', hrun, hs', hrest'⟩ := ih (size t) (hn ▸ hlt) t (hrest ▸ hgood) rfl
        exact ⟨a :: as, s', run_cons_eq_some.mpr ⟨t, ht, hrun⟩, hs', hrest'.trans hrest⟩

end DsAmq.Library.Machine
