import DsAmq.Library.Machine

/-!
# Two runs that differ in hidden actions

Some actions of a machine are visible and the others are hidden.  `Unwinding` states the conditions
on single steps under which the hidden actions make no difference: a hidden action keeps its state
related to every state it was related to, and shows nothing; a visible action, taken in two related
states, leads to related states and shows the same.  Then two runs with the same visible actions
show the same (`Unwinding.two_runs`), however the hidden ones are spread over them.
-/

set_option autoImplicit false

namespace DsAmq.Library.Machine

variable {σ α β : Type}

/-- The conditions on the steps, for the hidden actions that satisfy `P`; `f s a` is what the action
`a` shows in the state `s`. -/
structure Unwinding (M : Machine σ α) (R : σ → σ → Prop) (visible : α → Bool)
    (P : σ → α → Prop) (f : σ → α → Option β) : Prop where
  symm : ∀ s t, R s t → R t s
  hidden : ∀ s t a s', R s t → visible a = false → P s a → M.step s a = some s' → R s' t
  silent : ∀ s a, visible a = false → f s a = none
  matched : ∀ s t a s' t', R s t → visible a = true → M.step s a = some s' →
    M.step t a = some t' → R s' t' ∧ f s a = f t a

namespace Unwinding

variable {M : Machine σ α} {R : σ → σ → Prop} {visible : α → Bool} {P : σ → α → Prop}
  {f : σ → α → Option β} {s s' t t' : σ} {as bs : List α}

/-- A run of hidden actions keeps the relation and shows nothing. -/
theorem hidden_run (h : Unwinding M R visible P f) (hR : R s t)
    (hhidden : ∀ a ∈ as, visible a = false) (hP : M.Meets P s as)
    (hrun : M.run s as = some s') : R s' t ∧ M.collect f s as = [] := by
  induction as generalizing s with
  | nil =>
      rw [run_nil, Option.some.injEq] at hrun
      exact ⟨hrun ▸ hR, rfl⟩
  | cons a as ih =>
      obtain ⟨u, hu, hrun⟩ := run_cons_eq_some.mp hrun
      have ha : visible a = false := hhidden a List.mem_cons_self
      have hRu : R u t := h.hidden s t a u hR ha hP.1 hu
      obtain ⟨hR', hout⟩ := ih hRu (fun b hb => hhidden b (List.mem_cons_of_mem a hb))
        (hP.2 u hu) hrun
      refine ⟨hR', ?_⟩
      rw [collect_cons as hu, h.silent s a ha, hout]
      rfl

/-- **Two runs with the same visible actions show the same.** -/
theorem two_runs (h : Unwinding M R visible P f) (hR : R s t)
    (heq : as.filter visible = bs.filter visible) (hPs : M.Meets P s as)
    (hPt : M.Meets P t bs) (hrun : M.run s as = some s') (hrun' : M.run t bs = some t') :
    R s' t' ∧ M.collect f s as = M.collect f t bs := by
  -- along the first run; the second one catches up at each visible action
  induction as generalizing s t bs with
  | nil =>
      rw [run_nil, Option.some.injEq] at hrun
      have hhidden : ∀ b ∈ bs, visible b = false := by
        intro b hb
        have := List.filter_eq_nil_iff.mp heq.symm b hb
        exact Bool.not_eq_true _ ▸ this
      obtain ⟨hR', hout⟩ := h.hidden_run (h.symm s t hR) hhidden hPt hrun'
      exact ⟨hrun ▸ h.symm t' s hR', hout.symm⟩
  | cons a as ih =>
      obtain ⟨u, hu, hrun⟩ := run_cons_eq_some.mp hrun
      rw [collect_cons as hu]
      cases ha : visible a with
      | false =>
          rw [List.filter_cons_of_neg (by simp [ha])] at heq
          rw [h.silent s a ha]
          exact ih (h.hidden s t a u hR ha hPs.1 hu) heq (hPs.2 u hu) hPt hrun hrun'
      | true =>
          rw [List.filter_cons_of_pos ha] at heq
          obtain ⟨pre, post, rfl, hpre, -, hpost⟩ := List.filter_eq_cons_iff.mp heq.symm
          obtain ⟨v, hv, hrun'⟩ := Option.bind_eq_some_iff.mp (run_append t pre _ ▸ hrun')
          obtain ⟨hPpre, hPpost⟩ := meets_append hPt hv
          obtain ⟨hRv, hout⟩ := h.hidden_run (h.symm s t hR)
            (fun b hb => by simpa using hpre b hb) hPpre hv
          obtain ⟨x, hx, hrun'⟩ := run_cons_eq_some.mp hrun'
          obtain ⟨hRx, hshow⟩ := h.matched s v a u x (h.symm v s hRv) ha hu hx
          obtain ⟨hR', hrest⟩ := ih hRx hpost.symm (hPs.2 u hu) (hPpost.2 x hx) hrun hrun'
          refine ⟨hR', ?_⟩
          rw [collect_append _ hv, hout, collect_cons post hx, hshow, hrest]
          rfl

end Unwinding

end DsAmq.Library.Machine
