import Mathlib.Data.List.Basic

/-!
# Labelled machines, their runs and their invariants

A machine is a partial step function: `step s a` is the state after the action `a`, and
`none` where `a` is not enabled in `s`.  A run is a list of actions, taken from left to
right (`run`).  Nothing here is about a particular program.

* `run_inv` is the invariant rule: what every step keeps holds after every run.  Its form
  `run_inv_of_meets` only asks for the steps that satisfy a condition on the action and on
  the state before it, for the runs all of whose steps satisfy it (`Meets`).
* `Always P` says that `P` holds in every state a run passes through, its first and its
  last included; `always_iff_meets` reduces it to a condition on the single steps.
* `Simulation` is a forward simulation in which a concrete step is matched by the abstract
  run of the labels that the step shows; `Simulation.run` lifts it to whole runs.
-/

set_option autoImplicit false

namespace DsAmq.Library

/-- A labelled machine: a partial step function on the states. -/
structure Machine (σ α : Type) where
  step : σ → α → Option σ

namespace Machine

variable {σ τ α β : Type}

/-- The state after a list of actions, if every one of them is enabled in turn. -/
def run (M : Machine σ α) : σ → List α → Option σ
  | s, [] => some s
  | s, a :: as => (M.step s a).bind fun s' => M.run s' as

/-- Every step of the run satisfies `P`, a condition on the action and on the state it is
taken in. -/
def Meets (M : Machine σ α) (P : σ → α → Prop) : σ → List α → Prop
  | _, [] => True
  | s, a :: as => P s a ∧ ∀ s', M.step s a = some s' → M.Meets P s' as

/-- `P` holds in every state that the run passes through. -/
def Always (M : Machine σ α) (P : σ → Prop) : σ → List α → Prop
  | s, [] => P s
  | s, a :: as => P s ∧ ∀ s', M.step s a = some s' → M.Always P s' as

variable {M : Machine σ α}

@[simp] theorem run_nil (s : σ) : M.run s [] = some s := rfl

theorem run_cons (s : σ) (a : α) (as : List α) :
    M.run s (a :: as) = (M.step s a).bind fun s' => M.run s' as := rfl

/-- A run that starts with `a` takes the step `a` and goes on from there. -/
theorem run_cons_eq_some {s s' : σ} {a : α} {as : List α} :
    M.run s (a :: as) = some s' ↔ ∃ t, M.step s a = some t ∧ M.run t as = some s' := by
  rw [run_cons, Option.bind_eq_some_iff]

/-- Runs compose. -/
theorem run_append (s : σ) (as bs : List α) :
    M.run s (as ++ bs) = (M.run s as).bind fun s' => M.run s' bs := by
  induction as generalizing s with
  | nil => rfl
  | cons a as ih =>
      rw [List.cons_append, run_cons, run_cons, Option.bind_assoc]
      congr 1
      funext t
      exact ih t

/-- A machine in which every action is enabled in every state runs to the end. -/
theorem exists_run (h : ∀ s a, ∃ s', M.step s a = some s') (s : σ) (as : List α) :
    ∃ s', M.run s as = some s' := by
  induction as generalizing s with
  | nil => exact ⟨s, rfl⟩
  | cons a as ih =>
      obtain ⟨t, ht⟩ := h s a
      obtain ⟨s', hs'⟩ := ih t
      exact ⟨s', run_cons_eq_some.mpr ⟨t, ht, hs'⟩⟩

/-- **The invariant rule, with a condition on the steps.**  What every step that satisfies
`P` keeps holds after every run all of whose steps satisfy `P`. -/
theorem run_inv_of_meets {I : σ → Prop} {P : σ → α → Prop}
    (hstep : ∀ s a s', I s → P s a → M.step s a = some s' → I s')
    {s s' : σ} {as : List α} (hs : I s) (hP : M.Meets P s as) (hrun : M.run s as = some s') :
    I s' := by
  induction as generalizing s with
  | nil =>
      rw [run_nil, Option.some.injEq] at hrun
      exact hrun ▸ hs
  | cons a as ih =>
      obtain ⟨t, ht, hrun⟩ := run_cons_eq_some.mp hrun
      exact ih (hstep s a t hs hP.1 ht) (hP.2 t ht) hrun

/-- The condition on the first step and on the rest of the run. -/
theorem meets_cons_iff {P : σ → α → Prop} {s s' : σ} {a : α} {as : List α}
    (hstep : M.step s a = some s') : M.Meets P s (a :: as) ↔ P s a ∧ M.Meets P s' as := by
  constructor
  · intro h
    exact ⟨h.1, h.2 s' hstep⟩
  · rintro ⟨hP, hrest⟩
    refine ⟨hP, ?_⟩
    intro t ht
    obtain rfl := Option.some.inj (hstep.symm.trans ht)
    exact hrest

/-- A run that ends at once meets the condition if its first step does. -/
theorem meets_cons_iff_of_none {P : σ → α → Prop} {s : σ} {a : α} {as : List α}
    (hstep : M.step s a = none) : M.Meets P s (a :: as) ↔ P s a := by
  constructor
  · intro h
    exact h.1
  · intro hP
    refine ⟨hP, ?_⟩
    intro t ht
    rw [hstep] at ht
    cases ht

/-- A condition along two runs, one after the other. -/
theorem meets_append {P : σ → α → Prop} {s s' : σ} {as bs : List α}
    (hP : M.Meets P s (as ++ bs)) (hrun : M.run s as = some s') :
    M.Meets P s as ∧ M.Meets P s' bs := by
  induction as generalizing s with
  | nil =>
      rw [run_nil, Option.some.injEq] at hrun
      exact ⟨trivial, hrun ▸ hP⟩
  | cons a as ih =>
      obtain ⟨u, hu, hrun⟩ := run_cons_eq_some.mp hrun
      obtain ⟨has, hbs⟩ := ih (hP.2 u hu) hrun
      exact ⟨(meets_cons_iff hu).mpr ⟨hP.1, has⟩, hbs⟩

/-- A condition that can be evaluated at each step can be evaluated along a run. -/
instance decidableMeets {P : σ → α → Prop} [∀ s a, Decidable (P s a)] :
    (s : σ) → (as : List α) → Decidable (M.Meets P s as)
  | _, [] => isTrue trivial
  | s, a :: as =>
      match hstep : M.step s a with
      | none => decidable_of_iff _ (meets_cons_iff_of_none hstep).symm
      | some s' =>
          have : Decidable (M.Meets P s' as) := decidableMeets s' as
          decidable_of_iff _ (meets_cons_iff hstep).symm

/-- The condition `True` is met by every run. -/
theorem meets_true (s : σ) (as : List α) : M.Meets (fun _ _ => True) s as := by
  induction as generalizing s with
  | nil => trivial
  | cons a as ih => exact ⟨trivial, fun s' _ => ih s'⟩

/-- A condition is met when every action of the list satisfies it in all states. -/
theorem meets_of_forall {P : σ → α → Prop} (s : σ) {as : List α}
    (h : ∀ a ∈ as, ∀ s, P s a) : M.Meets P s as := by
  induction as generalizing s with
  | nil => trivial
  | cons a as ih =>
      exact ⟨h a List.mem_cons_self s, fun s' _ =>
        ih s' fun b hb => h b (List.mem_cons_of_mem a hb)⟩

theorem meets_and {P Q : σ → α → Prop} {s : σ} {as : List α} (hP : M.Meets P s as)
    (hQ : M.Meets Q s as) : M.Meets (fun s a => P s a ∧ Q s a) s as := by
  induction as generalizing s with
  | nil => trivial
  | cons a as ih => exact ⟨⟨hP.1, hQ.1⟩, fun s' hs' => ih (hP.2 s' hs') (hQ.2 s' hs')⟩

/-- **The invariant rule.**  What every step keeps holds after every run. -/
theorem run_inv {I : σ → Prop} (hstep : ∀ s a s', I s → M.step s a = some s' → I s')
    {s s' : σ} {as : List α} (hs : I s) (hrun : M.run s as = some s') : I s' :=
  run_inv_of_meets (P := fun _ _ => True) (fun s a s' hI _ h => hstep s a s' hI h) hs
    (meets_true s as) hrun

/-- What holds in every state of a run holds in its last. -/
theorem always_last {P : σ → Prop} {s s' : σ} {as : List α} (h : M.Always P s as)
    (hrun : M.run s as = some s') : P s' := by
  induction as generalizing s with
  | nil =>
      rw [run_nil, Option.some.injEq] at hrun
      exact hrun ▸ h
  | cons a as ih =>
      obtain ⟨t, ht, hrun⟩ := run_cons_eq_some.mp hrun
      exact ih (h.2 t ht) hrun

/-- **The invariant rule with history.**  The invariant may also speak of the actions taken
so far. -/
theorem run_inv_history {I : List α → σ → Prop} {P : σ → α → Prop}
    (hstep : ∀ as s a s', I as s → P s a → M.step s a = some s' → I (as ++ [a]) s')
    {s s' : σ} {as : List α} (hs : I [] s) (hP : M.Meets P s as)
    (hrun : M.run s as = some s') : I as s' := by
  -- what has been done before `as` is the variable of the induction
  suffices h : ∀ (pre : List α) (s : σ), I pre s → M.Meets P s as → M.run s as = some s' →
      I (pre ++ as) s' from h [] s hs hP hrun
  clear hs hP hrun
  induction as with
  | nil =>
      intro pre s hs _ hrun
      rw [run_nil, Option.some.injEq] at hrun
      rw [List.append_nil]
      exact hrun ▸ hs
  | cons a as ih =>
      intro pre s hs hP hrun
      obtain ⟨t, ht, hrun⟩ := run_cons_eq_some.mp hrun
      have h := ih (pre ++ [a]) t (hstep pre s a t hs hP.1 ht) (hP.2 t ht) hrun
      rwa [List.append_assoc, List.singleton_append] at h

/-- What the steps of a run show, one after the other: `f s a` is what the action `a` shows in the
state `s`, if anything. -/
def collect (M : Machine σ α) (f : σ → α → Option β) : σ → List α → List β
  | _, [] => []
  | s, a :: as =>
      match M.step s a with
      | none => []
      | some s' => (f s a).toList ++ M.collect f s' as

theorem collect_cons {f : σ → α → Option β} {s s' : σ} {a : α} (as : List α)
    (hstep : M.step s a = some s') :
    M.collect f s (a :: as) = (f s a).toList ++ M.collect f s' as := by
  rw [collect, hstep]

/-- What two runs, one after the other, show. -/
theorem collect_append {f : σ → α → Option β} {s s' : σ} {as : List α}
    (bs : List α) (hrun : M.run s as = some s') :
    M.collect f s (as ++ bs) = M.collect f s as ++ M.collect f s' bs := by
  induction as generalizing s with
  | nil =>
      rw [run_nil, Option.some.injEq] at hrun
      rw [hrun]
      rfl
  | cons a as ih =>
      obtain ⟨u, hu, hrun⟩ := run_cons_eq_some.mp hrun
      rw [List.cons_append, collect_cons _ hu, collect_cons as hu, ih hrun, List.append_assoc]

/-- **The invariant rule with observations.**  The invariant may also speak of what the run has
shown so far. -/
theorem run_inv_collect {I : List β → σ → Prop} {P : σ → α → Prop} {f : σ → α → Option β}
    (hstep : ∀ out s a s', I out s → P s a → M.step s a = some s' → I (out ++ (f s a).toList) s')
    {s s' : σ} {as : List α} (hs : I [] s) (hP : M.Meets P s as)
    (hrun : M.run s as = some s') : I (M.collect f s as) s' := by
  suffices h : ∀ (out : List β) (s : σ), I out s → M.Meets P s as → M.run s as = some s' →
      I (out ++ M.collect f s as) s' from h [] s hs hP hrun
  clear hs hP hrun
  induction as with
  | nil =>
      intro out s hs _ hrun
      rw [run_nil, Option.some.injEq] at hrun
      rw [collect, List.append_nil]
      exact hrun ▸ hs
  | cons a as ih =>
      intro out s hs hP hrun
      obtain ⟨t, ht, hrun⟩ := run_cons_eq_some.mp hrun
      rw [collect_cons as ht, ← List.append_assoc]
      exact ih _ t (hstep out s a t hs hP.1 ht) (hP.2 t ht) hrun

/-- In the states that satisfy an invariant, two conditions on the steps may be exchanged. -/
theorem meets_congr {I : σ → Prop} {P Q : σ → α → Prop}
    (hI : ∀ s a s', I s → M.step s a = some s' → I s')
    (hPQ : ∀ s a, I s → (P s a ↔ Q s a)) {s : σ} (hs : I s) (as : List α) :
    M.Meets P s as ↔ M.Meets Q s as := by
  induction as generalizing s with
  | nil => exact Iff.rfl
  | cons a as ih =>
      constructor
      · intro h
        exact ⟨(hPQ s a hs).mp h.1, fun s' hs' => (ih (hI s a s' hs hs')).mp (h.2 s' hs')⟩
      · intro h
        exact ⟨(hPQ s a hs).mpr h.1, fun s' hs' => (ih (hI s a s' hs hs')).mpr (h.2 s' hs')⟩

/-- A condition that gives the invariant of the next state and, with it, another condition. -/
theorem meets_of_inv {I : σ → Prop} {P Q : σ → α → Prop}
    (hI : ∀ s a s', I s → Q s a → M.step s a = some s' → I s')
    (hQP : ∀ s a, I s → Q s a → P s a) {s : σ} {as : List α} (hs : I s) (hQ : M.Meets Q s as) :
    M.Meets P s as := by
  induction as generalizing s with
  | nil => trivial
  | cons a as ih =>
      refine ⟨hQP s a hs hQ.1, ?_⟩
      intro s' hstep
      exact ih (hI s a s' hs hQ.1 hstep) (hQ.2 s' hstep)

/-- **From single steps to whole runs.**  `F` is what a proof of `P` carries along: it gives `P`,
and a step that satisfies `C` leads from `F` to `P` exactly when it satisfies `Q`, and then to `F`
again.  Then a run from a state with `F`, all of whose steps satisfy `C`, stays in `P` exactly when
all its steps satisfy `Q`. -/
theorem always_iff_meets_of_full {F P : σ → Prop} {C Q : σ → α → Prop} (hF : ∀ s, F s → P s)
    (hstep : ∀ s a s', F s → C s a → M.step s a = some s' → (P s' ↔ Q s a) ∧ (P s' → F s'))
    {s s' : σ} {as : List α} (hs : F s) (hC : M.Meets C s as) (hrun : M.run s as = some s') :
    M.Always P s as ↔ M.Meets Q s as := by
  induction as generalizing s with
  | nil => exact ⟨fun _ => trivial, fun _ => hF s hs⟩
  | cons a as ih =>
      obtain ⟨t, ht, hrun⟩ := run_cons_eq_some.mp hrun
      have hone : ∀ u, M.step s a = some u → u = t := fun u hu =>
        Option.some.inj (hu.symm.trans ht)
      obtain ⟨hPQ, hPF⟩ := hstep s a t hs hC.1 ht
      have hCt : M.Meets C t as := hC.2 t ht
      constructor
      · rintro ⟨-, hrest⟩
        have hPt : P t := by
          have := hrest t ht
          cases as with
          | nil => exact this
          | cons => exact this.1
        refine ⟨hPQ.mp hPt, fun u hu => ?_⟩
        obtain rfl := hone u hu
        exact (ih (hPF hPt) hCt hrun).mp (hrest u hu)
      · rintro ⟨hQ, hrest⟩
        refine ⟨hF s hs, fun u hu => ?_⟩
        obtain rfl := hone u hu
        exact (ih (hPF (hPQ.mpr hQ)) hCt hrun).mpr (hrest u hu)

/-- The same, with an invariant `I` that the steps keep in all states. -/
theorem always_iff_meets {I P : σ → Prop} {C Q : σ → α → Prop}
    (hI : ∀ s a s', I s → C s a → M.step s a = some s' → I s')
    (hPQ : ∀ s a s', I s → P s → C s a → M.step s a = some s' → (P s' ↔ Q s a))
    {s s' : σ} {as : List α} (hs : I s) (hP : P s) (hC : M.Meets C s as)
    (hrun : M.run s as = some s') : M.Always P s as ↔ M.Meets Q s as := by
  refine always_iff_meets_of_full (F := fun s => I s ∧ P s) (fun s h => h.2) ?_ ⟨hs, hP⟩ hC hrun
  intro s a s' h hC hs'
  exact ⟨hPQ s a s' h.1 h.2 hC hs', fun hP' => ⟨hI s a s' h.1 hC hs', hP'⟩⟩

/-! ## Simulation -/

/-- `R` is a forward simulation of `M` by `N`, for the steps of `M` that satisfy `P`: the
labels `obs a` that a step of `M` shows are a run of `N` between related states. -/
structure Simulation (M : Machine σ α) (N : Machine τ β) (R : σ → τ → Prop)
    (P : σ → α → Prop) (obs : α → List β) : Prop where
  step : ∀ s t a s', R s t → P s a → M.step s a = some s' →
    ∃ t', N.run t (obs a) = some t' ∧ R s' t'

/-- **Simulation of whole runs.**  What a run of `M` shows is a run of `N`. -/
theorem Simulation.run {N : Machine τ β} {R : σ → τ → Prop} {P : σ → α → Prop}
    {obs : α → List β} (h : Simulation M N R P obs) {s s' : σ} {t : τ} {as : List α}
    (hR : R s t) (hP : M.Meets P s as) (hrun : M.run s as = some s') :
    ∃ t', N.run t (as.flatMap obs) = some t' ∧ R s' t' := by
  induction as generalizing s t with
  | nil =>
      rw [run_nil, Option.some.injEq] at hrun
      exact ⟨t, rfl, hrun ▸ hR⟩
  | cons a as ih =>
      obtain ⟨u, hu, hrun⟩ := run_cons_eq_some.mp hrun
      obtain ⟨t₁, ht₁, hR₁⟩ := h.step s t a u hR hP.1 hu
      obtain ⟨t₂, ht₂, hR₂⟩ := ih hR₁ (hP.2 u hu) hrun
      refine ⟨t₂, ?_, hR₂⟩
      rw [List.flatMap_cons, run_append, ht₁, Option.bind_some, ht₂]

end Machine

end DsAmq.Library
