import DsAmq.Analysis.ReleasedConnection
import DsAmq.Analysis.SendMutex

/-!
# The started flag and the session pool

`sendmessage` tests `m_bStartedConnection` without the mutex and goes straight to `takeSession`
when it is set.  `CreateSessionPool` sets it at line 153, before it makes the session pool at line
190.  Between these two statements, and only there, the flag is set without a session pool, so
that a call that reads it in between can run into a null pointer (`started_flag_window`).

`InsideConnect` says what `CreateSessionPool` has done at each of its statements, in runs in which
its library calls succeed; the invariant `FlagInv` ties it to the call that is inside.
-/

set_option autoImplicit false

namespace DsAmq.Analysis

open DsAmq.Model DsAmq.Library

/-- Nothing of the connection is there. -/
def Unconnected (w : MgrWorld) : Prop :=
  w.mgr.bStartedConnection = false ∧ w.mgr.sessionpool = none ∧ w.mgr.connection = none

/-- Outside `CreateSessionPool`: all is there, or nothing. -/
def AllOrNothing (w : MgrWorld) : Prop :=
  (w.mgr.bStartedConnection = true ∧ w.mgr.sessionpool ≠ none) ∨ Unconnected w

/-- What `CreateSessionPool` has done at each of its statements, when no library call throws. -/
def InsideConnect (w : MgrWorld) : ConnectPc → Prop
  | .isCreated | .testStarted => AllOrNothing w
  | .testConnection | .createConnection => Unconnected w
  | .start | .setStarted =>
      w.mgr.bStartedConnection = false ∧ w.mgr.sessionpool = none ∧ w.mgr.connection ≠ none
  | .testResourcemgr | .deleteResourcemgr | .nullResourcemgr | .newResourcemgr =>
      w.mgr.bStartedConnection = true ∧ w.mgr.sessionpool = none ∧ w.mgr.connection ≠ none
  | .addConnection | .resetSessionpool =>
      w.mgr.bStartedConnection = true ∧ w.mgr.sessionpool = none ∧ w.mgr.connection ≠ none ∧
        w.mgr.resourcemgr ≠ none
  | .setStartedAgain => w.mgr.bStartedConnection = true ∧ w.mgr.sessionpool ≠ none
  | .returned b => AllOrNothing w ∧ (b = true → w.mgr.sessionpool ≠ none)
  | _ => False

/-- The statements after line 153, up to and including line 190. -/
def Window : ConnectPc → Prop
  | .testResourcemgr | .deleteResourcemgr | .nullResourcemgr | .newResourcemgr | .addConnection
  | .resetSessionpool => True
  | _ => False

/-- Some call is between line 153 and line 190. -/
def InWindow (s : SendSystem) : Prop :=
  ∃ (t : ℕ) (c : Call) (pc : ConnectPc), s.calls[t]? = some c ∧ c.pc = .connect pc ∧ Window pc

/-- The started flag implies a session pool. -/
def FlagImpliesPool (s : SendSystem) : Prop :=
  s.shared.world.mgr.bStartedConnection = true → s.shared.world.mgr.sessionpool ≠ none

/-- No library call inside `CreateSessionPool` throws. -/
def ConnectsOk (s : SendSystem) (a : SendAction) : Prop :=
  ∀ (t : ℕ) (c : Call) (msg : String), a = .act t (.call (.cms msg)) → s.calls[t]? = some c →
    ¬ Inside c

/-- The step is not the assignment of line 153. -/
def NotSetStarted (s : SendSystem) (a : SendAction) : Prop :=
  ∀ (t : ℕ) (r : Reply) (c : Call), a = .act t r → s.calls[t]? = some c →
    c.pc ≠ .connect .setStarted

/-- The step does not read the flag at line 228 while a call is between line 153 and line 190. -/
def NoReadInWindow (s : SendSystem) (a : SendAction) : Prop :=
  ∀ (t : ℕ) (r : Reply) (c : Call), a = .act t r → s.calls[t]? = some c →
    c.pc = .testStarted → ¬ InWindow s

/-- The state right after the `CreatePool` call that created the pool: it was made on a manager
that some calls on a new one lead to. -/
def FreshlyCreated (w : MgrWorld) : Prop :=
  ∃ ops w₀ c alloc, MgrWorld.machine.run .new ops = some w₀ ∧ w₀.mgr.pool.isCreated = false ∧
    (w₀.createPool c alloc).1 = true ∧ w = (w₀.createPool c alloc).2

variable {w w' : MgrWorld} {t : ℕ} {c c' : Call} {g g' : Shared} {r : Reply} {s s' : SendSystem}
  {pc pc' : ConnectPc}

/-! ## The statements of `CreateSessionPool` -/

theorem AllOrNothing.of_same (h : AllOrNothing w) (hsame : SameConnection w w') :
    AllOrNothing w' := by
  unfold AllOrNothing Unconnected
  rw [hsame.started, hsame.sessionpool, hsame.connection]
  exact h

theorem InsideConnect.of_same (h : InsideConnect w pc) (hsame : SameConnection w w') :
    InsideConnect w' pc := by
  unfold InsideConnect AllOrNothing Unconnected at *
  rw [hsame.started, hsame.sessionpool, hsame.connection, hsame.resourcemgr]
  exact h

theorem sessionpool_resetSessionpool (hconn : w.mgr.connection ≠ none)
    (hmgr : w.mgr.resourcemgr ≠ none) : w.resetSessionpool.mgr.sessionpool ≠ none := by
  unfold MgrWorld.resetSessionpool
  cases hk : w.mgr.connection with
  | none => exact absurd hk hconn
  | some k =>
      cases hg : w.mgr.resourcemgr with
      | none => exact absurd hg hmgr
      | some g => simp

/-- One statement of `CreateSessionPool`, when no library call throws. -/
theorem insideConnect_step (h : InsideConnect w pc) (hok : ∀ msg, r ≠ .call (.cms msg))
    (hstep : pc.step w r = some (w', pc')) : InsideConnect w' pc' := by
  unfold ConnectPc.step at hstep
  split at hstep
  · split at hstep
    · cases hstep
      exact h
    · cases hstep
      exact ⟨AllOrNothing.of_same h ((SameConnection.refl w).setError _), by simp⟩
  · cases hstep
    rcases h with ⟨hs, hp⟩ | ⟨hs, hp⟩
    · simp only [hs, if_true]
      exact ⟨.inl ⟨hs, hp⟩, fun _ => hp⟩
    · simp only [hs, Bool.false_eq_true, if_false]
      exact ⟨hs, hp⟩
  · cases hstep
    simp only [h.2.2, Option.isSome_none, Bool.false_eq_true, if_false]
    exact h
  · cases h
  · cases h
  · cases h
  · cases hstep
    exact ⟨h.1, h.2.1, by simp [MgrWorld.createConnection]⟩
  · exact absurd rfl (hok _)
  · cases hstep
    exact h
  · exact absurd rfl (hok _)
  · cases hstep
    exact ⟨rfl, h.2⟩
  · cases h
  · cases h
  · cases h
  · cases hstep
    cases hg : w.mgr.resourcemgr with
    | none => exact h
    | some g => exact h
  · cases hstep
    rw [InsideConnect, deleteResourcemgr_mgr]
    exact h
  · cases hstep
    exact h
  · cases hstep
    exact ⟨h.1, h.2.1, h.2.2, by simp [MgrWorld.newResourcemgr]⟩
  · cases hstep
    rw [InsideConnect, addConnection_mgr]
    exact h
  · exact absurd rfl (hok _)
  · cases hstep
    obtain ⟨hs, -, hconn, hmgr⟩ := h
    refine ⟨?_, sessionpool_resetSessionpool hconn hmgr⟩
    unfold MgrWorld.resetSessionpool
    split <;> exact hs
  · cases hstep
    exact ⟨.inl ⟨rfl, h.2⟩, fun _ => h.2⟩
  · cases h
  · cases h
  · cases h
  · cases h
  · cases h
  · cases h
  · cases hstep

/-- The window is entered by line 153 only. -/
theorem window_of_step (hstep : pc.step w r = some (w', pc')) (hwin : Window pc') :
    Window pc ∨ pc = .setStarted := by
  unfold ConnectPc.step at hstep
  split at hstep
  case h_1 => split at hstep <;> cases hstep <;> cases hwin
  all_goals cases hstep
  -- after the tests the next statement is a conditional
  all_goals try split at hwin
  all_goals first | exact .inl trivial | exact .inr rfl | cases hwin

/-- No statement takes the session pool away. -/
theorem sessionpool_of_step (hstep : pc.step w r = some (w', pc'))
    (h : w.mgr.sessionpool ≠ none) : w'.mgr.sessionpool ≠ none := by
  unfold ConnectPc.step at hstep
  split at hstep
  case h_1 => split at hstep <;> cases hstep <;> exact h
  case h_21 =>
    cases hstep
    unfold MgrWorld.resetSessionpool
    split
    · simp
    · exact h
  all_goals cases hstep
  all_goals simpa [MgrWorld.setError, MgrWorld.setStarted, MgrWorld.nullConnection,
    MgrWorld.nullResourcemgr, MgrWorld.createConnection, MgrWorld.newResourcemgr] using h

theorem AllOrNothing.flag (h : AllOrNothing w) (hs : w.mgr.bStartedConnection = true) :
    w.mgr.sessionpool ≠ none := by
  rcases h with ⟨-, hp⟩ | ⟨hs', -⟩
  · exact hp
  · rw [hs] at hs'
    cases hs'

/-- Inside `CreateSessionPool` the flag implies the session pool except in the window. -/
theorem InsideConnect.flag_iff (h : InsideConnect w pc) :
    (w.mgr.bStartedConnection = true → w.mgr.sessionpool ≠ none) ↔ ¬ Window pc := by
  cases pc with
  | isCreated => exact ⟨fun _ hwin => hwin, fun _ => AllOrNothing.flag h⟩
  | testStarted => exact ⟨fun _ hwin => hwin, fun _ => AllOrNothing.flag h⟩
  | returned b => exact ⟨fun _ hwin => hwin, fun _ => AllOrNothing.flag h.1⟩
  | testConnection => simp [Window, h.1]
  | createConnection => simp [Window, h.1]
  | start => simp [Window, h.1]
  | setStarted => simp [Window, h.1]
  | testResourcemgr => simp [Window, h.1, h.2.1]
  | deleteResourcemgr => simp [Window, h.1, h.2.1]
  | nullResourcemgr => simp [Window, h.1, h.2.1]
  | newResourcemgr => simp [Window, h.1, h.2.1]
  | addConnection => simp [Window, h.1, h.2.1]
  | resetSessionpool => simp [Window, h.1, h.2.1]
  | setStartedAgain => simp [Window, h.2]
  | _ => cases h

/-! ## The invariant -/

/-- The call inside `CreateSessionPool`, if there is one, is as far as its statement says; if
there is none, all is there or nothing. -/
structure FlagInv (s : SendSystem) : Prop where
  exclusion : Exclusion s
  inside : ∀ (t : ℕ) (c : Call), s.calls[t]? = some c → ∀ pc, c.pc = .connect pc →
    InsideConnect s.shared.world pc
  settled : (∀ (t : ℕ) (c : Call), s.calls[t]? = some c → ¬ Inside c) → AllOrNothing s.shared.world

/-- A call that is inside `CreateSessionPool` holds the mutex, so none is when it is free. -/
theorem Exclusion.not_inside_of_free (h : Exclusion s) (hfree : s.shared.mutex = none) (i : ℕ)
    (x : Call) (hx : s.calls[i]? = some x) : ¬ Inside x := by
  rintro ⟨pc, hpc⟩
  have hmutex := h i x hx (by rw [hpc]; trivial)
  rw [hfree] at hmutex
  cases hmutex

theorem flagInv_begin {msg : String} (h : FlagInv s)
    (hexcl : Exclusion ⟨s.shared, s.calls ++ [Call.new msg]⟩) :
    FlagInv ⟨s.shared, s.calls ++ [Call.new msg]⟩ := by
  refine ⟨hexcl, ?_, ?_⟩
  · refine Threads.forall_append (P := fun _ (c : Call) => ∀ pc, c.pc = .connect pc →
      InsideConnect s.shared.world pc) ?_ h.inside
    intro pc hpc
    cases hpc
  · intro hnone
    apply h.settled
    intro i x hx
    exact hnone i x (Threads.getElem?_append_eq_some.mpr (.inl hx))

/-- A call that stays outside `CreateSessionPool` changes nothing of the connection. -/
theorem flagInv_outside (h : FlagInv s) (hc : s.calls[t]? = some c)
    (hexcl : Exclusion ⟨g', s.calls.set t c'⟩) (hout : ¬ Inside c) (hout' : ¬ Inside c')
    (hworld : SameConnection s.shared.world g'.world) : FlagInv ⟨g', s.calls.set t c'⟩ := by
  refine ⟨hexcl, ?_, ?_⟩
  · refine Threads.forall_set (P := fun _ (c : Call) => ∀ pc, c.pc = .connect pc →
      InsideConnect g'.world pc) hc ?_ ?_
    · intro pc hpc
      exact absurd ⟨pc, hpc⟩ hout'
    · intro i x hi hx pc hpc
      exact (h.inside i x hx pc hpc).of_same hworld
  · intro hnone
    refine (h.settled ?_).of_same hworld
    intro i x hx
    by_cases hi : i = t
    · subst hi
      rw [hc, Option.some.injEq] at hx
      rw [← hx]
      exact hout
    · exact hnone i x ((Threads.getElem?_set_eq_some hc).mpr (.inr ⟨hi, hx⟩))

/-- After a step to a statement of `CreateSessionPool` the call is as far as its statement says,
and it is the only one inside. -/
theorem flagInv_inside (hc : s.calls[t]? = some c) (hexcl : Exclusion ⟨g', s.calls.set t c'⟩)
    (hpc : c'.pc = .connect pc) (hworld : InsideConnect g'.world pc) :
    FlagInv ⟨g', s.calls.set t c'⟩ := by
  have ht : (s.calls.set t c')[t]? = some c' :=
    (Threads.getElem?_set_eq_some hc).mpr (.inl ⟨rfl, rfl⟩)
  refine ⟨hexcl, ?_, ?_⟩
  · intro i x hx pc₁ hpc₁
    obtain rfl : i = t := hexcl.eq_of_inside ht hx ⟨pc, hpc⟩ ⟨pc₁, hpc₁⟩
    rw [ht, Option.some.injEq] at hx
    rw [← hx, hpc, SendPc.connect.injEq] at hpc₁
    rw [← hpc₁]
    exact hworld
  · intro hnone
    exact absurd ⟨pc, hpc⟩ (hnone t c' ht)

/-- The call that was inside leaves: all is there, or nothing. -/
theorem flagInv_leave (h : FlagInv s) (hc : s.calls[t]? = some c)
    (hexcl : Exclusion ⟨g', s.calls.set t c'⟩) (hin : Inside c) (hout : ¬ Inside c')
    (hworld : AllOrNothing g'.world) : FlagInv ⟨g', s.calls.set t c'⟩ := by
  refine ⟨hexcl, ?_, fun _ => hworld⟩
  refine Threads.forall_set (P := fun _ (c : Call) => ∀ pc, c.pc = .connect pc →
    InsideConnect g'.world pc) hc ?_ ?_
  · intro pc hpc
    exact absurd ⟨pc, hpc⟩ hout
  · intro i x hi hx pc hpc
    exact absurd (h.exclusion.eq_of_inside hc hx hin ⟨pc, hpc⟩) hi

/-- **The step lemma**, for steps in which the library calls of `CreateSessionPool` succeed. -/
theorem flagInv_step {a : SendAction} (h : FlagInv s) (hok : ConnectsOk s a)
    (hstep : s.step a = some s') : FlagInv s' := by
  have hexcl := exclusion_step h.exclusion hstep
  cases a with
  | begin msg =>
      cases hstep
      exact flagInv_begin h hexcl
  | act t r =>
      obtain ⟨c, g', c', hc, hcall, rfl⟩ := act_eq_some hstep
      cases (moves_of_step hcall).2 with
      | @statement pc pc' hpc hpc' hpcstep hmutex =>
          refine flagInv_inside hc hexcl hpc' ?_
          refine insideConnect_step (h.inside t c hc pc hpc) ?_ hpcstep
          rintro msg rfl
          exact hok t c msg rfl hc ⟨pc, hpc⟩
      | enter hpc hpc' hfree hworld =>
          have hsettled := h.settled (h.exclusion.not_inside_of_free hfree)
          exact flagInv_inside hc hexcl hpc' (hsettled.of_same hworld)
      | @leave b hpc hpc' hworld =>
          refine flagInv_leave h hc hexcl ⟨_, hpc⟩ ?_ ((h.inside t c hc _ hpc).1.of_same hworld)
          rintro ⟨pc₁, hpc₁⟩
          rw [hpc₁] at hpc'
          cases b <;> cases hpc'
      | readFlag hpc hpc' hworld =>
          refine flagInv_outside h hc hexcl (by simp [Inside, hpc]) ?_ hworld
          rintro ⟨pc₁, hpc₁⟩
          rw [hpc₁] at hpc'
          split at hpc' <;> cases hpc'
      | null hpc hpc' hpool hworld =>
          exact flagInv_outside h hc hexcl (by simp [Inside, hpc]) (by simp [Inside, hpc']) hworld
      | other hpc hpc' hnot hread hworld => exact flagInv_outside h hc hexcl hpc hpc' hworld

/-- **The exact states in which the flag implies the session pool.** -/
theorem flagImpliesPool_iff (h : FlagInv s) : FlagImpliesPool s ↔ ¬ InWindow s := by
  by_cases hin : ∃ (t : ℕ) (c : Call), s.calls[t]? = some c ∧ Inside c
  · obtain ⟨t, c, hc, pc, hpc⟩ := hin
    have hwindow : InWindow s ↔ Window pc := by
      constructor
      · rintro ⟨i, x, pc', hx, hpc', hwin⟩
        obtain rfl := h.exclusion.eq_of_inside hc hx ⟨pc, hpc⟩ ⟨pc', hpc'⟩
        rw [hc, Option.some.injEq] at hx
        rw [← hx, hpc, SendPc.connect.injEq] at hpc'
        exact hpc' ▸ hwin
      · intro hwin
        exact ⟨t, c, pc, hc, hpc, hwin⟩
    rw [hwindow]
    exact (h.inside t c hc pc hpc).flag_iff
  · have hnone : ∀ (t : ℕ) (c : Call), s.calls[t]? = some c → ¬ Inside c :=
      fun t c hc hcin => hin ⟨t, c, hc, hcin⟩
    constructor
    · rintro - ⟨t, c, pc, hc, hpc, -⟩
      exact hnone t c hc ⟨pc, hpc⟩
    · intro _
      exact (h.settled hnone).flag

/-- The assignment of line 153 leads into the window. -/
theorem window_of_setStarted (hcall : c.step t g r = some (g', c'))
    (hpc : c.pc = .connect .setStarted) : c'.pc = .connect .testResourcemgr := by
  cases (moves_of_step hcall).2 with
  | @statement pc pc' hpc₁ hpc' hpcstep hmutex =>
      rw [hpc, SendPc.connect.injEq] at hpc₁
      subst hpc₁
      cases r with
      | tau =>
          simp only [ConnectPc.step, Option.some.injEq, Prod.mk.injEq] at hpcstep
          rw [hpc', ← hpcstep.2]
      | call o => cases hpcstep
      | session o => cases hpcstep
  | enter hpc₁ _ _ _ => rw [hpc] at hpc₁; cases hpc₁
  | leave hpc₁ _ _ => rw [hpc] at hpc₁; cases hpc₁
  | readFlag hpc₁ _ _ => rw [hpc] at hpc₁; cases hpc₁
  | null hpc₁ _ _ _ => rw [hpc] at hpc₁; cases hpc₁
  | other hpc₁ _ _ _ _ => exact absurd ⟨_, hpc⟩ hpc₁

/-- A call that is in the window after a step was there before, or has made the assignment. -/
theorem window_of_call (hcall : c.step t g r = some (g', c')) (hpc' : c'.pc = .connect pc')
    (hwin : Window pc') : ∃ pc, c.pc = .connect pc ∧ (Window pc ∨ pc = .setStarted) := by
  cases (moves_of_step hcall).2 with
  | @statement pc pc₁ hpc hpc₁ hpcstep hmutex =>
      rw [hpc', SendPc.connect.injEq] at hpc₁
      subst hpc₁
      exact ⟨pc, hpc, window_of_step hpcstep hwin⟩
  | enter _ hpc₁ _ _ => rw [hpc'] at hpc₁; cases hpc₁; cases hwin
  | @leave b _ hpc₁ _ => rw [hpc'] at hpc₁; cases b <;> cases hpc₁
  | readFlag _ hpc₁ _ => rw [hpc'] at hpc₁; split at hpc₁ <;> cases hpc₁
  | null _ hpc₁ _ _ => rw [hpc'] at hpc₁; cases hpc₁
  | other _ hpc₁ _ _ _ => exact absurd ⟨_, hpc'⟩ hpc₁

/-- A step leads into the window exactly when it is the assignment of line 153. -/
theorem inWindow_step_iff {a : SendAction} (hnot : ¬ InWindow s) (hstep : s.step a = some s') :
    ¬ InWindow s' ↔ NotSetStarted s a := by
  constructor
  · rintro hnot' t r c rfl hc hpc
    obtain ⟨c₁, g', c', hc₁, hcall, rfl⟩ := act_eq_some hstep
    rw [hc, Option.some.injEq] at hc₁
    subst hc₁
    exact hnot' ⟨t, c', .testResourcemgr, (Threads.getElem?_set_eq_some hc).mpr (.inl ⟨rfl, rfl⟩),
      window_of_setStarted hcall hpc, trivial⟩
  · rintro hq ⟨i, x, pc', hx, hxpc, hwin⟩
    cases a with
    | begin msg =>
        cases hstep
        rcases Threads.getElem?_append_eq_some.mp hx with hx | ⟨-, rfl⟩
        · exact hnot ⟨i, x, pc', hx, hxpc, hwin⟩
        · cases hxpc
    | act t r =>
        obtain ⟨c, g', c', hc, hcall, rfl⟩ := act_eq_some hstep
        rcases (Threads.getElem?_set_eq_some hc).mp hx with ⟨rfl, rfl⟩ | ⟨hi, hx⟩
        · obtain ⟨pc, hpc, hwin | rfl⟩ := window_of_call hcall hxpc hwin
          · exact hnot ⟨i, c, pc, hc, hpc, hwin⟩
          · exact hq i r c rfl hc hpc
        · exact hnot ⟨i, x, pc', hx, hxpc, hwin⟩

/-! ## The call of `takeSession` -/

/-- A call that is about to call `takeSession` finds a session pool, and none has found a null
pointer. -/
def TakeSafe (s : SendSystem) : Prop :=
  ∀ (t : ℕ) (c : Call), s.calls[t]? = some c →
    (c.pc = .takeSession → s.shared.world.mgr.sessionpool ≠ none) ∧
      c.pc ≠ .ended .nullSessionPool

/-- A session pool that is there stays. -/
theorem sessionpool_of_call (hcall : c.step t g r = some (g', c'))
    (h : g.world.mgr.sessionpool ≠ none) : g'.world.mgr.sessionpool ≠ none := by
  cases (moves_of_step hcall).2 with
  | statement hpc hpc' hpcstep hmutex => exact sessionpool_of_step hpcstep h
  | enter hpc hpc' hfree hworld => rw [hworld.sessionpool]; exact h
  | leave hpc hpc' hworld => rw [hworld.sessionpool]; exact h
  | readFlag hpc hpc' hworld => rw [hworld.sessionpool]; exact h
  | null hpc hpc' hpool hworld => exact absurd hpool h
  | other hpc hpc' hnot hread hworld => rw [hworld.sessionpool]; exact h

/-- **The step lemma**, for steps that do not read the flag in the window. -/
theorem takeSafe_step {a : SendAction} (hinv : FlagInv s) (h : TakeSafe s)
    (hread : NoReadInWindow s a) (hstep : s.step a = some s') : TakeSafe s' := by
  cases a with
  | begin msg =>
      cases hstep
      refine Threads.forall_append (P := fun _ (c : Call) =>
        (c.pc = .takeSession → s.shared.world.mgr.sessionpool ≠ none) ∧
          c.pc ≠ .ended .nullSessionPool) ?_ h
      simp [Call.new]
  | act t r =>
      obtain ⟨c, g', c', hc, hcall, rfl⟩ := act_eq_some hstep
      refine Threads.forall_set (P := fun _ (c : Call) =>
        (c.pc = .takeSession → g'.world.mgr.sessionpool ≠ none) ∧
          c.pc ≠ .ended .nullSessionPool) hc ?_ ?_
      · cases (moves_of_step hcall).2 with
        | statement hpc hpc' hpcstep hmutex => simp [hpc']
        | enter hpc hpc' hfree hworld => simp [hpc']
        | @leave b hpc hpc' hworld =>
            have hret := (hinv.inside t c hc _ hpc).2
            rw [hworld.sessionpool, hpc']
            cases b with
            | true => exact ⟨fun _ => hret rfl, by simp⟩
            | false => simp
        | readFlag hpc hpc' hworld =>
            rw [hworld.sessionpool, hpc']
            cases hs : s.shared.world.mgr.bStartedConnection with
            | true =>
                have hflag := (flagImpliesPool_iff hinv).mpr (hread t r c rfl hc hpc)
                exact ⟨fun _ => hflag hs, by simp⟩
            | false => simp
        | null hpc hpc' hpool hworld => exact absurd hpool ((h t c hc).1 hpc)
        | other hpc hpc' hnot hread' hworld => exact ⟨fun htake => absurd htake hnot.1, hnot.2⟩
      · intro i x hi hx
        exact ⟨fun htake => sessionpool_of_call hcall ((h i x hx).1 htake), (h i x hx).2⟩

/-! ## Whole runs -/

theorem FreshlyCreated.unconnected (h : FreshlyCreated w) : Unconnected w := by
  obtain ⟨ops, w₀, cr, alloc, hrun, hnot, -, rfl⟩ := h
  have hs : w₀.mgr.bStartedConnection = false := by
    cases hs : w₀.mgr.bStartedConnection with
    | false => rfl
    | true =>
        rw [createdIfStarted_of_run hrun hs] at hnot
        cases hnot
  obtain ⟨hconn, hpool, -⟩ := (connected_of_run hrun).unstarted hs
  have hsame := sameConnection_createPool w₀ cr alloc
  exact ⟨hsame.started.trans hs, hsame.sessionpool.trans hpool, hsame.connection.trans hconn⟩

theorem flagInv_init {modes : SessionId → Destination → DeliveryMode} (h : Unconnected w) :
    FlagInv (.init w modes) :=
  ⟨by simp [Exclusion, SendSystem.init], by simp [SendSystem.init], fun _ => .inr h⟩

/-- **When the started flag implies a usable session pool.**  Take any interleaving of
`sendmessage` calls on a freshly created pool in which the library calls of `CreateSessionPool`
succeed.  In a state that is reached, the flag implies the session pool exactly when no call is
between line 153 and line 190; it does so in all states of the run exactly when no step of the run
is the assignment of line 153; and if no call reads the flag (line 228) while another is between
the two lines, then no call calls `takeSession` on a null session pool. -/
theorem started_flag_window {w : MgrWorld} {modes : SessionId → Destination → DeliveryMode}
    {as : List SendAction} {s : SendSystem} (hfresh : FreshlyCreated w)
    (hok : SendSystem.machine.Meets ConnectsOk (.init w modes) as)
    (hrun : SendSystem.machine.run (.init w modes) as = some s) :
    (FlagImpliesPool s ↔ ¬ InWindow s) ∧
      (SendSystem.machine.Always FlagImpliesPool (.init w modes) as ↔
        SendSystem.machine.Meets NotSetStarted (.init w modes) as) ∧
      (SendSystem.machine.Meets NoReadInWindow (.init w modes) as →
        ∀ (t : ℕ) (c : Call), s.calls[t]? = some c → c.pc ≠ .ended .nullSessionPool) := by
  have hinit : FlagInv (.init w modes) := flagInv_init hfresh.unconnected
  have hstep : ∀ (s : SendSystem) (a : SendAction) (s' : SendSystem), FlagInv s →
      ConnectsOk s a → SendSystem.machine.step s a = some s' → FlagInv s' :=
    fun s a s' h hok hstep => flagInv_step h hok hstep
  refine ⟨?_, ?_, ?_⟩
  · exact flagImpliesPool_iff (Machine.run_inv_of_meets hstep hinit hok hrun)
  · refine Machine.always_iff_meets hstep ?_ hinit ?_ hok hrun
    · intro s a s' h hflag hoka hs'
      rw [flagImpliesPool_iff (hstep s a s' h hoka hs')]
      exact inWindow_step_iff ((flagImpliesPool_iff h).mp hflag) hs'
    · rw [flagImpliesPool_iff hinit]
      rintro ⟨t, c, pc, hc, -⟩
      simp [SendSystem.init] at hc
  · intro hread t c hc
    have hboth : FlagInv s ∧ TakeSafe s := by
      refine Machine.run_inv_of_meets (I := fun s => FlagInv s ∧ TakeSafe s)
        (P := fun s a => ConnectsOk s a ∧ NoReadInWindow s a) ?_ ⟨hinit, ?_⟩ ?_ hrun
      · intro s a s' h hP hs'
        exact ⟨flagInv_step h.1 hP.1 hs', takeSafe_step h.1 h.2 hP.2 hs'⟩
      · simp [TakeSafe, SendSystem.init]
      · exact Machine.meets_and hok hread
    exact (hboth.2 t c hc).2

/-- A manager whose pool has just been created. -/
def freshPool : MgrWorld := (MgrWorld.new.createPool (.full 2 "broker" "orders" false true) .ok).2

theorem freshPool_freshlyCreated : FreshlyCreated freshPool :=
  ⟨[], .new, .full 2 "broker" "orders" false true, .ok, rfl, rfl, by decide +kernel, rfl⟩

/-- Call 0 runs `CreateSessionPool` up to and including line 153; call 1 then reads the flag and
calls `takeSession`. -/
def readInWindow : List SendAction :=
  [.begin "a", .begin "b",
   .act 0 .tau, .act 0 .tau, .act 0 .tau, .act 0 .tau, .act 0 .tau, .act 0 .tau,
   .act 0 (.call (.ok ())), .act 0 (.call (.ok ())), .act 0 .tau,
   .act 1 .tau, .act 1 .tau, .act 1 .tau]

/-- Runs in which no library call throws at all. -/
theorem connectsOk_of_no_throw (s : SendSystem) (as : List SendAction)
    (h : ∀ a ∈ as, ∀ t msg, a ≠ .act t (.call (.cms msg))) :
    SendSystem.machine.Meets ConnectsOk s as :=
  Machine.meets_of_forall s fun a ha _ t _ msg heq => absurd heq (h a ha t msg)

theorem started_flag_window_before_line_153 :
    ∃ s, SendSystem.machine.run (.init freshPool fun _ _ => .persistent)
        (readInWindow.take 10) = some s ∧ FlagImpliesPool s := by
  have hcalls : (SendSystem.machine.run (.init freshPool fun _ _ => .persistent)
      (readInWindow.take 10)).map SendSystem.calls =
      some [⟨"a", none, none, true, .connect .setStarted⟩, .new "b"] := by
    decide +kernel
  obtain ⟨s, hrun, hcalls⟩ := Option.map_eq_some_iff.mp hcalls
  refine ⟨s, hrun, ?_⟩
  rw [(started_flag_window freshPool_freshlyCreated
    (connectsOk_of_no_throw _ _ (by simp [readInWindow])) hrun).1]
  rintro ⟨t, c, pc, hc, hpc, hwin⟩
  rw [hcalls] at hc
  match t, hc with
  | 0, hc =>
      cases hc
      cases hpc
      cases hwin
  | 1, hc =>
      cases hc
      cases hpc

/-- After line 153 the flag is set and there is no session pool; a second call skips
`CreateSessionPool` and calls `takeSession` on a null session pool. -/
theorem flag_read_before_pool :
    ∃ s, SendSystem.machine.run (.init freshPool fun _ _ => .persistent) readInWindow = some s ∧
      SendSystem.machine.Meets ConnectsOk (.init freshPool fun _ _ => .persistent) readInWindow ∧
      s.shared.world.mgr.bStartedConnection = true ∧ s.shared.world.mgr.sessionpool = none ∧
      s.calls = [⟨"a", none, none, true, .connect .testResourcemgr⟩,
        ⟨"b", none, none, true, .ended .nullSessionPool⟩] := by
  have hstate : (SendSystem.machine.run (.init freshPool fun _ _ => .persistent)
      readInWindow).map (fun s => (s.shared.world.mgr.bStartedConnection,
        s.shared.world.mgr.sessionpool, s.calls)) =
      some (true, none, [⟨"a", none, none, true, .connect .testResourcemgr⟩,
        ⟨"b", none, none, true, .ended .nullSessionPool⟩]) := by
    decide +kernel
  obtain ⟨s, hrun, hstate⟩ := Option.map_eq_some_iff.mp hstate
  simp only [Prod.mk.injEq] at hstate
  exact ⟨s, hrun, connectsOk_of_no_throw _ _ (by simp [readInWindow]), hstate⟩

end DsAmq.Analysis
