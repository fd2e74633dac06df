import DsAmq.Analysis.MgrConnection
import DsAmq.Analysis.SendSteps
import DsAmq.Library.Threads

/-!
# The mutex of the manager

What the steps of concurrent `sendmessage` calls do to `m_mutex` (`MutexMove`) and to the members
that belong to the connection (`ConnectMove`): these are written only inside `CreateSessionPool`,
which the calls run under the mutex.  `Exclusion` says that a call inside a protected section
holds the mutex, so that there is at most one (`exclusion_step`).
-/

set_option autoImplicit false

namespace DsAmq.Analysis

open DsAmq.Model DsAmq.Library

/-! ## The mutex -/

/-- The call is inside one of the sections that the mutex protects. -/
def InSection : SendPc → Prop
  | .connect _ | .createPoolItem | .unlockCreate | .freePoolItem | .unlockFree => True
  | _ => False

/-- A call inside a protected section holds the mutex. -/
def Exclusion (s : SendSystem) : Prop :=
  ∀ (t : ℕ) c, s.calls[t]? = some c → InSection c.pc → s.shared.mutex = some t

/-- What a step does to the mutex: the call takes it and enters a section, stays inside or outside
of a section, or leaves the section and gives it back. -/
inductive MutexMove (t : ℕ) (g : Shared) (c : Call) (g' : Shared) (c' : Call) : Prop
  | enter (h : g.mutex = none) (h' : g'.mutex = some t)
  | inside (h : InSection c.pc) (h' : g'.mutex = g.mutex)
  | outside (h : ¬ InSection c'.pc) (h' : g'.mutex = g.mutex)
  | leave (h : InSection c.pc) (hout : ¬ InSection c'.pc) (h' : g'.mutex = none)

variable {t : ℕ} {g g' : Shared} {c c' : Call} {r : Reply} {s s' : SendSystem}

theorem onProducer_shared {k : ℕ} {f : Producer → ProducerPc × Producer} {pc : ProducerPc}
    (h : g.onProducer k f = (g', pc)) :
    g'.mutex = g.mutex ∧ SameConnection g.world g'.world := by
  unfold Shared.onProducer Shared.onItem at h
  cases hitem : g.world.mgr.pool.onItem k f with
  | error e =>
      simp only [hitem, Except.map, Prod.mk.injEq] at h
      obtain ⟨rfl, -⟩ := h
      exact ⟨rfl, .refl _⟩
  | ok r =>
      simp only [hitem, Except.map, Prod.mk.injEq] at h
      obtain ⟨rfl, -⟩ := h
      exact ⟨rfl, (SameConnection.refl _).setPool _⟩

/-- `CDSAMQProducer::sendmessage` touches neither the mutex nor the connection. -/
theorem producerStep_shared {k : ℕ} {session : Option SessionId} {msg : String}
    {pc pc' : ProducerPc} (h : pc.step t k session msg g r = some (g', pc')) :
    g'.mutex = g.mutex ∧ SameConnection g.world g'.world := by
  cases producerMove_of_step h with
  | item f hres hidx hdest hnext hpc => exact onProducer_shared hres
  | nonempty hne => exact ⟨rfl, .refl _⟩
  | setDeliveryMode hs => exact ⟨rfl, .refl _⟩
  | createTextMessage => exact ⟨rfl, .refl _⟩
  | send hs => exact ⟨rfl, .refl _⟩

/-! ## What a step does to the connection -/

/-- The call is inside `CreateSessionPool`. -/
def Inside (c : Call) : Prop := ∃ pc, c.pc = .connect pc

/-- A step, as far as the connection is concerned: a statement of `CreateSessionPool`, its call or
its return, the read of the flag, the call of `takeSession` through a null pointer, or a statement
that has to do with none of them. -/
inductive ConnectMove (t : ℕ) (g : Shared) (c : Call) (r : Reply) (g' : Shared) (c' : Call) : Prop
  | statement {pc pc' : ConnectPc} (hpc : c.pc = .connect pc) (hpc' : c'.pc = .connect pc')
      (hstep : pc.step g.world r = some (g'.world, pc')) (hmutex : g'.mutex = g.mutex)
  | enter (hpc : c.pc = .lockConnect) (hpc' : c'.pc = .connect .isCreated)
      (hfree : g.mutex = none) (hworld : SameConnection g.world g'.world)
  | leave {b : Bool} (hpc : c.pc = .connect (.returned b))
      (hpc' : c'.pc = if b then .takeSession else .ended (.returned false))
      (hworld : SameConnection g.world g'.world)
  | readFlag (hpc : c.pc = .testStarted)
      (hpc' : c'.pc = if g.world.mgr.bStartedConnection then .takeSession else .lockConnect)
      (hworld : SameConnection g.world g'.world)
  | null (hpc : c.pc = .takeSession) (hpc' : c'.pc = .ended .nullSessionPool)
      (hpool : g.world.mgr.sessionpool = none) (hworld : SameConnection g.world g'.world)
  | other (hpc : ¬ Inside c) (hpc' : ¬ Inside c')
      (hnot : c'.pc ≠ .takeSession ∧ c'.pc ≠ .ended .nullSessionPool)
      (hread : c.pc ≠ .testStarted) (hworld : SameConnection g.world g'.world)

/-- A statement outside of the protected sections. -/
theorem moves_of_outside (hpc : ¬ Inside c) (hsec' : ¬ InSection c'.pc)
    (hnot : c'.pc ≠ .takeSession ∧ c'.pc ≠ .ended .nullSessionPool) (hread : c.pc ≠ .testStarted)
    (hmutex : g'.mutex = g.mutex) (hworld : SameConnection g.world g'.world) :
    MutexMove t g c g' c' ∧ ConnectMove t g c r g' c' := by
  refine ⟨.outside hsec' hmutex, .other hpc ?_ hnot hread hworld⟩
  rintro ⟨pc', hpc'⟩
  rw [hpc'] at hsec'
  exact hsec' trivial

/-- The end of a protected section other than `CreateSessionPool`. -/
theorem moves_of_leave (hpc : ¬ Inside c) (hsec : InSection c.pc) (hsec' : ¬ InSection c'.pc)
    (hnot : c'.pc ≠ .takeSession ∧ c'.pc ≠ .ended .nullSessionPool)
    (hmutex : g'.mutex = none) (hworld : SameConnection g.world g'.world) :
    MutexMove t g c g' c' ∧ ConnectMove t g c r g' c' := by
  refine ⟨.leave hsec hsec' hmutex, .other hpc ?_ hnot ?_ hworld⟩
  · rintro ⟨pc', hpc'⟩
    rw [hpc'] at hsec'
    exact hsec' trivial
  · intro hread
    rw [hread] at hsec
    exact hsec

/-- `takeSession` leaves the mutex and the connection alone. -/
theorem take_moves {o : Outcome (Option SessionId)} (h : c.take g o = some (g', c')) :
    g'.mutex = g.mutex ∧ SameConnection g.world g'.world ∧ ¬ InSection c'.pc ∧
      c'.pc ≠ .takeSession ∧ c'.pc ≠ .ended .nullSessionPool := by
  unfold Call.take at h
  split at h
  · split at h
    · cases h
    · cases h
      exact ⟨rfl, .refl _, id, by simp, by simp⟩
  · cases h
    exact ⟨rfl, (SameConnection.refl _).setError _, id, by simp [Call.goto], by simp [Call.goto]⟩
  · cases h
    exact ⟨rfl, (SameConnection.refl _).setError _, id, by simp [Call.goto], by simp [Call.goto]⟩

/-- So does `session->close()`. -/
theorem closeSession_shared {pc : SendPc} {o : Outcome Unit}
    (h : c.closeSession g pc o = some (g', c')) :
    g'.mutex = g.mutex ∧ SameConnection g.world g'.world := by
  unfold Call.closeSession at h
  split at h <;> cases h <;> exact ⟨rfl, .refl _⟩

/-- So does the return of the producer's `sendmessage`. -/
theorem sent_moves {k : ℕ} {b : Bool} (h : c.sent g k b = some (g', c')) :
    g'.mutex = g.mutex ∧ SameConnection g.world g'.world ∧ ¬ InSection c'.pc ∧
      c'.pc ≠ .takeSession ∧ c'.pc ≠ .ended .nullSessionPool := by
  unfold Call.sent at h
  split at h
  · cases h
    exact ⟨rfl, .refl _, id, by simp, by simp⟩
  · split at h
    · cases h
      exact ⟨rfl, (SameConnection.refl _).setError _, id, by simp, by simp⟩
    · cases h
      exact ⟨rfl, .refl _, id, by simp [Call.goto], by simp [Call.goto]⟩

/-- Every step is one of these. -/
theorem moves_of_step (h : c.step t g r = some (g', c')) :
    MutexMove t g c g' c' ∧ ConnectMove t g c r g' c' := by
  cases callStep_of_step h with
  | created hpc =>
      exact moves_of_outside (by simp [Inside, hpc]) id (by simp [Call.goto]) (by simp [hpc]) rfl
        (.refl _)
  | notCreated hpc =>
      exact moves_of_outside (by simp [Inside, hpc]) id (by simp [Call.goto]) (by simp [hpc]) rfl
        ((SameConnection.refl _).setError _)
  | readFlag hpc =>
      refine ⟨.outside ?_ rfl, .readFlag hpc rfl (.refl _)⟩
      dsimp only [Call.goto]
      split <;> exact id
  | @lock pc' hpc hfree =>
      generalize hc : c.pc = pc at hpc
      cases hpc with
      | connect => exact ⟨.enter hfree rfl, .enter hc rfl hfree (.refl _)⟩
      | create | free =>
          exact ⟨.enter hfree rfl, .other (by simp [Inside, hc]) (by simp [Inside, Call.goto])
            (by simp [Call.goto]) (by simp [hc]) (.refl _)⟩
  | connect hpc hstep =>
      exact ⟨.inside (by rw [hpc]; trivial) rfl, .statement hpc rfl hstep rfl⟩
  | @connected b hpc =>
      refine ⟨.leave (by rw [hpc]; trivial) ?_ rfl, .leave hpc rfl (.refl _)⟩
      cases b <;> exact id
  | nullSessionPool hpc hnull => exact ⟨.outside id rfl, .null hpc rfl hnull (.refl _)⟩
  | take hpc htake =>
      obtain ⟨hmutex, hworld, hsec, hnot⟩ := take_moves htake
      exact moves_of_outside (by simp [Inside, hpc]) hsec hnot (by simp [hpc]) hmutex hworld
  | create hpc hcreate =>
      exact ⟨.inside (by rw [hpc]; trivial) rfl, .other (by simp [Inside, hpc]) (by simp [Inside])
        (by simp) (by simp [hpc]) ((SameConnection.refl _).setPool _)⟩
  | createFault hpc hfault =>
      exact moves_of_leave (by simp [Inside, hpc]) (by rw [hpc]; trivial) id (by simp [Call.goto])
        rfl (.refl _)
  | unlockCreate hpc =>
      refine moves_of_leave (by simp [Inside, hpc]) (by rw [hpc]; trivial) ?_ ?_ rfl (.refl _)
      all_goals cases c.producer <;> simp [Call.goto, InSection]
  | closeOverflow hpc hclose =>
      obtain ⟨hmutex, hworld⟩ := closeSession_shared hclose
      obtain ⟨-, pc', rfl, hpc'⟩ := closeSession_eq_some hclose
      refine moves_of_outside (by simp [Inside, hpc]) ?_ ?_ (by simp [hpc]) hmutex
        ⟨hworld.started, hworld.connection, hworld.resourcemgr, hworld.sessionpool, hworld.cms⟩
      all_goals rcases hpc' with rfl | ⟨msg, rfl⟩ <;> simp [Call.goto, InSection]
  | producer hpc hk hstep =>
      obtain ⟨hmutex, hworld⟩ := producerStep_shared hstep
      exact moves_of_outside (by simp [Inside, hpc]) id (by simp [Call.goto]) (by simp [hpc])
        hmutex hworld
  | sent hpc hk hsent =>
      obtain ⟨hmutex, hworld, hsec, hnot⟩ := sent_moves hsent
      exact moves_of_outside (by simp [Inside, hpc]) hsec hnot (by simp [hpc]) hmutex hworld
  | close hpc hclose =>
      obtain ⟨hmutex, hworld⟩ := closeSession_shared hclose
      obtain ⟨-, pc', rfl, hpc'⟩ := closeSession_eq_some hclose
      refine moves_of_outside (by simp [Inside, hpc]) ?_ ?_ (by simp [hpc]) hmutex hworld
      all_goals rcases hpc' with rfl | ⟨msg, rfl⟩ <;> simp [Call.goto, InSection]
  | free hpc hfree =>
      exact ⟨.inside (by rw [hpc]; trivial) rfl, .other (by simp [Inside, hpc])
        (by simp [Inside, Call.goto]) (by simp [Call.goto]) (by simp [hpc])
        ((SameConnection.refl _).setPool _)⟩
  | freeFault hpc hfault =>
      exact moves_of_leave (by simp [Inside, hpc]) (by rw [hpc]; trivial) id (by simp [Call.goto])
        rfl (.refl _)
  | unlockFree hpc =>
      exact moves_of_leave (by simp [Inside, hpc]) (by rw [hpc]; trivial) id (by simp [Call.goto])
        rfl (.refl _)

/-- A new call is outside of all sections. -/
theorem not_inSection_new (msg : String) : ¬ InSection (Call.new msg).pc := id

/-- **Mutual exclusion** is kept by every step. -/
theorem exclusion_step {a : SendAction} (h : Exclusion s) (hstep : s.step a = some s') :
    Exclusion s' := by
  cases a with
  | begin msg =>
      cases hstep
      exact Threads.forall_append
        (P := fun t (c : Call) => InSection c.pc → s.shared.mutex = some t)
        (fun hin => absurd hin (not_inSection_new msg)) h
  | act t r =>
      obtain ⟨c, g', c', hc, hcall, rfl⟩ := act_eq_some hstep
      have hothers : ∀ (i : ℕ) (x : Call), i ≠ t → s.calls[i]? = some x → InSection x.pc →
          InSection c.pc → False := by
        intro i x hi hx hin hcin
        have hmutex := (h i x hx hin).symm.trans (h t c hc hcin)
        exact hi (Option.some.inj hmutex)
      refine Threads.forall_set
        (P := fun i (c : Call) => InSection c.pc → g'.mutex = some i) hc ?_ ?_
      · intro hin
        cases (moves_of_step hcall).1 with
        | enter hfree hmutex => exact hmutex
        | inside hcin hmutex =>
            rw [hmutex]
            exact h t c hc hcin
        | outside hout hmutex => exact absurd hin hout
        | leave hcin hout hmutex => exact absurd hin hout
      · intro i x hi hx hin
        have hmutex' := h i x hx hin
        cases (moves_of_step hcall).1 with
        | enter hfree hmutex =>
            rw [hfree] at hmutex'
            cases hmutex'
        | inside hcin hmutex => exact absurd hcin fun hcin => hothers i x hi hx hin hcin
        | outside hout hmutex =>
            rw [hmutex]
            exact hmutex'
        | leave hcin hout hmutex => exact absurd hcin fun hcin => hothers i x hi hx hin hcin

/-- While a call is inside `CreateSessionPool`, no other is. -/
theorem Exclusion.eq_of_inside {i : ℕ} {x : Call} (h : Exclusion s) (hc : s.calls[t]? = some c)
    (hx : s.calls[i]? = some x) (hin : Inside c) (hin' : Inside x) : i = t := by
  obtain ⟨pc, hpc⟩ := hin
  obtain ⟨pc', hpc'⟩ := hin'
  have ht := h t c hc (by rw [hpc]; trivial)
  have hi := h i x hx (by rw [hpc']; trivial)
  exact Option.some.inj (hi.symm.trans ht)

end DsAmq.Analysis
