import DsAmq.Analysis.NoOverflow
import DsAmq.Analysis.FaithfulSend
import DsAmq.Analysis.SendMutex

/-!
# When `sendmessage` returns true

`sendmessage` has many ways to return false or not to return at all.  They are all for a reason:
in a pool that is created and connected, while the calls do not outnumber the producers, every call
with a text that is not empty returns true unless a library call that it makes fails
(`sendmessage_returns_true`).

`OnTrack` is what holds of a call all along: it is at none of the statements of the error paths, and
it carries what the next statements test.
-/

set_option autoImplicit false

namespace DsAmq.Analysis

open DsAmq.Model DsAmq.Library

variable {n t k : ℕ} {d : Destination} {g g' : Shared} {c c' : Call} {r : Reply}
  {s s' : SendSystem} {hs : List ℕ}

/-- A library call has failed: it threw, or `takeSession` returned NULL. -/
def failed : Reply → Bool
  | .call (.cms _) | .session (.cms _) | .session (.ok none) => true
  | _ => false

/-- A call begins with a text, or makes a step in which no library call fails. -/
def succeeds : SendAction → Bool
  | .begin msg => !msg.isEmpty
  | .act _ r => !failed r

/-- The producer has not failed. -/
def ProducerOnTrack : ProducerPc → Prop
  | .returned false | .fault _ => False
  | _ => True

/-- The call is on the way to `return true`. -/
def OnTrack (c : Call) : Prop :=
  c.strMessage.isEmpty = false ∧
    match c.pc with
    | .isCreated | .testStarted | .takeSession => True
    | .lockCreate | .createPoolItem | .unlockCreate => c.session.isSome = true
    | .sending pc => c.session.isSome = true ∧ ProducerOnTrack pc
    | .close | .lockFree | .freePoolItem | .unlockFree => c.bSent = true
    | .ended result => result = .returned true
    | .lockConnect | .connect _ | .closeOverflow => False

/-- The flag is set and there is a session pool. -/
def SessionsReady (w : MgrWorld) : Prop :=
  w.mgr.bStartedConnection = true ∧ w.mgr.sessionpool.isSome = true

/-! ## The steps -/

/-- A statement that works on an element which the call holds, and does not fail. -/
theorem onProducer_onTrack {f : Producer → ProducerPc × Producer} {pc' : ProducerPc}
    (hslots : Slots n hs g.world.mgr.pool) (hk : k ∈ hs) (h : g.onProducer k f = (g', pc'))
    (hf : ∀ e, ProducerOnTrack (f e).1) : ProducerOnTrack pc' := by
  obtain ⟨e, hget, -⟩ := get_of_slots hslots hk
  obtain ⟨elems, hpool, he⟩ := get_eq_ok.mp hget
  have hitem := (onItem_eq_ok (f := f)).mpr ⟨elems, e, hpool, he, rfl, rfl⟩
  simp only [Shared.onProducer, Shared.onItem, hitem, Except.map, Prod.mk.injEq] at h
  rw [← h.2]
  exact hf e

/-- A statement of `CDSAMQProducer::sendmessage`. -/
theorem producerStep_onTrack {session : Option SessionId} {msg : String} {pc pc' : ProducerPc}
    (hslots : Slots n hs g.world.mgr.pool) (hk : k ∈ hs) (hsession : session.isSome = true)
    (hmsg : msg.isEmpty = false) (hr : failed r = false)
    (h : pc.step t k session msg g r = some (g', pc')) : ProducerOnTrack pc' := by
  unfold ProducerPc.step at h
  split at h
  · cases hsession
  · rw [hmsg] at h
    cases h
    trivial
  · refine onProducer_onTrack hslots hk (Option.some.inj h) ?_
    intro e
    dsimp only
    split <;> trivial
  · exact onProducer_onTrack hslots hk (Option.some.inj h) fun _ => trivial
  · exact onProducer_onTrack hslots hk (Option.some.inj h) fun _ => trivial
  · cases h
    trivial
  · cases hr
  · cases hr
  · cases hr
  · cases h
    trivial
  · cases hr
  · cases h
    trivial
  · cases hr
  · cases h

/-- **The step of a call**: it stays on its way. -/
theorem call_onTrack (hslots : Slots n hs g.world.mgr.pool) (hconn : SessionsReady g.world)
    (hmem : ∀ k, holds c = some k → k ∈ hs) (hplaced : Placed c) (hserved : HasProducer c)
    (htrack : OnTrack c) (hr : failed r = false) (h : c.step t g r = some (g', c')) :
    OnTrack c' := by
  obtain ⟨hmsg, hpc⟩ := htrack
  unfold Call.step at h
  cases hcpc : c.pc with
  | isCreated =>
      cases r <;> simp only [hcpc, reduceCtorEq] at h
      rw [if_pos hslots.created] at h
      cases h
      exact ⟨hmsg, trivial⟩
  | testStarted =>
      cases r <;> simp only [hcpc, reduceCtorEq] at h
      rw [hconn.1] at h
      cases h
      exact ⟨hmsg, trivial⟩
  | takeSession =>
      have hsome : g.world.mgr.sessionpool.isNone = false := by
        rw [← Option.not_isSome, hconn.2]
        rfl
      cases r with
      | tau =>
          simp only [hcpc, hsome] at h
          cases h
      | call o => simp only [hcpc, reduceCtorEq] at h
      | session o =>
          simp only [hcpc, hsome, Bool.false_eq_true, if_false] at h
          unfold Call.take at h
          split at h
          · split at h
            · cases h
            · cases h
              exact ⟨hmsg, rfl⟩
          · cases hr
          · cases hr
  | lockCreate =>
      rw [hcpc] at hpc
      cases r <;> simp only [hcpc, reduceCtorEq] at h
      obtain ⟨-, -, rfl⟩ := lock_eq_some h
      exact ⟨hmsg, hpc⟩
  | createPoolItem =>
      rw [hcpc] at hpc
      cases r <;> simp only [hcpc, reduceCtorEq] at h
      unfold Call.createPoolItem at h
      rcases createPoolItem_cases hslots with ⟨-, hok⟩ | ⟨-, k, p', -, -, hok, -⟩
      · rw [hok] at h
        cases h
        exact ⟨hmsg, hpc⟩
      · rw [hok] at h
        cases h
        exact ⟨hmsg, hpc⟩
  | unlockCreate =>
      rw [hcpc] at hpc
      cases r <;> simp only [hcpc, reduceCtorEq] at h
      have hsome : c.producer.isNone = false := by
        rw [← Option.not_isSome, hserved.2 hcpc]
        rfl
      rw [hsome] at h
      cases h
      exact ⟨hmsg, hpc, trivial⟩
  | sending pc =>
      rw [hcpc] at hpc
      simp only [hcpc] at h
      cases hk : c.producer with
      | none =>
          simp only [hk] at h
          cases h
      | some k =>
          simp only [hk] at h
          have hholds : holds c = some k := by simp only [holds, hcpc, hk]
          have hnext : ∀ g₁ pc', pc.step t k c.session c.strMessage g r = some (g₁, pc') →
              ProducerOnTrack pc' := fun g₁ pc' hstep =>
            producerStep_onTrack hslots (hmem k hholds) hpc.1 hmsg hr hstep
          cases pc with
          | returned b =>
              cases r with
              | tau =>
                  cases b with
                  | false => exact hpc.2.elim
                  | true =>
                      cases h
                      exact ⟨hmsg, rfl⟩
              | _ => cases h
          | _ =>
              obtain ⟨⟨g₁, pc'⟩, hstep, heq⟩ := Option.map_eq_some_iff.mp h
              cases heq
              exact ⟨hmsg, hpc.1, hnext g₁ pc' hstep⟩
  | close =>
      rw [hcpc] at hpc
      cases r with
      | call o =>
          simp only [hcpc] at h
          cases o with
          | ok u =>
              cases h
              exact ⟨hmsg, hpc⟩
          | cms msg => cases hr
      | _ => simp only [hcpc, reduceCtorEq] at h
  | lockFree =>
      rw [hcpc] at hpc
      cases r <;> simp only [hcpc, reduceCtorEq] at h
      obtain ⟨-, -, rfl⟩ := lock_eq_some h
      exact ⟨hmsg, hpc⟩
  | freePoolItem =>
      rw [hcpc] at hpc
      cases r <;> simp only [hcpc, reduceCtorEq] at h
      obtain ⟨k, hk⟩ : ∃ k, c.producer = some k := by
        rw [← Option.isSome_iff_exists]
        simpa [Placed, hcpc] using hplaced
      have hholds : holds c = some k := by simp only [holds, hcpc, hk]
      obtain ⟨p', hfree, -⟩ := freePoolItem_of_mem hslots (hmem k hholds)
      unfold Call.freePoolItem at h
      rw [hk, hfree] at h
      cases h
      exact ⟨hmsg, hpc⟩
  | unlockFree =>
      rw [hcpc] at hpc
      cases r <;> simp only [hcpc, reduceCtorEq] at h
      cases h
      exact ⟨hmsg, congrArg SendResult.returned hpc⟩
  | lockConnect | connect pc | closeOverflow =>
      rw [hcpc] at hpc
      exact hpc.elim
  | ended result => cases r <;> simp only [hcpc, reduceCtorEq] at h

/-- A call that is on its way does not touch the connection. -/
theorem connected_of_step (hconn : SessionsReady g.world) (htrack : OnTrack c)
    (h : c.step t g r = some (g', c')) : SessionsReady g'.world := by
  have hkeep : SameConnection g.world g'.world → SessionsReady g'.world := by
    intro hworld
    unfold SessionsReady
    rw [hworld.started, hworld.sessionpool]
    exact hconn
  cases (moves_of_step h).2 with
  | statement hpc =>
      have htrack := htrack.2
      rw [hpc] at htrack
      exact htrack.elim
  | enter _ _ _ hworld => exact hkeep hworld
  | leave _ _ hworld => exact hkeep hworld
  | readFlag _ _ hworld => exact hkeep hworld
  | null _ _ _ hworld => exact hkeep hworld
  | other _ _ _ _ hworld => exact hkeep hworld

/-! ## All calls -/

/-- The pool is connected, there are enough producers, and every call is on its way. -/
structure Succeeding (n : ℕ) (d : Destination) (s : SendSystem) : Prop where
  owned : Owned n d s
  roomy : Roomy n s
  connected : SessionsReady s.shared.world
  onTrack : ∀ (t : ℕ) c, s.calls[t]? = some c → OnTrack c

/-- **The step lemma.** -/
theorem succeeding_step {a : SendAction} (h : Succeeding n d s) (hroom : RoomFor n s a)
    (hok : succeeds a = true) (hstep : s.step a = some s') : Succeeding n d s' := by
  have howned := owned_step h.owned hstep
  have hroomy := roomy_step h.owned h.roomy hroom hstep
  cases a with
  | begin msg =>
      cases hstep
      refine ⟨howned, hroomy, h.connected, ?_⟩
      refine Threads.forall_append (P := fun _ c => OnTrack c) ⟨?_, trivial⟩ h.onTrack
      simpa [succeeds, Call.new] using hok
  | act t r =>
      obtain ⟨c, g', c', hc, hcall, rfl⟩ := act_eq_some hstep
      have hr : failed r = false := by simpa [succeeds] using hok
      have htrack := h.onTrack t c hc
      refine ⟨howned, hroomy, connected_of_step h.connected htrack hcall, ?_⟩
      refine Threads.forall_set (P := fun _ c => OnTrack c) hc ?_ fun i x _ hx => h.onTrack i x hx
      exact call_onTrack h.owned.slots h.connected (fun k hk => mem_held hc hk)
        (h.owned.placed t c hc) (h.roomy.served t c hc) htrack hr hcall

/-- **`sendmessage` returns true.**  From a pool that is created, with clamped size `n`, and
connected, in every run of concurrent calls in which a call begins only while fewer than `n` calls
have not returned, no text is empty and no library call fails: every call that has ended has
returned true, and the broker side has accepted its text exactly once. -/
theorem sendmessage_returns_true {w₀ w : MgrWorld} {cr : CreateCall}
    {modes : SessionId → Destination → DeliveryMode} {as : List SendAction} {s : SendSystem}
    (hcreated : CreatedBy w₀ cr w) (hconn : SessionsReady w)
    (hroom : SendSystem.machine.Meets (RoomFor (min cr.nPoolSize.toNat 50)) (.init w modes) as)
    (hok : ∀ a ∈ as, succeeds a = true)
    (hrun : SendSystem.machine.run (.init w modes) as = some s) {t : ℕ} {c : Call}
    (hc : s.calls[t]? = some c) {result : SendResult} (hended : c.pc = .ended result) :
    result = .returned true ∧
      acceptedBy s.shared t = [⟨givenDestination w₀.mgr cr, c.strMessage, .persistent⟩] := by
  have howned := owned_of_run hcreated (SendSystem.machine.run_nil (.init w modes))
  have hinit : Succeeding (min cr.nPoolSize.toNat 50) (givenDestination w₀.mgr cr)
      (.init w modes) :=
    ⟨howned, ⟨by simp [SendSystem.init], by simp [SendSystem.init]⟩, hconn,
      by simp [SendSystem.init]⟩
  have h : Succeeding (min cr.nPoolSize.toNat 50) (givenDestination w₀.mgr cr) s := by
    refine Machine.run_inv_of_meets ?_ hinit (Machine.meets_and hroom
      (Machine.meets_of_forall (P := fun _ a => succeeds a = true) _ fun a ha _ => hok a ha)) hrun
    intro s a s' h hmeets hstep
    exact succeeding_step h hmeets.1 hmeets.2 hstep
  have htrack := (h.onTrack t c hc).2
  rw [hended] at htrack
  have hsends := ((sendsFaithfully_of_run hcreated hrun).1.calls t c hc).sends true
    (by simp [verdict, hended, htrack])
  exact ⟨htrack, hsends⟩

theorem sendmessage_returns_true_one_after_the_other :
    ∃ s c, SendSystem.machine.run (.init oneProducer fun _ _ => .nonPersistent)
        oneAfterTheOther = some s ∧ s.calls[0]? = some c ∧ c.pc = .ended (.returned true) ∧
      acceptedBy s.shared 0 = [⟨⟨.queue, "orders"⟩, "a", .persistent⟩] := by
  have hroom : SendSystem.machine.Meets (RoomFor (min (1 : UInt32).toNat 50))
      (.init oneProducer fun _ _ => .nonPersistent) oneAfterTheOther := by
    decide +kernel
  have hcall : (SendSystem.machine.run (.init oneProducer fun _ _ => .nonPersistent)
      oneAfterTheOther).map (fun s => s.calls[0]?) =
      some (some ⟨"a", some 7, some 0, true, .ended (.returned true)⟩) := by
    decide +kernel
  obtain ⟨s, hrun, hc⟩ := Option.map_eq_some_iff.mp hcall
  obtain ⟨-, haccepted⟩ := sendmessage_returns_true oneProducer_createdBy ⟨by rfl, by rfl⟩ hroom
    (by decide) hrun hc rfl
  exact ⟨s, _, hrun, hc, rfl, haccepted⟩

end DsAmq.Analysis
