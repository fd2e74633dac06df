import DsAmq.Analysis.SendMutex
import DsAmq.Analysis.SlotReturn
import DsAmq.Analysis.WholeConnect
import DsAmq.Library.Progress

/-!
# Concurrent `sendmessage` calls come to their ends

Every step of a call brings it closer to its end (`sendSize_step`), whatever the other calls do
and whatever the library answers; so a run cannot be longer than the number of its calls allows
(`sendmessage_steps_bounded`).

A call that has not ended can make its next step, unless it waits for the mutex; then another call
is inside a protected section and can make its own (`sendmessage_deadlock_free`).  The invariant is
`Lively`: with mutual exclusion, the mutex is only held by a call inside a section (`MutexOwned`).
-/

set_option autoImplicit false

namespace DsAmq.Analysis

open DsAmq.Model DsAmq.Library

variable {n t k : ℕ} {d : Destination} {g g' : Shared} {c c' : Call} {r : Reply}
  {s s' : SendSystem}

/-! ## What a call has left to do -/

/-- The statements of `CDSAMQProducer::sendmessage` that can be left, at most. -/
def producerSize : ProducerPc → ℕ
  | .testArguments => 7
  | .testDestination => 6
  | .createDestination => 5
  | .createCachedProducer => 4
  | .setDeliveryMode _ => 3
  | .createTextMessage _ => 2
  | .send _ _ => 1
  | .returned _ | .fault _ => 0

/-- The statements of `CDSAMQProducerPoolMgr::sendmessage` that can be left, at most. -/
def sendSize : SendPc → ℕ
  | .isCreated => 41
  | .testStarted => 40
  | .lockConnect => 39
  | .connect pc => connectSize pc + 17
  | .takeSession => 16
  | .lockCreate => 15
  | .createPoolItem => 14
  | .unlockCreate => 13
  | .sending pc => producerSize pc + 5
  | .close => 4
  | .lockFree => 3
  | .freePoolItem => 2
  | .unlockFree => 1
  | .closeOverflow => 1
  | .ended _ => 0

/-- A statement of `CreateSessionPool` is done with. -/
theorem connectSize_step {w w' : MgrWorld} {pc pc' : ConnectPc}
    (h : pc.step w r = some (w', pc')) : connectSize pc' < connectSize pc := by
  have hpc : ∀ b, pc ≠ .returned b := by
    rintro b rfl
    cases r <;> cases h
  obtain ⟨hreply, -⟩ := foresee_spec (o := ⟨.ok (), .ok (), .ok ()⟩) h
  obtain ⟨w₁, pc₁, hstep, -, hlt⟩ :=
    connect_advance (foresee ⟨.ok (), .ok (), .ok ()⟩ pc r) w hpc
  rw [hreply, h] at hstep
  cases hstep
  exact hlt

/-- Work on an element leads where the work says, or to a fault. -/
theorem onProducer_size {f : Producer → ProducerPc × Producer} {pc : ProducerPc} {m : ℕ}
    (h : g.onProducer k f = (g', pc)) (hf : ∀ e, producerSize (f e).1 < m) :
    producerSize pc < m := by
  have hpos : 0 < m := Nat.lt_of_le_of_lt (Nat.zero_le _) (hf Producer.new)
  unfold Shared.onProducer Shared.onItem at h
  cases hitem : g.world.mgr.pool.onItem k f with
  | error e =>
      simp only [hitem, Except.map, Prod.mk.injEq] at h
      rw [← h.2]
      exact hpos
  | ok x =>
      obtain ⟨pc₁, p'⟩ := x
      obtain ⟨-, e, -, -, hpc, -⟩ := onItem_eq_ok.mp hitem
      simp only [hitem, Except.map, Prod.mk.injEq] at h
      rw [← h.2, hpc]
      exact hf e

/-- A statement of `CDSAMQProducer::sendmessage` is done with. -/
theorem producerSize_step {session : Option SessionId} {msg : String} {pc pc' : ProducerPc}
    (h : pc.step t k session msg g r = some (g', pc')) : producerSize pc' < producerSize pc := by
  unfold ProducerPc.step at h
  split at h
  · exact onProducer_size (Option.some.inj h) fun _ => by simp [producerSize]
  · split at h
    · exact onProducer_size (Option.some.inj h) fun _ => by simp [producerSize]
    · cases h
      simp [producerSize]
  · refine onProducer_size (Option.some.inj h) fun e => ?_
    dsimp only
    split <;> simp [producerSize]
  · exact onProducer_size (Option.some.inj h) fun _ => by simp [producerSize]
  · exact onProducer_size (Option.some.inj h) fun _ => by simp [producerSize]
  · cases h
    simp [producerSize]
  · exact onProducer_size (Option.some.inj h) fun _ => by simp [producerSize]
  · exact onProducer_size (Option.some.inj h) fun _ => by simp [producerSize]
  · exact onProducer_size (Option.some.inj h) fun _ => by simp [producerSize]
  · cases h
    simp [producerSize]
  · exact onProducer_size (Option.some.inj h) fun _ => by simp [producerSize]
  · cases h
    simp [producerSize]
  · exact onProducer_size (Option.some.inj h) fun _ => by simp [producerSize]
  · cases h

/-- **Every step of a call brings it closer to its end.** -/
theorem sendSize_step (h : c.step t g r = some (g', c')) : sendSize c'.pc < sendSize c.pc := by
  cases callStep_of_step h with
  | created hpc => simp [hpc, Call.goto, sendSize]
  | notCreated hpc => simp [hpc, Call.goto, sendSize]
  | readFlag hpc =>
      rw [hpc]
      dsimp only [Call.goto]
      split <;> simp [sendSize]
  | lock hpc hfree =>
      generalize hc : c.pc = pc at hpc
      cases hpc <;> simp [Call.goto, sendSize, connectSize]
  | connect hpc hstep =>
      have hlt := connectSize_step hstep
      simp only [hpc, Call.goto, sendSize]
      omega
  | @connected b hpc =>
      cases b <;> simp [hpc, Call.goto, sendSize, connectSize]
  | nullSessionPool hpc hnull => simp [hpc, Call.goto, sendSize]
  | take hpc htake =>
      obtain ⟨-, -, -, hnext⟩ := take_eq_some htake
      rw [hpc]
      rcases hnext with hnext | hnext
      · rw [hnext]
        simp [sendSize]
      · rw [hnext]
        simp [sendSize]
  | create hpc hcreate => simp [hpc, sendSize]
  | createFault hpc hfault => simp [hpc, Call.goto, sendSize]
  | unlockCreate hpc =>
      rw [hpc]
      dsimp only [Call.goto]
      split <;> simp [sendSize, producerSize]
  | closeOverflow hpc hclose =>
      obtain ⟨-, pc', rfl, hpc'⟩ := closeSession_eq_some hclose
      rcases hpc' with rfl | ⟨msg, rfl⟩ <;> simp [hpc, Call.goto, sendSize]
  | producer hpc hk hstep =>
      have hlt := producerSize_step hstep
      simp only [hpc, Call.goto, sendSize]
      omega
  | @sent k b _ _ hpc hk hsent =>
      rw [hpc]
      unfold Call.sent at hsent
      split at hsent
      · cases hsent
        simp [sendSize, producerSize]
      · split at hsent <;> cases hsent <;> simp [Call.goto, sendSize, producerSize]
  | close hpc hclose =>
      obtain ⟨-, pc', rfl, hpc'⟩ := closeSession_eq_some hclose
      rcases hpc' with rfl | ⟨msg, rfl⟩ <;> simp [hpc, Call.goto, sendSize]
  | free hpc hfree => simp [hpc, Call.goto, sendSize]
  | freeFault hpc hfault => simp [hpc, Call.goto, sendSize]
  | unlockFree hpc => simp [hpc, Call.goto, sendSize]

/-! ## The length of a run -/

/-- The action is the beginning of a call. -/
def isBegin : SendAction → Bool
  | .begin _ => true
  | .act _ _ => false

/-- What the calls have left to do, in total. -/
def callsSize (s : SendSystem) : ℕ := (s.calls.map fun c => sendSize c.pc).sum

/-- A call that begins adds what a whole call can be, a call that moves uses up at least one
statement. -/
theorem callsSize_step {a : SendAction} (h : s.step a = some s') :
    callsSize s' + (!isBegin a).toNat ≤ callsSize s + 41 * (isBegin a).toNat := by
  cases a with
  | begin msg =>
      cases h
      have hnew : sendSize (Call.new msg).pc = 41 := rfl
      simp [callsSize, isBegin, hnew]
  | act t r =>
      obtain ⟨c, g', c', hc, hcall, rfl⟩ := act_eq_some h
      have hlt := sendSize_step hcall
      have hsum := Threads.sum_map_set_add (b := c') (fun c : Call => sendSize c.pc) hc
      simp only [callsSize, isBegin, Bool.not_false, Bool.toNat_true, Bool.toNat_false]
      omega

/-- The call has ended. -/
def Ended (c : Call) : Prop := ∃ result, c.pc = .ended result

/-- The call is about to take the mutex. -/
def AtLock : SendPc → Prop
  | .lockConnect | .lockCreate | .lockFree => True
  | _ => False

theorem not_inSection_of_atLock {pc : SendPc} (h : AtLock pc) : ¬ InSection pc := by
  cases pc with
  | lockConnect | lockCreate | lockFree => exact id
  | _ => cases h

/-- The call `t` can make its next step. -/
def CanStep (s : SendSystem) (t : ℕ) : Prop := ∃ r s', s.step (.act t r) = some s'

/-- The mutex is held by a call that is inside a protected section. -/
def MutexOwned (s : SendSystem) : Prop :=
  ∀ t, s.shared.mutex = some t → ∃ c, s.calls[t]? = some c ∧ InSection c.pc

/-- After a step the mutex is free, or held as before, and then the call is still inside its
section if it was, or held by the call, which has come into a section. -/
theorem mutex_after (h : c.step t g r = some (g', c')) :
    g'.mutex = none ∨ (g'.mutex = g.mutex ∧ (InSection c.pc → InSection c'.pc)) ∨
      (g'.mutex = some t ∧ InSection c'.pc) := by
  have houtside : ∀ {g₁ : Shared} {c₁ : Call}, g₁.mutex = g.mutex → ¬ InSection c.pc →
      g₁.mutex = none ∨ (g₁.mutex = g.mutex ∧ (InSection c.pc → InSection c₁.pc)) ∨
        (g₁.mutex = some t ∧ InSection c₁.pc) :=
    fun hsame hout => .inr (.inl ⟨hsame, fun hin => absurd hin hout⟩)
  cases callStep_of_step h with
  | created hpc => exact houtside rfl (by rw [hpc]; exact id)
  | notCreated hpc => exact houtside rfl (by rw [hpc]; exact id)
  | readFlag hpc => exact houtside rfl (by rw [hpc]; exact id)
  | lock hpc hfree =>
      refine .inr (.inr ⟨rfl, ?_⟩)
      generalize hc : c.pc = pc at hpc
      cases hpc <;> trivial
  | connect hpc hstep => exact .inr (.inl ⟨rfl, fun _ => trivial⟩)
  | connected hpc => exact .inl rfl
  | nullSessionPool hpc hnull => exact houtside rfl (by rw [hpc]; exact id)
  | take hpc htake => exact houtside (take_moves htake).1 (by rw [hpc]; exact id)
  | create hpc hcreate => exact .inr (.inl ⟨rfl, fun _ => trivial⟩)
  | createFault hpc hfault => exact .inl rfl
  | unlockCreate hpc => exact .inl rfl
  | closeOverflow hpc hclose =>
      exact houtside (closeSession_shared hclose).1 (by rw [hpc]; exact id)
  | producer hpc hk hstep =>
      exact houtside (producerStep_shared hstep).1 (by rw [hpc]; exact id)
  | sent hpc hk hsent => exact houtside (sent_moves hsent).1 (by rw [hpc]; exact id)
  | close hpc hclose => exact houtside (closeSession_shared hclose).1 (by rw [hpc]; exact id)
  | free hpc hfree => exact .inr (.inl ⟨rfl, fun _ => trivial⟩)
  | freeFault hpc hfault => exact .inl rfl
  | unlockFree hpc => exact .inl rfl

theorem mutexOwned_step {a : SendAction} (h : MutexOwned s) (hstep : s.step a = some s') :
    MutexOwned s' := by
  cases a with
  | begin msg =>
      cases hstep
      intro i hi
      obtain ⟨x, hx, hin⟩ := h i hi
      exact ⟨x, Threads.getElem?_append_eq_some.mpr (.inl hx), hin⟩
  | act t r =>
      obtain ⟨c, g', c', hc, hcall, rfl⟩ := act_eq_some hstep
      have hself : (s.calls.set t c')[t]? = some c' :=
        (Threads.getElem?_set_eq_some hc).mpr (.inl ⟨rfl, rfl⟩)
      intro i hi
      rcases mutex_after hcall with hfree | ⟨hsame, hin⟩ | ⟨htaken, hin⟩
      · rw [hfree] at hi
        cases hi
      · rw [hsame] at hi
        obtain ⟨x, hx, hxin⟩ := h i hi
        by_cases hit : i = t
        · subst hit
          rw [hc, Option.some.injEq] at hx
          exact ⟨c', hself, hin (hx ▸ hxin)⟩
        · exact ⟨x, (Threads.getElem?_set_eq_some hc).mpr (.inr ⟨hit, hx⟩), hxin⟩
      · rw [htaken, Option.some.injEq] at hi
        exact ⟨c', hi ▸ hself, hin⟩

/-- A producer does not run into a fault on an element that is handed out. -/
theorem producerMove_no_fault {hs : List ℕ} {session : Option SessionId} {msg : String}
    {pc pc' : ProducerPc} (h : Slots n hs g.world.mgr.pool)
    (hconf : Configured d g.world.mgr.pool.pool) (hk : k ∈ hs)
    (hmove : ProducerMove t k session msg g pc g' pc') (e : Fault) : pc' ≠ .fault e := by
  cases hmove with
  | item f hres hidx hdest hnext hpc =>
      obtain ⟨x, p', hsends, heq, -, -⟩ := onProducer_of_slots h hconf hk hidx (hdest d)
      rw [hres, Prod.mk.injEq] at heq
      rw [heq.2]
      rcases hnext d x hsends with hret | ⟨-, hret | hret | hret⟩ <;> simp [hret]
  | nonempty hne => simp
  | setDeliveryMode hsession => simp
  | createTextMessage => simp
  | send hsession => simp

/-- No call is at a fault of its producer. -/
def NoProducerFault (s : SendSystem) : Prop :=
  ∀ (t : ℕ) c, s.calls[t]? = some c → ∀ e, c.pc ≠ .sending (.fault e)

theorem noProducerFault_step {a : SendAction} (howned : Owned n d s) (h : NoProducerFault s)
    (hstep : s.step a = some s') : NoProducerFault s' := by
  cases a with
  | begin msg =>
      cases hstep
      exact Threads.forall_append (P := fun _ (c : Call) => ∀ e, c.pc ≠ .sending (.fault e))
        (fun e => by simp [Call.new]) h
  | act t r =>
      obtain ⟨c, g', c', hc, hcall, rfl⟩ := act_eq_some hstep
      refine Threads.forall_set (P := fun _ (c : Call) => ∀ e, c.pc ≠ .sending (.fault e)) hc ?_
        fun i x _ hx => h i x hx
      intro e hfault
      cases howned.move hc hcall with
      | before hpc hpc' =>
          rw [hfault] at hpc'
          simp [BeforeProducer] at hpc'
      | create hpc hcreate => cases hfault
      | unlockCreate hpc hsame =>
          cases hp : c.producer <;> simp [Call.goto, hp] at hfault
      | overflow hpc hpc' hsame =>
          rcases hpc' with rfl | ⟨msg, rfl⟩ <;> cases hfault
      | @producer k g' pc pc' hpc hk hmove =>
          have hholds : holds c = some k := by simp only [holds, hpc, hk]
          cases hfault
          exact producerMove_no_fault howned.slots howned.configured (mem_held hc hholds) hmove e
            rfl
      | sent hpc hsame => cases hfault
      | closing hpc hpc' hsame =>
          rcases hpc' with rfl | rfl | ⟨msg, rfl⟩ <;> cases hfault
      | free hpc hk hfree => cases hfault
      | unlockFree hpc hsame => cases hfault

/-- A call inside `CDSAMQProducer::sendmessage` can make its next step. -/
theorem producer_canStep {session : SessionId} {pc : ProducerPc} (hpc : c.pc = .sending pc)
    (hk : c.producer = some k) (hsession : c.session = some session)
    (hfault : ∀ e, pc ≠ .fault e) : ∃ r g' c', c.step t g r = some (g', c') := by
  cases pc with
  | testArguments | testDestination =>
      refine ⟨.tau, ?_⟩
      simp only [Call.step, hpc, hk, hsession, ProducerPc.step, Option.map_some]
      exact ⟨_, _, rfl⟩
  | createDestination | createCachedProducer | setDeliveryMode d' | createTextMessage d'
    | send d' body =>
      refine ⟨.call (.ok ()), ?_⟩
      simp only [Call.step, hpc, hk, hsession, ProducerPc.step, Option.map_some]
      exact ⟨_, _, rfl⟩
  | returned b =>
      refine ⟨.tau, ?_⟩
      simp only [Call.step, hpc, hk, Call.sent]
      split
      · exact ⟨_, _, rfl⟩
      · split <;> exact ⟨_, _, rfl⟩
  | fault e => exact absurd rfl (hfault e)

/-- A call that has not ended can make its next step, if it does not have to wait for the
mutex. -/
theorem call_canStep (hplaced : Placed c) (hsessioned : Sessioned c)
    (hfault : ∀ e, c.pc ≠ .sending (.fault e)) (hended : ¬ Ended c)
    (hlock : AtLock c.pc → g.mutex = none) : ∃ r g' c', c.step t g r = some (g', c') := by
  cases hpc : c.pc with
  | isCreated =>
      refine ⟨.tau, ?_⟩
      simp only [Call.step, hpc]
      split <;> exact ⟨_, _, rfl⟩
  | testStarted | unlockCreate | unlockFree =>
      refine ⟨.tau, ?_⟩
      simp only [Call.step, hpc, Call.unlock]
      exact ⟨_, _, rfl⟩
  | lockConnect | lockCreate | lockFree =>
      have hfree := hlock (by rw [hpc]; trivial)
      refine ⟨.tau, ?_⟩
      simp only [Call.step, hpc, Call.lock, hfree, Option.isNone_none, if_true]
      exact ⟨_, _, rfl⟩
  | connect pc =>
      by_cases hret : ∃ b, pc = .returned b
      · obtain ⟨b, rfl⟩ := hret
        refine ⟨.tau, ?_⟩
        simp only [Call.step, hpc, Call.unlock]
        exact ⟨_, _, rfl⟩
      · obtain ⟨w', pc', hstep, -, -⟩ :=
          connect_advance ⟨.ok (), .ok (), .ok ()⟩ g.world (not_exists.mp hret)
        refine ⟨connectReply ⟨.ok (), .ok (), .ok ()⟩ pc, { g with world := w' },
          c.goto (.connect pc'), ?_⟩
        cases pc with
        | returned b => exact absurd ⟨b, rfl⟩ hret
        | _ => simp only [Call.step, hpc, hstep, Option.map_some]
  | takeSession =>
      cases hpool : g.world.mgr.sessionpool with
      | none =>
          refine ⟨.tau, ?_⟩
          simp only [Call.step, hpc, hpool, Option.isNone_none, if_true]
          exact ⟨_, _, rfl⟩
      | some pool =>
          refine ⟨.session (.ok none), ?_⟩
          simp only [Call.step, hpc, hpool, Option.isNone_some, Bool.false_eq_true, if_false,
            Call.take]
          exact ⟨_, _, rfl⟩
  | createPoolItem =>
      refine ⟨.tau, ?_⟩
      simp only [Call.step, hpc, Call.createPoolItem]
      split <;> exact ⟨_, _, rfl⟩
  | closeOverflow | close =>
      refine ⟨.call (.ok ()), ?_⟩
      simp only [Call.step, hpc, Call.closeSession]
      exact ⟨_, _, rfl⟩
  | sending pc =>
      obtain ⟨k, hk⟩ : ∃ k, c.producer = some k := by
        rw [← Option.isSome_iff_exists]
        simpa [Placed, hpc] using hplaced
      obtain ⟨session, hsession⟩ : ∃ session, c.session = some session := by
        rw [← Option.isSome_iff_exists]
        simpa [Sessioned, hpc] using hsessioned
      refine producer_canStep hpc hk hsession ?_
      rintro e rfl
      exact hfault e hpc
  | freePoolItem =>
      refine ⟨.tau, ?_⟩
      simp only [Call.step, hpc, Call.freePoolItem]
      split <;> exact ⟨_, _, rfl⟩
  | ended result => exact absurd ⟨result, hpc⟩ hended

/-- What keeps the calls going. -/
structure Lively (n : ℕ) (d : Destination) (s : SendSystem) : Prop where
  owned : Owned n d s
  closed : ∃ out, Closed out s
  mutex : MutexOwned s
  fault : NoProducerFault s

/-- **The step lemma.** -/
theorem lively_step {a : SendAction} (h : Lively n d s) (hstep : s.step a = some s') :
    Lively n d s' := by
  obtain ⟨out, hclosed⟩ := h.closed
  exact ⟨owned_step h.owned hstep, ⟨_, closed_step hclosed h.owned hstep⟩,
    mutexOwned_step h.mutex hstep, noProducerFault_step h.owned h.fault hstep⟩

theorem Lively.canStep (h : Lively n d s) (hc : s.calls[t]? = some c) (hended : ¬ Ended c)
    (hlock : AtLock c.pc → s.shared.mutex = none) : CanStep s t := by
  obtain ⟨out, hclosed⟩ := h.closed
  obtain ⟨r, g', c', hstep⟩ := call_canStep (t := t) (g := s.shared) (h.owned.placed t c hc)
    (hclosed.sessioned t c hc) (h.fault t c hc) hended hlock
  refine ⟨r, ⟨g', s.calls.set t c'⟩, ?_⟩
  simp only [SendSystem.step, hc, hstep, Option.map_some]

/-- The call that holds the mutex can make its next step. -/
theorem Lively.owner_canStep (h : Lively n d s) (hmutex : s.shared.mutex = some t) :
    CanStep s t := by
  obtain ⟨c, hc, hin⟩ := h.mutex t hmutex
  refine h.canStep hc ?_ ?_
  · rintro ⟨result, hpc⟩
    rw [hpc] at hin
    exact hin
  · intro hlock
    exact absurd hin (not_inSection_of_atLock hlock)

/-- A call that has not ended makes its next step, or waits for one that does. -/
theorem Lively.canStep_or_waits (h : Lively n d s) (hc : s.calls[t]? = some c)
    (hended : ¬ Ended c) :
    CanStep s t ∨ AtLock c.pc ∧ ∃ i, i ≠ t ∧ s.shared.mutex = some i ∧ CanStep s i := by
  by_cases hlock : AtLock c.pc
  · cases hmutex : s.shared.mutex with
    | none => exact .inl (h.canStep hc hended fun _ => hmutex)
    | some i =>
        refine .inr ⟨hlock, i, ?_, rfl, h.owner_canStep hmutex⟩
        rintro rfl
        obtain ⟨x, hx, hin⟩ := h.mutex i hmutex
        rw [hc, Option.some.injEq] at hx
        rw [← hx] at hin
        exact not_inSection_of_atLock hlock hin
  · exact .inl (h.canStep hc hended fun hat => absurd hat hlock)

/-- As long as a call has not ended, one of the calls moves on. -/
theorem Lively.exists_move (h : Lively n d s) (hnot : ¬ ∀ c ∈ s.calls, Ended c) :
    ∃ a s', isBegin a = false ∧ SendSystem.machine.step s a = some s' ∧
      callsSize s' < callsSize s ∧ Lively n d s' := by
  have hcan : ∃ i, CanStep s i := by
    simp only [not_forall] at hnot
    obtain ⟨c, hmem, hended⟩ := hnot
    obtain ⟨t, hc⟩ := List.getElem?_of_mem hmem
    rcases h.canStep_or_waits hc hended with hstep | ⟨-, i, -, -, hstep⟩
    · exact ⟨t, hstep⟩
    · exact ⟨i, hstep⟩
  obtain ⟨i, r, s', hstep⟩ := hcan
  have hsize := callsSize_step hstep
  simp only [isBegin, Bool.not_false, Bool.toNat_true, Bool.toNat_false] at hsize
  exact ⟨.act i r, s', rfl, hstep, by omega, lively_step h hstep⟩

end DsAmq.Analysis
