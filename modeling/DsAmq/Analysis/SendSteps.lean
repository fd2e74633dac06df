import DsAmq.Model.SendSystem
import DsAmq.Analysis.CreatedPool

/-!
# What a step of a `sendmessage` call can do

`Move t g c g' c'` lists the kinds of steps of the call `t`, as far as the pool, the sends and the
call itself are concerned; `move_of_step` shows that every step is one of them.  The proofs about
the concurrent calls go through this list and through `ProducerMove`, which does the same for
`CDSAMQProducer::sendmessage`.
-/

set_option autoImplicit false

namespace DsAmq.Analysis

open DsAmq.Model

/-- The pool, the delivery modes and the accepted sends are the same. -/
structure SameSends (g g' : Shared) : Prop where
  pool : g'.world.mgr.pool = g.world.mgr.pool
  modes : g'.modes = g.modes
  accepted : g'.accepted = g.accepted

/-- The call has not yet come to its producer. -/
def BeforeProducer : SendPc → Prop
  | .isCreated | .testStarted | .lockConnect | .connect _ | .takeSession | .lockCreate
  | .createPoolItem => True
  | _ => False

/-- The element that a call holds: `CreatePoolItem` returned it to the call, and the call has not
run `FreePoolItem`. -/
def holds (c : Call) : Option ℕ :=
  match c.pc with
  | .unlockFree | .ended (.returned _) => none
  | _ => c.producer

/-- Where a call has a producer. -/
def Placed (c : Call) : Prop :=
  match c.pc with
  | .sending _ | .close | .lockFree | .freePoolItem => c.producer.isSome = true
  | .unlockCreate | .unlockFree | .ended _ => True
  | _ => c.producer = none

/-- The arguments have been tested, and the call of the producer has not returned. -/
def PastArguments : ProducerPc → Prop
  | .testArguments | .returned _ | .fault _ => False
  | _ => True

/-- A step of `CDSAMQProducer::sendmessage` on the element at `k`: a statement that only works on
the element, `setDeliveryMode`, `createTextMessage`, `send`. -/
inductive ProducerMove (t k : ℕ) (session : Option SessionId) (strMessage : String) (g : Shared) :
    ProducerPc → Shared → ProducerPc → Prop
  | item {pc pc' : ProducerPc} {g' : Shared} (f : Producer → ProducerPc × Producer)
      (hres : g.onProducer k f = (g', pc'))
      (hidx : ∀ e, (f e).2.nposition = e.nposition)
      (hdest : ∀ d e, SendsTo d e → SendsTo d (f e).2)
      (hnext : ∀ d e, SendsTo d e → (f e).1 = .returned false ∨
        (PastArguments pc ∧
          ((f e).1 = .createDestination ∨ (f e).1 = .createCachedProducer ∨
            (f e).1 = .setDeliveryMode d)))
      (hpc : ∀ b, pc ≠ .returned b) :
      ProducerMove t k session strMessage g pc g' pc'
  | nonempty (h : strMessage.isEmpty = false) :
      ProducerMove t k session strMessage g .testArguments g .testDestination
  | setDeliveryMode {s : SessionId} {d : Destination} (hs : session = some s) :
      ProducerMove t k session strMessage g (.setDeliveryMode d)
        { g with modes := fun s' d' => if s' = s ∧ d' = d then .persistent else g.modes s' d' }
        (.createTextMessage d)
  | createTextMessage {d : Destination} :
      ProducerMove t k session strMessage g (.createTextMessage d) g (.send d strMessage)
  | send {s : SessionId} {d : Destination} {body : String} (hs : session = some s) :
      ProducerMove t k session strMessage g (.send d body)
        { g with accepted := g.accepted ++ [(t, ⟨d, body, g.modes s d⟩)] } (.returned true)

/-- `m_strError = …; return false;` is work on the element. -/
theorem producerMove_error {t k : ℕ} {session : Option SessionId} {strMessage e : String}
    {g g' : Shared} {pc pc' : ProducerPc} (h : g.producerError k e = (g', pc'))
    (hpc : ∀ b, pc ≠ .returned b) : ProducerMove t k session strMessage g pc g' pc' :=
  .item _ h (fun _ => rfl) (fun _ _ he => he) (fun _ _ _ => .inl rfl) hpc

/-- Every step of `CDSAMQProducer::sendmessage` is one of these. -/
theorem producerMove_of_step {t k : ℕ} {session : Option SessionId} {strMessage : String}
    {g g' : Shared} {pc pc' : ProducerPc} {r : Reply}
    (h : pc.step t k session strMessage g r = some (g', pc')) :
    ProducerMove t k session strMessage g pc g' pc' := by
  unfold ProducerPc.step at h
  split at h
  · -- the session is NULL
    exact producerMove_error (Option.some.inj h) (by simp)
  · split at h
    · exact producerMove_error (Option.some.inj h) (by simp)
    · rename_i hne
      cases h
      exact .nonempty (by simpa using hne)
  · refine .item _ (Option.some.inj h) (fun _ => rfl) (fun _ _ he => he)
      (fun d e _ => .inr ⟨trivial, ?_⟩) (by simp)
    dsimp only
    split
    · exact .inl rfl
    · exact .inr (.inl rfl)
  · refine .item _ (Option.some.inj h) (fun _ => rfl) (fun d e he => ⟨he.1, ?_⟩)
      (fun _ _ _ => .inr ⟨trivial, .inr (.inl rfl)⟩) (by simp)
    intro d' hd'
    rw [← Option.some.inj hd']
    exact he.1
  · refine .item _ (Option.some.inj h) (fun _ => rfl) (fun _ _ he => he)
      (fun d e he => .inr ⟨trivial, .inr (.inr ?_)⟩) (by simp)
    dsimp only
    cases hd : e.destination with
    | none => rw [Option.getD_none, he.1]
    | some d' => rw [Option.getD_some, he.2 d' hd]
  · cases h
    exact .setDeliveryMode rfl
  · exact producerMove_error (Option.some.inj h) (by simp)
  · exact producerMove_error (Option.some.inj h) (by simp)
  · exact producerMove_error (Option.some.inj h) (by simp)
  · cases h
    exact .createTextMessage
  · exact producerMove_error (Option.some.inj h) (by simp)
  · cases h
    exact .send rfl
  · exact producerMove_error (Option.some.inj h) (by simp)
  · cases h

/-- No statement of `CreateSessionPool` touches the producer pool. -/
theorem connectStep_pool {w w' : MgrWorld} {pc pc' : ConnectPc} {r : Reply}
    (h : pc.step w r = some (w', pc')) : w'.mgr.pool = w.mgr.pool := by
  unfold ConnectPc.step at h
  split at h
  · split at h <;> cases h <;> rfl
  all_goals cases h
  all_goals simp

/-! ## The statements of a call -/

/-- The statements that take the mutex, and the protected sections they lead into. -/
inductive LocksInto : SendPc → SendPc → Prop
  | connect : LocksInto .lockConnect (.connect .isCreated)
  | create : LocksInto .lockCreate .createPoolItem
  | free : LocksInto .lockFree .freePoolItem

/-- The statements of `sendmessage`, one constructor for each way a step of the call `t` can go. -/
inductive CallStep (t : ℕ) (g : Shared) (c : Call) (r : Reply) : Shared → Call → Prop
  | created (hpc : c.pc = .isCreated) : CallStep t g c r g (c.goto .testStarted)
  | notCreated (hpc : c.pc = .isCreated) :
      CallStep t g c r (g.setError "fail to sendmessage, not created object pool")
        (c.goto (.ended (.returned false)))
  | readFlag (hpc : c.pc = .testStarted) :
      CallStep t g c r g
        (c.goto (if g.world.mgr.bStartedConnection then .takeSession else .lockConnect))
  | lock {pc' : SendPc} (hpc : LocksInto c.pc pc') (hfree : g.mutex = none) :
      CallStep t g c r { g with mutex := some t } (c.goto pc')
  | connect {pc pc' : ConnectPc} {w : MgrWorld} (hpc : c.pc = .connect pc)
      (hstep : pc.step g.world r = some (w, pc')) :
      CallStep t g c r { g with world := w } (c.goto (.connect pc'))
  | connected {b : Bool} (hpc : c.pc = .connect (.returned b)) :
      CallStep t g c r { g with mutex := none }
        (c.goto (if b then .takeSession else .ended (.returned false)))
  | nullSessionPool (hpc : c.pc = .takeSession) (hnull : g.world.mgr.sessionpool = none) :
      CallStep t g c r g (c.goto (.ended .nullSessionPool))
  | take {o : Outcome (Option SessionId)} {g' : Shared} {c' : Call} (hpc : c.pc = .takeSession)
      (htake : c.take g o = some (g', c')) : CallStep t g c r g' c'
  | create {o : Option ℕ} {pool : ProducerPool} (hpc : c.pc = .createPoolItem)
      (hcreate : g.world.mgr.pool.createPoolItem = .ok (o, pool)) :
      CallStep t g c r (g.setPool pool) { c with producer := o, pc := .unlockCreate }
  | createFault {e : Fault} (hpc : c.pc = .createPoolItem)
      (hfault : g.world.mgr.pool.createPoolItem = .error e) :
      CallStep t g c r { g with mutex := none } (c.goto (.ended (.fault e)))
  | unlockCreate (hpc : c.pc = .unlockCreate) :
      CallStep t g c r { g with mutex := none }
        (c.goto (if c.producer.isNone then .closeOverflow else .sending .testArguments))
  | closeOverflow {o : Outcome Unit} {g' : Shared} {c' : Call} (hpc : c.pc = .closeOverflow)
      (hclose : c.closeSession (g.setError ("fail to sendmessage, " ++ g.world.mgr.pool.strError))
        (.ended (.returned false)) o = some (g', c')) : CallStep t g c r g' c'
  | producer {k : ℕ} {pc pc' : ProducerPc} {g' : Shared} (hpc : c.pc = .sending pc)
      (hk : c.producer = some k)
      (hstep : pc.step t k c.session c.strMessage g r = some (g', pc')) :
      CallStep t g c r g' (c.goto (.sending pc'))
  | sent {k : ℕ} {b : Bool} {g' : Shared} {c' : Call} (hpc : c.pc = .sending (.returned b))
      (hk : c.producer = some k) (hsent : c.sent g k b = some (g', c')) : CallStep t g c r g' c'
  | close {o : Outcome Unit} {g' : Shared} {c' : Call} (hpc : c.pc = .close)
      (hclose : c.closeSession g .lockFree o = some (g', c')) : CallStep t g c r g' c'
  | free {pool : ProducerPool} (hpc : c.pc = .freePoolItem)
      (hfree : g.world.mgr.pool.freePoolItem c.producer = .ok pool) :
      CallStep t g c r (g.setPool pool) (c.goto .unlockFree)
  | freeFault {e : Fault} (hpc : c.pc = .freePoolItem)
      (hfault : g.world.mgr.pool.freePoolItem c.producer = .error e) :
      CallStep t g c r { g with mutex := none } (c.goto (.ended (.fault e)))
  | unlockFree (hpc : c.pc = .unlockFree) :
      CallStep t g c r { g with mutex := none } (c.goto (.ended (.returned c.bSent)))

/-- Taking the mutex changes nothing else. -/
theorem lock_eq_some {t : ℕ} {g g' : Shared} {c c' : Call} {pc : SendPc}
    (h : c.lock t g pc = some (g', c')) :
    g.mutex = none ∧ g' = { g with mutex := some t } ∧ c' = c.goto pc := by
  unfold Call.lock at h
  split at h
  · rename_i hfree
    cases h
    exact ⟨by simpa using hfree, rfl, rfl⟩
  · cases h

/-- A `takeSession` that was called leads to the next statement or to `return false`. -/
theorem take_eq_some {g g' : Shared} {c c' : Call} {o : Outcome (Option SessionId)}
    (h : c.take g o = some (g', c')) :
    SameSends g g' ∧ c'.producer = c.producer ∧ c'.strMessage = c.strMessage ∧
      (c'.pc = .lockCreate ∨ c'.pc = .ended (.returned false)) := by
  unfold Call.take at h
  split at h
  · split at h
    · cases h
    · cases h
      exact ⟨⟨rfl, rfl, rfl⟩, rfl, rfl, .inl rfl⟩
  · cases h
    exact ⟨⟨rfl, rfl, rfl⟩, rfl, rfl, .inr rfl⟩
  · cases h
    exact ⟨⟨rfl, rfl, rfl⟩, rfl, rfl, .inr rfl⟩

/-- `session->close()` leads to the next statement or out of `sendmessage`. -/
theorem closeSession_eq_some {g g' : Shared} {c c' : Call} {pc : SendPc} {o : Outcome Unit}
    (h : c.closeSession g pc o = some (g', c')) :
    SameSends g g' ∧ ∃ pc', c' = c.goto pc' ∧ (pc' = pc ∨ ∃ msg, pc' = .ended (.threw msg)) := by
  unfold Call.closeSession at h
  split at h
  · cases h
    exact ⟨⟨rfl, rfl, rfl⟩, pc, rfl, .inl rfl⟩
  · cases h
    exact ⟨⟨rfl, rfl, rfl⟩, _, rfl, .inr ⟨_, rfl⟩⟩

/-- A statement of `CreateSessionPool`, inside the call. -/
theorem callStep_of_map {t : ℕ} {g g' : Shared} {c c' : Call} {r : Reply} {pc : ConnectPc}
    (hpc : c.pc = .connect pc)
    (h : (pc.step g.world r).map (fun x => ({ g with world := x.1 }, c.goto (.connect x.2))) =
      some (g', c')) : CallStep t g c r g' c' := by
  obtain ⟨⟨w, pc'⟩, hstep, heq⟩ := Option.map_eq_some_iff.mp h
  cases heq
  exact .connect hpc hstep

/-- A statement of `CDSAMQProducer::sendmessage`, inside the call. -/
theorem callStep_of_producer {t k : ℕ} {g g' : Shared} {c c' : Call} {r : Reply} {pc : ProducerPc}
    (hpc : c.pc = .sending pc) (hk : c.producer = some k)
    (h : (pc.step t k c.session c.strMessage g r).map (fun x => (x.1, c.goto (.sending x.2))) =
      some (g', c')) : CallStep t g c r g' c' := by
  obtain ⟨⟨g₁, pc'⟩, hstep, heq⟩ := Option.map_eq_some_iff.mp h
  cases heq
  exact .producer hpc hk hstep

/-- **The step of a call.**  The proofs about the calls go through this list. -/
theorem callStep_of_step {t : ℕ} {g g' : Shared} {c c' : Call} {r : Reply}
    (h : c.step t g r = some (g', c')) : CallStep t g c r g' c' := by
  unfold Call.step at h
  cases hpc : c.pc with
  | isCreated =>
      cases r <;> simp only [hpc, reduceCtorEq] at h
      split at h
      · cases h
        exact .created hpc
      · cases h
        exact .notCreated hpc
  | testStarted =>
      cases r <;> simp only [hpc, reduceCtorEq] at h
      cases h
      exact .readFlag hpc
  | lockConnect =>
      cases r <;> simp only [hpc, reduceCtorEq] at h
      obtain ⟨hfree, rfl, rfl⟩ := lock_eq_some h
      exact .lock (hpc ▸ .connect) hfree
  | connect pc =>
      cases pc with
      | returned b =>
          cases r <;> simp only [hpc, ConnectPc.step, Option.map_none, reduceCtorEq] at h
          cases h
          exact .connected hpc
      | _ =>
          simp only [hpc] at h
          exact callStep_of_map hpc h
  | takeSession =>
      cases r <;> simp only [hpc, reduceCtorEq] at h
      · split at h
        · rename_i hnull
          cases h
          exact .nullSessionPool hpc (by simpa using hnull)
        · cases h
      · split at h
        · cases h
        · exact .take hpc h
  | lockCreate =>
      cases r <;> simp only [hpc, reduceCtorEq] at h
      obtain ⟨hfree, rfl, rfl⟩ := lock_eq_some h
      exact .lock (hpc ▸ .create) hfree
  | createPoolItem =>
      cases r <;> simp only [hpc, reduceCtorEq] at h
      unfold Call.createPoolItem at h
      split at h
      · rename_i hcreate
        cases h
        exact .create hpc hcreate
      · rename_i hfault
        cases h
        exact .createFault hpc hfault
  | unlockCreate =>
      cases r <;> simp only [hpc, reduceCtorEq] at h
      cases h
      exact .unlockCreate hpc
  | closeOverflow =>
      cases r <;> simp only [hpc, reduceCtorEq] at h
      exact .closeOverflow hpc h
  | sending pc =>
      simp only [hpc] at h
      cases hk : c.producer with
      | none =>
          simp only [hk] at h
          cases h
      | some k =>
          simp only [hk] at h
          cases pc with
          | returned b =>
              cases r with
              | tau => exact .sent hpc hk h
              | _ => cases h
          | _ => exact callStep_of_producer hpc hk h
  | close =>
      cases r <;> simp only [hpc, reduceCtorEq] at h
      exact .close hpc h
  | lockFree =>
      cases r <;> simp only [hpc, reduceCtorEq] at h
      obtain ⟨hfree, rfl, rfl⟩ := lock_eq_some h
      exact .lock (hpc ▸ .free) hfree
  | freePoolItem =>
      cases r <;> simp only [hpc, reduceCtorEq] at h
      unfold Call.freePoolItem at h
      split at h
      · rename_i hfree
        cases h
        exact .free hpc hfree
      · rename_i hfault
        cases h
        exact .freeFault hpc hfault
  | unlockFree =>
      cases r <;> simp only [hpc, reduceCtorEq] at h
      cases h
      exact .unlockFree hpc
  | ended result => cases r <;> simp only [hpc, reduceCtorEq] at h

/-- A step of the call `t`. -/
inductive Move (t : ℕ) (g : Shared) (c : Call) : Shared → Call → Prop
  | before {g' : Shared} {c' : Call} (hpc : BeforeProducer c.pc)
      (hpc' : BeforeProducer c'.pc ∨ c'.pc = .ended (.returned false) ∨
        c'.pc = .ended .nullSessionPool)
      (hsame : SameSends g g') (hproducer : c'.producer = c.producer)
      (hmsg : c'.strMessage = c.strMessage) : Move t g c g' c'
  | create {o : Option ℕ} {pool : ProducerPool} (hpc : c.pc = .createPoolItem)
      (h : g.world.mgr.pool.createPoolItem = .ok (o, pool)) :
      Move t g c (g.setPool pool) { c with producer := o, pc := .unlockCreate }
  | unlockCreate {g' : Shared} (hpc : c.pc = .unlockCreate) (hsame : SameSends g g') :
      Move t g c g'
        (c.goto (if c.producer.isNone then .closeOverflow else .sending .testArguments))
  | overflow {g' : Shared} {pc' : SendPc} (hpc : c.pc = .closeOverflow)
      (hpc' : pc' = .ended (.returned false) ∨ ∃ msg, pc' = .ended (.threw msg))
      (hsame : SameSends g g') : Move t g c g' (c.goto pc')
  | producer {k : ℕ} {g' : Shared} {pc pc' : ProducerPc} (hpc : c.pc = .sending pc)
      (hk : c.producer = some k)
      (hmove : ProducerMove t k c.session c.strMessage g pc g' pc') :
      Move t g c g' (c.goto (.sending pc'))
  | sent {g' : Shared} {b : Bool} (hpc : c.pc = .sending (.returned b)) (hsame : SameSends g g') :
      Move t g c g' { c with bSent := b, pc := .close }
  | closing {g' : Shared} {pc' : SendPc} (hpc : c.pc = .close ∨ c.pc = .lockFree)
      (hpc' : pc' = .lockFree ∨ pc' = .freePoolItem ∨ ∃ msg, pc' = .ended (.threw msg))
      (hsame : SameSends g g') : Move t g c g' (c.goto pc')
  | free {k : ℕ} {pool : ProducerPool} (hpc : c.pc = .freePoolItem) (hk : c.producer = some k)
      (h : g.world.mgr.pool.freePoolItem (some k) = .ok pool) :
      Move t g c (g.setPool pool) (c.goto .unlockFree)
  | unlockFree {g' : Shared} (hpc : c.pc = .unlockFree) (hsame : SameSends g g') :
      Move t g c g' (c.goto (.ended (.returned c.bSent)))

/-- The return of the producer's `sendmessage` leads to `close`, when the element can be read. -/
theorem sent_eq_some {g g' : Shared} {c c' : Call} {k : ℕ} {b : Bool} {e : Producer}
    (hget : g.world.mgr.pool.pool.get k = .ok e) (h : c.sent g k b = some (g', c')) :
    SameSends g g' ∧ c' = { c with bSent := b, pc := .close } := by
  cases b with
  | true =>
      cases h
      exact ⟨⟨rfl, rfl, rfl⟩, rfl⟩
  | false =>
      simp only [Call.sent, Bool.false_eq_true, if_false, hget] at h
      cases h
      exact ⟨⟨rfl, rfl, rfl⟩, rfl⟩

/-- Every step of a call is one of these, when the pool keeps its invariant and the call holds
elements that are handed out: then no operation of the pool faults. -/
theorem move_of_step {n t : ℕ} {hs : List ℕ} {g g' : Shared} {c c' : Call} {r : Reply}
    (hslots : Slots n hs g.world.mgr.pool) (hplaced : Placed c)
    (hmem : ∀ k, holds c = some k → k ∈ hs) (h : c.step t g r = some (g', c')) :
    Move t g c g' c' := by
  have hsame : SameSends g g := ⟨rfl, rfl, rfl⟩
  cases callStep_of_step h with
  | created hpc => exact .before (by rw [hpc]; trivial) (.inl trivial) hsame rfl rfl
  | notCreated hpc =>
      exact .before (by rw [hpc]; trivial) (.inr (.inl rfl)) ⟨rfl, rfl, rfl⟩ rfl rfl
  | readFlag hpc =>
      refine .before (by rw [hpc]; trivial) (.inl ?_) hsame rfl rfl
      dsimp only [Call.goto]
      split <;> trivial
  | @lock pc' hpc hfree =>
      generalize hc : c.pc = pc at hpc
      cases hpc with
      | connect => exact .before (by rw [hc]; trivial) (.inl trivial) ⟨rfl, rfl, rfl⟩ rfl rfl
      | create => exact .before (by rw [hc]; trivial) (.inl trivial) ⟨rfl, rfl, rfl⟩ rfl rfl
      | free => exact .closing (.inr hc) (.inr (.inl rfl)) ⟨rfl, rfl, rfl⟩
  | connect hpc hstep =>
      exact .before (by rw [hpc]; trivial) (.inl trivial) ⟨connectStep_pool hstep, rfl, rfl⟩ rfl
        rfl
  | @connected b hpc =>
      refine .before (by rw [hpc]; trivial) ?_ ⟨rfl, rfl, rfl⟩ rfl rfl
      cases b with
      | true => exact .inl trivial
      | false => exact .inr (.inl rfl)
  | nullSessionPool hpc hnull =>
      exact .before (by rw [hpc]; trivial) (.inr (.inr rfl)) hsame rfl rfl
  | take hpc htake =>
      obtain ⟨hs, hproducer, hmsg, hnext⟩ := take_eq_some htake
      refine .before (by rw [hpc]; trivial) ?_ hs hproducer hmsg
      rcases hnext with hnext | hnext
      · left
        rw [hnext]
        trivial
      · exact .inr (.inl hnext)
  | create hpc hcreate => exact .create hpc hcreate
  | createFault hpc hfault =>
      rcases createPoolItem_cases hslots with ⟨-, hok⟩ | ⟨-, k, p', -, -, hok, -⟩
      · rw [hfault] at hok
        cases hok
      · rw [hfault] at hok
        cases hok
  | unlockCreate hpc => exact .unlockCreate hpc ⟨rfl, rfl, rfl⟩
  | closeOverflow hpc hclose =>
      obtain ⟨hs, pc', rfl, hpc'⟩ := closeSession_eq_some hclose
      exact .overflow hpc hpc' ⟨hs.pool, hs.modes, hs.accepted⟩
  | producer hpc hk hstep => exact .producer hpc hk (producerMove_of_step hstep)
  | @sent k b _ _ hpc hk hsent =>
      have hholds : holds c = some k := by simp only [holds, hpc, hk]
      obtain ⟨e, hget, -⟩ := get_of_slots hslots (hmem k hholds)
      obtain ⟨hs, rfl⟩ := sent_eq_some hget hsent
      exact .sent hpc hs
  | close hpc hclose =>
      obtain ⟨hs, pc', rfl, hpc'⟩ := closeSession_eq_some hclose
      refine .closing (.inl hpc) ?_ hs
      rcases hpc' with rfl | hthrew
      · exact .inl rfl
      · exact .inr (.inr hthrew)
  | free hpc hfree =>
      obtain ⟨k, hk⟩ : ∃ k, c.producer = some k := by
        rw [← Option.isSome_iff_exists]
        simpa [Placed, hpc] using hplaced
      rw [hk] at hfree
      exact .free hpc hk hfree
  | freeFault hpc hfault =>
      obtain ⟨k, hk⟩ : ∃ k, c.producer = some k := by
        rw [← Option.isSome_iff_exists]
        simpa [Placed, hpc] using hplaced
      have hholds : holds c = some k := by simp only [holds, hpc, hk]
      obtain ⟨p', hfree, -⟩ := freePoolItem_of_mem hslots (hmem k hholds)
      rw [hk, hfree] at hfault
      cases hfault
  | unlockFree hpc => exact .unlockFree hpc ⟨rfl, rfl, rfl⟩

/-- A call keeps its text. -/
theorem strMessage_step {t : ℕ} {g g' : Shared} {c c' : Call} {r : Reply}
    (h : c.step t g r = some (g', c')) : c'.strMessage = c.strMessage := by
  cases callStep_of_step h with
  | take hpc htake => exact (take_eq_some htake).2.2.1
  | closeOverflow hpc hclose =>
      obtain ⟨-, pc', rfl, -⟩ := closeSession_eq_some hclose
      rfl
  | close hpc hclose =>
      obtain ⟨-, pc', rfl, -⟩ := closeSession_eq_some hclose
      rfl
  | sent hpc hk hsent =>
      unfold Call.sent at hsent
      split at hsent
      · cases hsent
        rfl
      · split at hsent <;> cases hsent <;> rfl
  | _ => rfl

/-- What an enabled step of a call is. -/
theorem act_eq_some {s s' : SendSystem} {t : ℕ} {r : Reply} (h : s.step (.act t r) = some s') :
    ∃ c g' c', s.calls[t]? = some c ∧ c.step t s.shared r = some (g', c') ∧
      s' = ⟨g', s.calls.set t c'⟩ := by
  simp only [SendSystem.step] at h
  split at h
  · cases h
  · rename_i c hc
    simp only [Option.map_eq_some_iff] at h
    obtain ⟨⟨g', c'⟩, hstep, heq⟩ := h
    exact ⟨c, g', c', hc, hstep, heq.symm⟩

end DsAmq.Analysis
