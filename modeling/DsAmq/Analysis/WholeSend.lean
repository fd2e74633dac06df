import Mathlib.Data.Fintype.EquivFin
import DsAmq.Analysis.SendProgress
import DsAmq.Analysis.WholeConnect

/-!
# `sendmessage`, statement by statement and as a whole

A call of `sendmessage` whose statements are not interleaved with others does exactly what
`MgrWorld.sendmessage` says, for some outcomes of its library calls, and all outcomes can be met
(`sendmessage_alone_iff`).  `callRest` is what the rest of a call does from any of its statements
on; the part inside `CreateSessionPool` is `connectRest`, the part inside
`CDSAMQProducer::sendmessage` is `producerRest`.
-/

set_option autoImplicit false

namespace DsAmq.Analysis

open DsAmq.Model DsAmq.Library

/-! ## The rest of `CDSAMQProducer::sendmessage` -/

/-- The result, the producer afterwards and the send that the session accepts. -/
abbrev Sending := Bool × Producer × Option Sent

/-- `m_strError = …; return false;` -/
def failWith (p : Producer) (e : String) : Sending := (false, { p with strError := e }, none)

/-- From `send` on. -/
def fromSend (o : SendOutcomes) (p : Producer) (d : Destination) (body : String)
    (mode : DeliveryMode) : Sending :=
  match o.send with
  | .cms msg => failWith p ("in sendmessage, fail to send message, " ++ msg)
  | .ok _ => (true, p, some ⟨d, body, mode⟩)

/-- From `createTextMessage` on. -/
def fromCreateTextMessage (o : SendOutcomes) (p : Producer) (d : Destination) (body : String)
    (mode : DeliveryMode) : Sending :=
  match o.createTextMessage with
  | .cms msg => failWith p ("in sendmessage, fail to create message, " ++ msg)
  | .ok _ => fromSend o p d body mode

/-- From `setDeliveryMode` on. -/
def fromSetDeliveryMode (o : SendOutcomes) (p : Producer) (d : Destination) (body : String) :
    Sending :=
  match o.setDeliveryMode with
  | .cms msg => failWith p ("in sendmessage, exception occured, " ++ msg)
  | .ok _ => fromCreateTextMessage o p d body .persistent

/-- From `createCachedProducer` on. -/
def fromCreateCachedProducer (o : SendOutcomes) (p : Producer) (body : String) : Sending :=
  match o.createCachedProducer with
  | .cms msg => failWith p ("in sendmessage, exception occured, " ++ msg)
  | .ok _ => fromSetDeliveryMode o p (p.destination.getD p.target) body

/-- From the creation of the destination on. -/
def fromCreateDestination (o : SendOutcomes) (p : Producer) (body : String) : Sending :=
  match o.createDestination with
  | .cms msg => failWith p ("in sendmessage, exception occured, " ++ msg)
  | .ok _ => fromCreateCachedProducer o { p with destination := some p.target } body

/-- From the test of the destination on. -/
def fromTestDestination (o : SendOutcomes) (p : Producer) (body : String) : Sending :=
  if p.destination.isNone then fromCreateDestination o p body
  else fromCreateCachedProducer o p body

/-- What the call does with the producer, from any of its statements on.  `mode` is the delivery
mode of the cached producer for a destination. -/
def producerRest (o : SendOutcomes) (session : Option SessionId) (strMessage : String)
    (mode : Destination → DeliveryMode) : ProducerPc → Producer → Sending
  | .testArguments, p => p.sendmessage session strMessage o
  | .testDestination, p => fromTestDestination o p strMessage
  | .createDestination, p => fromCreateDestination o p strMessage
  | .createCachedProducer, p => fromCreateCachedProducer o p strMessage
  | .setDeliveryMode d, p => fromSetDeliveryMode o p d strMessage
  | .createTextMessage d, p => fromCreateTextMessage o p d strMessage (mode d)
  | .send d body, p => fromSend o p d body (mode d)
  | .returned b, p => (b, p, none)
  | .fault _, p => (false, p, none)

theorem sendmessage_none (p : Producer) (msg : String) (o : SendOutcomes) :
    p.sendmessage none msg o = failWith p "in sendmessage, session object NULL" := rfl

theorem sendmessage_empty (p : Producer) (s : SessionId) {msg : String} (o : SendOutcomes)
    (hmsg : msg.isEmpty = true) :
    p.sendmessage (some s) msg o = failWith p "in sendmessage, message is emtpy" := by
  simp [Producer.sendmessage, failWith, hmsg]

/-- With a session and a text, the call goes on. -/
theorem sendmessage_nonempty (p : Producer) (s : SessionId) {msg : String} (o : SendOutcomes)
    (hmsg : msg.isEmpty = false) :
    p.sendmessage (some s) msg o = fromTestDestination o p msg := by
  obtain ⟨dest, topic, ack, broker, uri, error, pos⟩ := p
  obtain ⟨o₁, o₂, o₃, o₄, o₅⟩ := o
  cases dest with
  | some d =>
      simp only [Producer.sendmessage, hmsg, Option.isNone_some, Bool.false_eq_true, if_false,
        fromTestDestination, fromCreateCachedProducer, fromSetDeliveryMode, fromCreateTextMessage,
        fromSend, failWith, Option.getD_some]
      cases o₂ <;> cases o₃ <;> cases o₄ <;> cases o₅ <;> rfl
  | none =>
      cases o₁ with
      | cms e => simp [Producer.sendmessage, hmsg, fromTestDestination, fromCreateDestination,
          failWith]
      | ok u =>
          simp only [Producer.sendmessage, hmsg, Option.isNone_some, Option.isNone_none, if_true,
            Bool.false_eq_true, if_false, fromTestDestination, fromCreateDestination,
            fromCreateCachedProducer, fromSetDeliveryMode, fromCreateTextMessage, fromSend,
            failWith, Option.getD_none, Option.getD_some]
          cases o₂ <;> cases o₃ <;> cases o₄ <;> cases o₅ <;> rfl

/-! ## The rest of `CDSAMQProducerPoolMgr::sendmessage` -/

/-- How the call ends, the manager it leaves behind and the accepted sends. -/
abbrev Whole := SendResult × MgrWorld × List (ℕ × Sent)

/-- What a whole call does, when it is the call `t` and these sends were accepted before. -/
def noted (t : ℕ) (accepted : List (ℕ × Sent)) (x : SendResult × MgrWorld × Option Sent) : Whole :=
  (x.1, x.2.1, accepted ++ x.2.2.toList.map fun sent => (t, sent))

/-- From `FreePoolItem` on. -/
def fromFreePoolItem (w : MgrWorld) (producer : Option ℕ) (bSent : Bool) : SendResult × MgrWorld :=
  match w.mgr.pool.freePoolItem producer with
  | .error e => (.fault e, w)
  | .ok pool => (.returned bSent, { w with mgr.pool := pool })

/-- From `session->close()` on. -/
def fromClose (o : MgrSendOutcomes) (w : MgrWorld) (producer : Option ℕ) (bSent : Bool) :
    SendResult × MgrWorld :=
  match o.close with
  | .cms msg => (.threw msg, w)
  | .ok _ => fromFreePoolItem w producer bSent

/-- From the overflow of the pool on. -/
def fromOverflow (o : MgrSendOutcomes) (w : MgrWorld) : SendResult × MgrWorld × Option Sent :=
  match o.close with
  | .ok _ => (.returned false, w.setError ("fail to sendmessage, " ++ w.mgr.pool.strError), none)
  | .cms msg => (.threw msg, w.setError ("fail to sendmessage, " ++ w.mgr.pool.strError), none)

/-- What `producer->sendmessage` does to the element, with the error text that is read from it. -/
def reported (f : Producer → Sending) : Producer → (Bool × String × Option Sent) × Producer :=
  fun p => (((f p).1, (f p).2.1.strError, (f p).2.2), (f p).2.1)

/-- From the work on the element at `k` on. -/
def fromSending (o : MgrSendOutcomes) (w : MgrWorld) (k : ℕ) (f : Producer → Sending) :
    SendResult × MgrWorld × Option Sent :=
  match w.mgr.pool.onItem k (reported f) with
  | .error e => (.fault e, w, none)
  | .ok (x, pool) =>
      let w := { w with mgr.pool := pool }
      let r := fromClose o (if x.1 then w else w.setError ("fail to sendmessage, " ++ x.2.1))
        (some k) x.1
      (r.1, r.2, x.2.2)

/-- From `CreatePoolItem` on. -/
def fromCreatePoolItem (o : MgrSendOutcomes) (w : MgrWorld) (session : Option SessionId)
    (strMessage : String) : SendResult × MgrWorld × Option Sent :=
  match w.mgr.pool.createPoolItem with
  | .error e => (.fault e, w, none)
  | .ok (none, pool) => fromOverflow o { w with mgr.pool := pool }
  | .ok (some k, pool) =>
      fromSending o { w with mgr.pool := pool } k fun p => p.sendmessage session strMessage o.send

theorem sendOn_eq (o : MgrSendOutcomes) (w : MgrWorld) (s : SessionId) (msg : String) :
    w.sendOn s msg o = fromCreatePoolItem o w (some s) msg := by
  unfold MgrWorld.sendOn fromCreatePoolItem
  cases w.mgr.pool.createPoolItem with
  | error e => rfl
  | ok x =>
      obtain ⟨producer, pool⟩ := x
      cases producer with
      | none => rfl
      | some k =>
          have hreported : ∀ x, pool.onItem k (reported fun p => p.sendmessage (some s) msg o.send) =
              x → pool.onItem k (fun p => (((p.sendmessage (some s) msg o.send).1,
                (p.sendmessage (some s) msg o.send).2.1.strError,
                (p.sendmessage (some s) msg o.send).2.2),
                (p.sendmessage (some s) msg o.send).2.1)) = x := fun x hx => hx
          cases hitem : pool.onItem k (reported fun p => p.sendmessage (some s) msg o.send) with
          | error e => simp only [fromSending, hitem, hreported _ hitem]
          | ok x =>
              obtain ⟨⟨b, error, sent⟩, pool'⟩ := x
              simp only [fromSending, hitem, hreported _ hitem, fromClose]
              cases o.close with
              | cms msg => rfl
              | ok u =>
                  simp only [fromFreePoolItem]
                  cases ProducerPool.freePoolItem _ _ <;> rfl

/-- The delivery mode of the cached producers of the session. -/
def modeOf (g : Shared) (session : Option SessionId) (d : Destination) : DeliveryMode :=
  match session with
  | some s => g.modes s d
  | none => .persistent

/-- What the call `t` does from a statement of `CDSAMQProducer::sendmessage` on. -/
def sendingRest (t k : ℕ) (o : MgrSendOutcomes) (session : Option SessionId) (strMessage : String)
    (g : Shared) (pc : ProducerPc) : Whole :=
  noted t g.accepted
    (fromSending o g.world k (producerRest o.send session strMessage (modeOf g session) pc))

/-- What the call does after `CreateSessionPool`. -/
def connectedRest (t : ℕ) (o : MgrSendOutcomes) (strMessage : String) (accepted : List (ℕ × Sent))
    (x : Bool × MgrWorld) : Whole :=
  noted t accepted (if x.1 then x.2.sendTake strMessage o else (.returned false, x.2, none))

/-- **What the call `t` returns and leaves behind, from any of its statements on.** -/
def callRest (t : ℕ) (o : MgrSendOutcomes) (g : Shared) (c : Call) : Whole :=
  match c.pc with
  | .isCreated => noted t g.accepted (g.world.sendmessage c.strMessage o)
  | .testStarted => connectedRest t o c.strMessage g.accepted (g.world.sendConnect o.connect)
  | .lockConnect => connectedRest t o c.strMessage g.accepted (g.world.createSessionPool o.connect)
  | .connect pc => connectedRest t o c.strMessage g.accepted (connectRest o.connect (g.world, pc))
  | .takeSession => noted t g.accepted (g.world.sendTake c.strMessage o)
  | .lockCreate | .createPoolItem =>
      noted t g.accepted (fromCreatePoolItem o g.world c.session c.strMessage)
  | .unlockCreate =>
      match c.producer with
      | none => noted t g.accepted (fromOverflow o g.world)
      | some k => sendingRest t k o c.session c.strMessage g .testArguments
  | .closeOverflow => noted t g.accepted (fromOverflow o g.world)
  | .sending pc =>
      match c.producer with
      | none => (.nullSessionPool, g.world, g.accepted)
      | some k => sendingRest t k o c.session c.strMessage g pc
  | .close =>
      let r := fromClose o g.world c.producer c.bSent
      (r.1, r.2, g.accepted)
  | .lockFree | .freePoolItem =>
      let r := fromFreePoolItem g.world c.producer c.bSent
      (r.1, r.2, g.accepted)
  | .unlockFree => (.returned c.bSent, g.world, g.accepted)
  | .ended r => (r, g.world, g.accepted)

theorem callRest_new (t : ℕ) (o : MgrSendOutcomes) (g : Shared) (msg : String) :
    callRest t o g (.new msg) = noted t g.accepted (g.world.sendmessage msg o) := rfl

theorem callRest_ended {t : ℕ} {o : MgrSendOutcomes} {g : Shared} {c : Call} {res : SendResult}
    (hpc : c.pc = .ended res) : callRest t o g c = (res, g.world, g.accepted) := by
  simp only [callRest, hpc]

/-! ## The steps -/

/-- What a statement of `CDSAMQProducer::sendmessage` learns when the library calls end as `o`
says. -/
def producerReply (o : SendOutcomes) : ProducerPc → Reply
  | .createDestination => .call o.createDestination
  | .createCachedProducer => .call o.createCachedProducer
  | .setDeliveryMode _ => .call o.setDeliveryMode
  | .createTextMessage _ => .call o.createTextMessage
  | .send _ _ => .call o.send
  | _ => .tau

/-- What a statement of the call learns. -/
def callReply (o : MgrSendOutcomes) (g : Shared) (c : Call) : Reply :=
  match c.pc with
  | .connect pc => connectReply o.connect pc
  | .takeSession => if g.world.mgr.sessionpool.isNone then .tau else .session o.takeSession
  | .closeOverflow | .close => .call o.close
  | .sending pc => producerReply o.send pc
  | _ => .tau

variable {t k : ℕ} {g g' : Shared} {c c' : Call} {o : MgrSendOutcomes}
  {session : Option SessionId} {msg : String} {pc pc' : ProducerPc}

/-- Work on the element, followed by more work on it. -/
theorem fromSending_onItem {α : Type} {w : MgrWorld} {f : Producer → α × Producer}
    {F F' : Producer → Sending} {x : α} {pool : ProducerPool}
    (h : w.mgr.pool.onItem k f = .ok (x, pool))
    (hf : ∀ p, x = (f p).1 → F' (f p).2 = F p) :
    fromSending o { w with mgr.pool := pool } k F' = fromSending o w k F := by
  obtain ⟨elems, e, hpool, he, rfl, rfl⟩ := onItem_eq_ok.mp h
  have hlt : k < elems.length := (List.getElem?_eq_some_iff.mp he).1
  have hbefore : w.mgr.pool.onItem k (reported F) = .ok (((reported F) e).1,
      { w.mgr.pool with pool := .allocated (elems.set k ((reported F) e).2) }) :=
    onItem_eq_ok.mpr ⟨elems, e, hpool, he, rfl, rfl⟩
  have hafter : ({ w.mgr.pool with pool := .allocated (elems.set k (f e).2) } :
      ProducerPool).onItem k (reported F') = .ok (((reported F') (f e).2).1,
        { w.mgr.pool with pool := .allocated (elems.set k ((reported F') (f e).2).2) }) := by
    refine onItem_eq_ok.mpr ⟨_, (f e).2, rfl, ?_, rfl, ?_⟩
    · rw [List.getElem?_set_self hlt]
    · rw [List.set_set]
  have hsame : reported F' (f e).2 = reported F e := by
    unfold reported
    rw [hf e rfl]
  unfold fromSending
  dsimp only
  rw [hbefore, hafter, hsame]

/-- A statement that does not touch the element. -/
theorem sendingRest_congr (hworld : g'.world = g.world) (haccepted : g'.accepted = g.accepted)
    (hf : ∀ p, producerRest o.send session msg (modeOf g' session) pc' p =
      producerRest o.send session msg (modeOf g session) pc p) :
    sendingRest t k o session msg g' pc' = sendingRest t k o session msg g pc := by
  unfold sendingRest
  rw [hworld, haccepted, funext hf]

/-- The element at `k` is there. -/
def There (g : Shared) (k : ℕ) : Prop :=
  ∃ elems e, g.world.mgr.pool.pool = .allocated elems ∧ elems[k]? = some e

/-- Work on an element that is there. -/
theorem There.onProducer {f : Producer → ProducerPc × Producer} (hthere : There g k)
    (h : g.onProducer k f = (g', pc')) :
    ∃ e pool, g.world.mgr.pool.onItem k f = .ok ((f e).1, pool) ∧ g' = g.setPool pool ∧
      pc' = (f e).1 ∧ There g' k := by
  obtain ⟨elems, e, hpool, he⟩ := hthere
  have hitem := onItem_eq_ok (f := f).mpr ⟨elems, e, hpool, he, rfl, rfl⟩
  refine ⟨e, _, hitem, ?_⟩
  simp only [Shared.onProducer, Shared.onItem, hitem, Except.map, Prod.mk.injEq] at h
  obtain ⟨rfl, rfl⟩ := h
  refine ⟨rfl, rfl, elems.set k (f e).2, (f e).2, rfl, ?_⟩
  exact List.getElem?_set_self (List.getElem?_eq_some_iff.mp he).1

/-- A statement that works on the element. -/
theorem onProducer_rest {f : Producer → ProducerPc × Producer} (hthere : There g k)
    (hf : ∀ p, producerRest o.send session msg (modeOf g session) (f p).1 (f p).2 =
      producerRest o.send session msg (modeOf g session) pc p)
    (h : g.onProducer k f = (g', pc')) :
    sendingRest t k o session msg g' pc' = sendingRest t k o session msg g pc := by
  obtain ⟨e, pool, hitem, rfl, rfl, -⟩ := hthere.onProducer h
  unfold sendingRest
  congr 1
  apply fromSending_onItem hitem
  intro p hp
  show producerRest o.send session msg (modeOf g session) (f e).1 (f p).2 = _
  rw [hp]
  exact hf p

/-- `m_strError = …; return false;` at a statement whose rest is just that. -/
theorem producerError_rest {e : String} (hthere : There g k)
    (hrest : ∀ p, producerRest o.send session msg (modeOf g session) pc p = failWith p e)
    (h : g.producerError k e = (g', pc')) :
    sendingRest t k o session msg g' pc' = sendingRest t k o session msg g pc := by
  refine onProducer_rest hthere ?_ h
  intro p
  rw [hrest p]
  rfl

/-- Without a session the call does not get past its first statement. -/
theorem producerStep_none {r : Reply} (hstep : pc.step t k none msg g r = some (g', pc')) :
    pc = .testArguments ∧ r = .tau ∧
      g.producerError k "in sendmessage, session object NULL" = (g', pc') := by
  cases pc with
  | testArguments =>
      cases r with
      | tau => exact ⟨rfl, rfl, Option.some.inj hstep⟩
      | _ => cases hstep
  | createDestination | createCachedProducer | setDeliveryMode | createTextMessage | send =>
      cases r with
      | call x => cases x <;> cases hstep
      | _ => cases hstep
  | testDestination | returned | fault => cases r <;> cases hstep

/-- **A statement of `CDSAMQProducer::sendmessage`** that learns what `o` says. -/
theorem producer_rest (hthere : There g k)
    (hstep : pc.step t k session msg g (producerReply o.send pc) = some (g', pc')) :
    sendingRest t k o session msg g' pc' = sendingRest t k o session msg g pc := by
  cases session with
  | none =>
      obtain ⟨rfl, -, herror⟩ := producerStep_none hstep
      exact producerError_rest hthere (fun p => rfl) herror
  | some s =>
      cases pc with
      | testArguments =>
          have hnext := Option.some.inj hstep
          split at hnext
          · rename_i hmsg
            exact producerError_rest hthere (fun p => sendmessage_empty p s o.send hmsg) hnext
          · rename_i hmsg
            cases hnext
            apply sendingRest_congr rfl rfl
            intro p
            exact (sendmessage_nonempty p s o.send (by simpa using hmsg)).symm
      | testDestination =>
          refine onProducer_rest hthere ?_ (Option.some.inj hstep)
          intro p
          cases hd : p.destination.isNone <;> simp [producerRest, fromTestDestination, hd]
      | createDestination =>
          simp only [producerReply] at hstep
          cases ho : o.send.createDestination with
          | ok u =>
              rw [ho] at hstep
              refine onProducer_rest hthere ?_ (Option.some.inj hstep)
              intro p
              simp [producerRest, fromCreateDestination, ho]
          | cms e =>
              rw [ho] at hstep
              refine producerError_rest hthere ?_ (Option.some.inj hstep)
              intro p
              simp [producerRest, fromCreateDestination, ho]
      | createCachedProducer =>
          simp only [producerReply] at hstep
          cases ho : o.send.createCachedProducer with
          | ok u =>
              rw [ho] at hstep
              refine onProducer_rest hthere ?_ (Option.some.inj hstep)
              intro p
              simp [producerRest, fromCreateCachedProducer, ho]
          | cms e =>
              rw [ho] at hstep
              refine producerError_rest hthere ?_ (Option.some.inj hstep)
              intro p
              simp [producerRest, fromCreateCachedProducer, ho]
      | setDeliveryMode d =>
          simp only [producerReply] at hstep
          cases ho : o.send.setDeliveryMode with
          | ok u =>
              rw [ho] at hstep
              cases hstep
              apply sendingRest_congr
              · rfl
              · rfl
              · intro p
                simp [producerRest, fromSetDeliveryMode, ho, modeOf]
          | cms e =>
              rw [ho] at hstep
              refine producerError_rest hthere ?_ (Option.some.inj hstep)
              intro p
              simp [producerRest, fromSetDeliveryMode, ho]
      | createTextMessage d =>
          simp only [producerReply] at hstep
          cases ho : o.send.createTextMessage with
          | ok u =>
              rw [ho] at hstep
              cases hstep
              apply sendingRest_congr rfl rfl
              intro p
              simp [producerRest, fromCreateTextMessage, ho]
          | cms e =>
              rw [ho] at hstep
              refine producerError_rest hthere ?_ (Option.some.inj hstep)
              intro p
              simp [producerRest, fromCreateTextMessage, ho]
      | send d body =>
          simp only [producerReply] at hstep
          cases ho : o.send.send with
          | ok u =>
              rw [ho] at hstep
              cases hstep
              obtain ⟨elems, e, hpool, he⟩ := hthere
              have hitem : ∀ F, g.world.mgr.pool.onItem k (reported F) = .ok ((reported F e).1,
                  { g.world.mgr.pool with pool := .allocated (elems.set k (reported F e).2) }) :=
                fun F => onItem_eq_ok.mpr ⟨elems, e, hpool, he, rfl, rfl⟩
              simp [sendingRest, noted, fromSending, hitem, reported, producerRest, fromSend, ho,
                modeOf]
          | cms e =>
              rw [ho] at hstep
              refine producerError_rest hthere ?_ (Option.some.inj hstep)
              intro p
              simp [producerRest, fromSend, ho]
      | returned b => cases hstep
      | fault e => cases hstep

/-! ### The steps of the manager -/

/-- The element of a call that works on one is there. -/
def ElementThere (g : Shared) (c : Call) : Prop :=
  match c.pc with
  | .unlockCreate | .sending _ => ∀ k, c.producer = some k → There g k
  | _ => True

/-- `session->close()`. -/
theorem closeSession_rest {pc : SendPc} {x : Outcome Unit}
    (h : c.closeSession g pc x = some (g', c')) :
    (∃ u, x = .ok u ∧ g' = g.giveBack c.session ∧ c' = c.goto pc) ∨
      ∃ e, x = .cms e ∧ g' = g ∧ c' = c.goto (.ended (.threw e)) := by
  cases x with
  | ok u =>
      cases h
      exact .inl ⟨u, rfl, rfl, rfl⟩
  | cms e =>
      cases h
      exact .inr ⟨e, rfl, rfl, rfl⟩

/-- The return of `producer->sendmessage`. -/
theorem sent_rest {b : Bool} (hpc : c.pc = .sending (.returned b)) (hk : c.producer = some k)
    (hthere : There g k) (h : c.sent g k b = some (g', c')) :
    callRest t o g' c' = callRest t o g c := by
  obtain ⟨elems, e, hpool, he⟩ := hthere
  have hself : elems.set k e = elems := by
    obtain ⟨hlt, rfl⟩ := List.getElem?_eq_some_iff.mp he
    exact List.set_getElem_self hlt
  have hget : g.world.mgr.pool.pool.get k = .ok e := get_eq_ok.mpr ⟨elems, hpool, he⟩
  have hitem : g.world.mgr.pool.onItem k
      (reported (producerRest o.send c.session c.strMessage (modeOf g c.session) (.returned b))) =
      .ok ((b, e.strError, none), g.world.mgr.pool) := by
    refine onItem_eq_ok.mpr ⟨elems, e, hpool, he, rfl, ?_⟩
    show g.world.mgr.pool = { g.world.mgr.pool with pool := .allocated (elems.set k e) }
    rw [hself, ← hpool]
  cases b with
  | true =>
      cases h
      simp [callRest, hpc, hk, sendingRest, fromSending, hitem, noted]
  | false =>
      simp only [Call.sent, hget, Bool.false_eq_true, if_false] at h
      cases h
      simp [callRest, hpc, hk, sendingRest, fromSending, hitem, noted, Shared.setError]

/-- Inside `CreateSessionPool`. -/
theorem step_connect {pc : ConnectPc} {r : Reply} (hpc : c.pc = .connect pc)
    (hnot : ∀ b, pc ≠ .returned b) :
    c.step t g r =
      (pc.step g.world r).map fun x => ({ g with world := x.1 }, c.goto (.connect x.2)) := by
  cases pc with
  | returned b => exact absurd rfl (hnot b)
  | _ => simp only [Call.step, hpc]

/-- Inside `CDSAMQProducer::sendmessage`. -/
theorem step_sending {r : Reply} (hpc : c.pc = .sending pc) (hk : c.producer = some k)
    (hnot : ∀ b, pc ≠ .returned b) :
    c.step t g r = (pc.step t k c.session c.strMessage g r).map fun x =>
      (x.1, c.goto (.sending x.2)) := by
  cases pc with
  | returned b => exact absurd rfl (hnot b)
  | _ => simp only [Call.step, hpc, hk]

/-- **A statement of the call** that learns what `o` says: the rest of the call is the same after
it. -/
theorem call_rest (hthere : ElementThere g c) (hstep : c.step t g (callReply o g c) = some (g', c')) :
    callRest t o g' c' = callRest t o g c := by
  unfold ElementThere at hthere
  cases hpc : c.pc with
  | isCreated =>
      simp only [Call.step, callReply, hpc] at hstep
      split at hstep
      · rename_i hcreated
        cases hstep
        simp [callRest, hpc, Call.goto, connectedRest, MgrWorld.sendmessage, hcreated]
      · rename_i hcreated
        cases hstep
        simp [callRest, hpc, Call.goto, noted, MgrWorld.sendmessage, hcreated, Shared.setError]
  | testStarted =>
      simp only [Call.step, callReply, hpc] at hstep
      cases hstep
      cases hflag : g.world.mgr.bStartedConnection <;>
        simp [callRest, hpc, Call.goto, connectedRest, MgrWorld.sendConnect, hflag]
  | lockConnect =>
      simp only [Call.step, callReply, hpc] at hstep
      obtain ⟨-, rfl, rfl⟩ := lock_eq_some hstep
      simp [callRest, hpc, Call.goto, connectRest]
  | connect pc =>
      by_cases hreturned : ∃ b, pc = .returned b
      · obtain ⟨b, rfl⟩ := hreturned
        simp only [Call.step, callReply, connectReply, hpc] at hstep
        cases hstep
        cases b <;> simp [callRest, hpc, Call.goto, connectRest, connectedRest, noted]
      · rw [not_exists] at hreturned
        have hreply : callReply o g c = connectReply o.connect pc := by simp [callReply, hpc]
        rw [step_connect hpc hreturned, hreply] at hstep
        obtain ⟨w', pc', hconnect, hrest, -⟩ := connect_advance o.connect g.world hreturned
        rw [hconnect, Option.map_some, Option.some.injEq] at hstep
        cases hstep
        simp [callRest, hpc, Call.goto, hrest]
  | takeSession =>
      cases hpool : g.world.mgr.sessionpool with
      | none =>
          simp only [Call.step, callReply, hpc, hpool, Option.isNone_none, if_true] at hstep
          cases hstep
          simp [callRest, hpc, Call.goto, MgrWorld.sendTake, hpool, noted]
      | some k =>
          simp only [Call.step, callReply, hpc, hpool, Option.isNone_some, Bool.false_eq_true,
            if_false] at hstep
          cases ho : o.takeSession with
          | cms e =>
              rw [ho] at hstep
              cases hstep
              simp [callRest, hpc, Call.goto, MgrWorld.sendTake, hpool, ho, noted, Shared.setError]
          | ok x =>
              rw [ho] at hstep
              cases x with
              | none =>
                  cases hstep
                  simp [callRest, hpc, Call.goto, MgrWorld.sendTake, hpool, ho, noted,
                    Shared.setError]
              | some s =>
                  simp only [Call.take] at hstep
                  split at hstep
                  · cases hstep
                  · cases hstep
                    simp [callRest, hpc, MgrWorld.sendTake, hpool, ho, sendOn_eq]
  | lockCreate =>
      simp only [Call.step, callReply, hpc] at hstep
      obtain ⟨-, rfl, rfl⟩ := lock_eq_some hstep
      simp [callRest, hpc, Call.goto]
  | createPoolItem =>
      simp only [Call.step, callReply, hpc, Call.createPoolItem] at hstep
      cases hcreate : g.world.mgr.pool.createPoolItem with
      | error e =>
          rw [hcreate] at hstep
          cases hstep
          simp [callRest, hpc, Call.goto, fromCreatePoolItem, hcreate, noted]
      | ok x =>
          obtain ⟨producer, pool⟩ := x
          rw [hcreate] at hstep
          cases hstep
          cases producer with
          | none => simp [callRest, hpc, fromCreatePoolItem, hcreate, Shared.setPool]
          | some k =>
              simp only [callRest, hpc, fromCreatePoolItem, hcreate]
              rfl
  | unlockCreate =>
      simp only [Call.step, callReply, hpc] at hstep
      cases hstep
      cases hk : c.producer with
      | none => simp [callRest, hpc, Call.goto, hk]
      | some k =>
          simp only [callRest, hpc, Call.goto, hk, Option.isNone_some, Bool.false_eq_true, if_false]
          rfl
  | closeOverflow =>
      simp only [Call.step, callReply, hpc] at hstep
      rcases closeSession_rest hstep with ⟨u, ho, rfl, rfl⟩ | ⟨e, ho, rfl, rfl⟩
      · simp [callRest, hpc, Call.goto, fromOverflow, ho, noted, Shared.setError, Shared.giveBack]
      · simp [callRest, hpc, Call.goto, fromOverflow, ho, noted, Shared.setError]
  | sending pc =>
      rw [hpc] at hthere
      cases hk : c.producer with
      | none =>
          simp only [Call.step, callReply, hpc, hk] at hstep
          cases hstep
      | some k =>
          by_cases hreturned : ∃ b, pc = .returned b
          · obtain ⟨b, rfl⟩ := hreturned
            simp only [Call.step, callReply, producerReply, hpc, hk] at hstep
            exact sent_rest hpc hk (hthere k hk) hstep
          · rw [not_exists] at hreturned
            have hreply : callReply o g c = producerReply o.send pc := by simp [callReply, hpc]
            rw [step_sending hpc hk hreturned, hreply] at hstep
            obtain ⟨⟨g₁, pc₁⟩, hproducer, heq⟩ := Option.map_eq_some_iff.mp hstep
            cases heq
            simp only [callRest, hpc, Call.goto, hk]
            exact producer_rest (hthere k hk) hproducer
  | close =>
      simp only [Call.step, callReply, hpc] at hstep
      rcases closeSession_rest hstep with ⟨u, ho, rfl, rfl⟩ | ⟨e, ho, rfl, rfl⟩
      · simp [callRest, hpc, Call.goto, fromClose, ho, Shared.giveBack]
      · simp [callRest, hpc, Call.goto, fromClose, ho]
  | lockFree =>
      simp only [Call.step, callReply, hpc] at hstep
      obtain ⟨-, rfl, rfl⟩ := lock_eq_some hstep
      simp [callRest, hpc, Call.goto]
  | freePoolItem =>
      simp only [Call.step, callReply, hpc, Call.freePoolItem] at hstep
      cases hfree : g.world.mgr.pool.freePoolItem c.producer with
      | error e =>
          rw [hfree] at hstep
          cases hstep
          simp [callRest, hpc, Call.goto, fromFreePoolItem, hfree]
      | ok pool =>
          rw [hfree] at hstep
          cases hstep
          simp [callRest, hpc, Call.goto, fromFreePoolItem, hfree, Shared.setPool]
  | unlockFree =>
      simp only [Call.step, callReply, hpc] at hstep
      cases hstep
      simp [callRest, hpc, Call.goto]
  | ended r =>
      simp only [Call.step, callReply, hpc] at hstep
      cases hstep

/-! ## Outcomes that are learned on the way -/

/-- The outcomes `o`, with what the statement has learned in its place. -/
def foreseeSend (o : SendOutcomes) : ProducerPc → Reply → SendOutcomes
  | .createDestination, .call x => { o with createDestination := x }
  | .createCachedProducer, .call x => { o with createCachedProducer := x }
  | .setDeliveryMode _, .call x => { o with setDeliveryMode := x }
  | .createTextMessage _, .call x => { o with createTextMessage := x }
  | .send _ _, .call x => { o with send := x }
  | _, _ => o

/-- The outcomes `o` of the call, with what the statement has learned in its place. -/
def foreseeCall (o : MgrSendOutcomes) (c : Call) (r : Reply) : MgrSendOutcomes :=
  match c.pc, r with
  | .connect pc, r => { o with connect := foresee o.connect pc r }
  | .takeSession, .session x => { o with takeSession := x }
  | .closeOverflow, .call x => { o with close := x }
  | .close, .call x => { o with close := x }
  | .sending pc, r => { o with send := foreseeSend o.send pc r }
  | _, _ => o

/-- What a statement of `CDSAMQProducer::sendmessage` has learned is not looked at again. -/
theorem foreseeSend_spec {r : Reply} {o : SendOutcomes} (hthere : There g k)
    (h : pc.step t k session msg g r = some (g', pc')) :
    producerReply (foreseeSend o pc r) pc = r ∧
      ∀ mode, producerRest (foreseeSend o pc r) session msg mode pc' =
        producerRest o session msg mode pc' := by
  have herror : ∀ {e : String}, some (g.producerError k e) = some (g', pc') →
      pc' = .returned false := by
    intro e he
    obtain ⟨p, pool, -, -, hpc', -⟩ := hthere.onProducer (Option.some.inj he)
    exact hpc'
  cases session with
  | none =>
      obtain ⟨rfl, rfl, he⟩ := producerStep_none h
      rw [herror (congrArg some he)]
      exact ⟨rfl, fun mode => rfl⟩
  | some s =>
      cases pc with
      | testArguments | testDestination =>
          cases r with
          | tau => exact ⟨rfl, fun mode => rfl⟩
          | _ => cases h
      | createDestination | createCachedProducer =>
          cases r with
          | call x =>
              cases x with
              | ok u =>
                  obtain ⟨p, pool, -, -, rfl, -⟩ := hthere.onProducer (Option.some.inj h)
                  exact ⟨rfl, fun mode => rfl⟩
              | cms e =>
                  rw [herror h]
                  exact ⟨rfl, fun mode => rfl⟩
          | _ => cases h
      | setDeliveryMode d | createTextMessage d | send d body =>
          cases r with
          | call x =>
              cases x with
              | ok u =>
                  cases h
                  exact ⟨rfl, fun mode => rfl⟩
              | cms e =>
                  rw [herror h]
                  exact ⟨rfl, fun mode => rfl⟩
          | _ => cases h
      | returned b => cases r <;> cases h
      | fault e => cases r <;> cases h

/-- What a statement has learned is what the foreseen outcomes prescribe, and the statements after
it do not look at it again. -/
theorem foreseeCall_spec {r : Reply} (hthere : ElementThere g c)
    (h : c.step t g r = some (g', c')) :
    callReply (foreseeCall o c r) g c = r ∧
      callRest t (foreseeCall o c r) g' c' = callRest t o g' c' := by
  unfold ElementThere at hthere
  cases hpc : c.pc with
  | connect pc =>
      by_cases hreturned : ∃ b, pc = .returned b
      · obtain ⟨b, rfl⟩ := hreturned
        cases r with
        | tau => simp [callReply, foreseeCall, foresee, connectReply, hpc]
        | _ => simp [Call.step, hpc, ConnectPc.step] at h
      · rw [not_exists] at hreturned
        rw [step_connect hpc hreturned] at h
        obtain ⟨⟨w', pc'⟩, hconnect, heq⟩ := Option.map_eq_some_iff.mp h
        cases heq
        obtain ⟨hreply, hrest⟩ := foresee_spec (o := o.connect) hconnect
        refine ⟨by simpa [callReply, foreseeCall, hpc] using hreply, ?_⟩
        simp only [callRest, Call.goto, foreseeCall, hpc, hrest]
        rfl
  | takeSession =>
      cases hpool : g.world.mgr.sessionpool with
      | none =>
          cases r with
          | tau => simp [callReply, foreseeCall, hpc, hpool]
          | _ => simp [Call.step, hpc, hpool] at h
      | some p =>
          cases r with
          | session x =>
              simp only [Call.step, hpc, hpool, Option.isNone_some, Bool.false_eq_true,
                if_false] at h
              refine ⟨by simp [callReply, foreseeCall, hpc, hpool], ?_⟩
              rcases (take_eq_some h).2.2.2 with hpc' | hpc'
              · simp only [callRest, hpc', foreseeCall, hpc]
                rfl
              · simp only [callRest, hpc']
          | _ => simp [Call.step, hpc, hpool] at h
  | closeOverflow =>
      cases r with
      | call x =>
          simp only [Call.step, hpc] at h
          refine ⟨by simp [callReply, foreseeCall, hpc], ?_⟩
          rcases closeSession_rest h with ⟨u, -, -, rfl⟩ | ⟨e, -, -, rfl⟩ <;>
            simp [callRest, Call.goto]
      | _ => simp [Call.step, hpc] at h
  | close =>
      cases r with
      | call x =>
          simp only [Call.step, hpc] at h
          refine ⟨by simp [callReply, foreseeCall, hpc], ?_⟩
          rcases closeSession_rest h with ⟨u, -, -, rfl⟩ | ⟨e, -, -, rfl⟩ <;>
            simp [callRest, Call.goto]
      | _ => simp [Call.step, hpc] at h
  | sending pc =>
      rw [hpc] at hthere
      cases hk : c.producer with
      | none => cases r <;> simp [Call.step, hpc, hk] at h
      | some k =>
          by_cases hreturned : ∃ b, pc = .returned b
          · obtain ⟨b, rfl⟩ := hreturned
            cases r with
            | tau => simp [callReply, foreseeCall, foreseeSend, producerReply, hpc]
            | _ => simp [Call.step, hpc, hk, ProducerPc.step] at h
          · rw [not_exists] at hreturned
            rw [step_sending hpc hk hreturned] at h
            obtain ⟨⟨g₁, pc₁⟩, hproducer, heq⟩ := Option.map_eq_some_iff.mp h
            cases heq
            obtain ⟨hreply, hrest⟩ := foreseeSend_spec (o := o.send) (hthere k hk) hproducer
            refine ⟨by simpa [callReply, foreseeCall, hpc] using hreply, ?_⟩
            simp only [callRest, Call.goto, foreseeCall, hpc, hk, sendingRest, hrest]
            rfl
  | isCreated | testStarted | lockConnect | lockCreate | createPoolItem | unlockCreate | lockFree
  | freePoolItem | unlockFree =>
      cases r with
      | tau => simp [callReply, foreseeCall, hpc]
      | _ => simp [Call.step, hpc] at h
  | ended x => cases r <;> simp [Call.step, hpc] at h

/-! ## The call alone -/

/-- The call has a session. -/
def needsSession : SendPc → Bool
  | .lockCreate | .createPoolItem | .unlockCreate | .sending _ => true
  | _ => false

/-- Nobody else holds the mutex, and the call has what its next statement needs. -/
structure AloneAt (g : Shared) (c : Call) : Prop where
  mutex : ¬ InSection c.pc → g.mutex = none
  there : ElementThere g c
  session : needsSession c.pc = true → c.session.isSome = true
  producer : ∀ pc, c.pc = .sending pc → c.producer.isSome = true ∧ ∀ e, pc ≠ .fault e

theorem aloneAt_new (hmutex : g.mutex = none) (msg : String) : AloneAt g (.new msg) := by
  refine ⟨fun _ => hmutex, trivial, ?_, ?_⟩
  · intro hneeds
    cases hneeds
  · intro pc hpc
    cases hpc

/-- Work on an element that is there does not fault, and leaves it there. -/
theorem There.step {r : Reply} (hthere : There g k)
    (h : pc.step t k session msg g r = some (g', pc')) : There g' k ∧ ∀ e, pc' ≠ .fault e := by
  have hitem : ∀ {f : Producer → ProducerPc × Producer}, (∀ p e, (f p).1 ≠ .fault e) →
      some (g.onProducer k f) = some (g', pc') → There g' k ∧ ∀ e, pc' ≠ .fault e := by
    intro f hf hres
    obtain ⟨p, pool, -, -, rfl, hthere'⟩ := hthere.onProducer (Option.some.inj hres)
    exact ⟨hthere', hf p⟩
  have herror : ∀ {e : String}, some (g.producerError k e) = some (g', pc') →
      There g' k ∧ ∀ e, pc' ≠ .fault e := hitem (fun p e => by simp)
  cases session with
  | none =>
      obtain ⟨-, -, he⟩ := producerStep_none h
      exact herror (congrArg some he)
  | some s =>
      cases pc with
      | testArguments =>
          cases r with
          | tau =>
              simp only [ProducerPc.step] at h
              split at h
              · exact herror h
              · cases h
                exact ⟨hthere, fun e => by simp⟩
          | _ => cases h
      | testDestination =>
          cases r with
          | tau =>
              refine hitem ?_ h
              intro p e
              dsimp only
              split <;> simp
          | _ => cases h
      | createDestination | createCachedProducer =>
          cases r with
          | call x =>
              cases x with
              | ok u => exact hitem (fun p e => by simp) h
              | cms e => exact herror h
          | _ => cases h
      | setDeliveryMode d | createTextMessage d | send d body =>
          cases r with
          | call x =>
              cases x with
              | ok u =>
                  cases h
                  exact ⟨hthere, fun e => by simp⟩
              | cms e => exact herror h
          | _ => cases h
      | returned b => cases r <;> cases h
      | fault e => cases r <;> cases h

/-- `CreatePoolItem` hands out an element that is there. -/
theorem there_of_createPoolItem {pool : ProducerPool}
    (h : g.world.mgr.pool.createPoolItem = .ok (some k, pool)) : There (g.setPool pool) k := by
  rcases createPoolItem_eq_ok h with ⟨hnone, -⟩ | ⟨j, a, hj, -, hmodify, rfl⟩
  · cases hnone
  · cases hj
    obtain ⟨elems, e, -, he, rfl⟩ := modify_eq_ok.mp hmodify
    exact ⟨_, _, rfl, List.getElem?_set_self (List.getElem?_eq_some_iff.mp he).1⟩

/-- What a call needs outside of these statements. -/
theorem AloneAt.of_quiet (hmutex : ¬ InSection c.pc → g.mutex = none)
    (hquiet : needsSession c.pc = false) : AloneAt g c := by
  refine ⟨hmutex, ?_, ?_, ?_⟩
  · unfold ElementThere
    cases hpc : c.pc with
    | unlockCreate | sending pc =>
        rw [hpc] at hquiet
        cases hquiet
    | _ => trivial
  · intro hneeds
    rw [hquiet] at hneeds
    cases hneeds
  · intro pc hpc
    rw [hpc] at hquiet
    cases hquiet

/-- **The step lemma.** -/
theorem aloneAt_step {r : Reply} (h : AloneAt g c) (hstep : c.step t g r = some (g', c')) :
    AloneAt g' c' := by
  have hmutex : ¬ InSection c'.pc → g'.mutex = none := by
    intro hout
    rcases mutex_after hstep with hnone | ⟨hsame, hin⟩ | ⟨-, hin⟩
    · exact hnone
    · rw [hsame]
      exact h.mutex fun hsec => hout (hin hsec)
    · exact absurd hin hout
  have hthere := h.there
  have hsession := h.session
  unfold ElementThere at hthere
  cases callStep_of_step hstep with
  | created | notCreated | connect | nullSessionPool | createFault | free | freeFault
  | unlockFree => exact .of_quiet hmutex rfl
  | readFlag hpc =>
      apply AloneAt.of_quiet hmutex
      dsimp only [Call.goto]
      split <;> rfl
  | @connected b hpc =>
      apply AloneAt.of_quiet hmutex
      cases b <;> rfl
  | @lock pc' hlock hfree =>
      generalize hpc : c.pc = pc at hlock hsession
      cases hlock with
      | connect | free => exact .of_quiet hmutex rfl
      | create =>
          refine ⟨hmutex, trivial, fun _ => hsession rfl, ?_⟩
          intro pc hpc
          cases hpc
  | take hpc htake =>
      unfold Call.take at htake
      split at htake
      · split at htake
        · cases htake
        · cases htake
          refine ⟨hmutex, trivial, fun _ => rfl, ?_⟩
          intro pc hpc
          cases hpc
      · cases htake
        exact .of_quiet hmutex rfl
      · cases htake
        exact .of_quiet hmutex rfl
  | @create producer pool hpc hcreate =>
      refine ⟨hmutex, ?_, ?_, ?_⟩
      · intro k hk
        have hsome : producer = some k := hk
        rw [hsome] at hcreate
        exact there_of_createPoolItem hcreate
      · intro _
        exact hsession (by rw [hpc]; rfl)
      · intro pc hpc
        cases hpc
  | unlockCreate hpc =>
      rw [hpc] at hthere hsession
      by_cases hk : c.producer.isNone = true
      · exact .of_quiet (fun _ => rfl) (by simp [Call.goto, hk, needsSession])
      · refine ⟨fun _ => rfl, ?_, fun _ => hsession rfl, ?_⟩
        · unfold ElementThere
          simp only [Call.goto, hk]
          exact hthere
        · intro pc hpc'
          simp only [Call.goto, hk, Bool.false_eq_true, if_false, SendPc.sending.injEq] at hpc'
          have hsome : c.producer.isSome = true := by
            simpa [Option.isSome_iff_ne_none] using hk
          rw [← hpc']
          exact ⟨hsome, fun e => by simp⟩
  | closeOverflow hpc hclose =>
      apply AloneAt.of_quiet hmutex
      rcases closeSession_rest hclose with ⟨u, -, -, rfl⟩ | ⟨e, -, -, rfl⟩ <;> rfl
  | @producer k pc pc' g' hpc hk hproducer =>
      rw [hpc] at hthere hsession
      obtain ⟨hthere', hfault⟩ := (hthere k hk).step hproducer
      refine ⟨hmutex, ?_, fun _ => hsession rfl, ?_⟩
      · intro j hj
        have hjk : some j = some k := hj.symm.trans hk
        cases hjk
        exact hthere'
      · intro pc₁ hpc₁
        cases hpc₁
        exact ⟨by simp [Call.goto, hk], hfault⟩
  | sent hpc hk hsent =>
      rw [hpc] at hthere
      obtain ⟨elems, e, hpool, he⟩ := hthere _ hk
      obtain ⟨-, rfl⟩ := sent_eq_some (get_eq_ok.mpr ⟨elems, hpool, he⟩) hsent
      exact .of_quiet hmutex rfl
  | close hpc hclose =>
      apply AloneAt.of_quiet hmutex
      rcases closeSession_rest hclose with ⟨u, -, -, rfl⟩ | ⟨e, -, -, rfl⟩ <;> rfl

/-- The step of `CDSAMQProducer::sendmessage` that the outcomes prescribe. -/
theorem producer_advance (t k : ℕ) (s : SessionId) (msg : String) (g : Shared) (o : SendOutcomes)
    (hreturned : ∀ b, pc ≠ .returned b) (hfault : ∀ e, pc ≠ .fault e) :
    ∃ x, pc.step t k (some s) msg g (producerReply o pc) = some x := by
  cases pc with
  | testArguments | testDestination => exact ⟨_, rfl⟩
  | createDestination =>
      simp only [producerReply]
      cases o.createDestination <;> exact ⟨_, rfl⟩
  | createCachedProducer =>
      simp only [producerReply]
      cases o.createCachedProducer <;> exact ⟨_, rfl⟩
  | setDeliveryMode d =>
      simp only [producerReply]
      cases o.setDeliveryMode <;> exact ⟨_, rfl⟩
  | createTextMessage d =>
      simp only [producerReply]
      cases o.createTextMessage <;> exact ⟨_, rfl⟩
  | send d body =>
      simp only [producerReply]
      cases o.send <;> exact ⟨_, rfl⟩
  | returned b => exact absurd rfl (hreturned b)
  | fault e => exact absurd rfl (hfault e)

/-- **The call can make the step that the outcomes prescribe.** -/
theorem call_advance (h : AloneAt g c) (hnot : ¬ Ended c)
    (hfresh : c.pc = .takeSession → ∀ s, o.takeSession = .ok (some s) → s ∉ g.taken) :
    ∃ x, c.step t g (callReply o g c) = some x := by
  have hthere := h.there
  have hmutex := h.mutex
  unfold ElementThere at hthere
  cases hpc : c.pc with
  | isCreated =>
      simp only [Call.step, callReply, hpc]
      split <;> exact ⟨_, rfl⟩
  | lockConnect | lockCreate | lockFree =>
      rw [hpc] at hmutex
      have hfree : g.mutex = none := hmutex id
      exact ⟨_, by simp [Call.step, callReply, hpc, Call.lock, hfree]; rfl⟩
  | connect pc =>
      by_cases hreturned : ∃ b, pc = .returned b
      · obtain ⟨b, rfl⟩ := hreturned
        exact ⟨_, by simp only [Call.step, callReply, connectReply, hpc]; rfl⟩
      · rw [not_exists] at hreturned
        obtain ⟨w', pc', hconnect, -, -⟩ := connect_advance o.connect g.world hreturned
        exact ⟨_, by rw [step_connect hpc hreturned]; simp only [callReply, hpc, hconnect]; rfl⟩
  | takeSession =>
      cases hpool : g.world.mgr.sessionpool with
      | none => exact ⟨_, by simp [Call.step, callReply, hpc, hpool]; rfl⟩
      | some p =>
          simp only [Call.step, callReply, hpc, hpool, Option.isNone_some, Bool.false_eq_true,
            if_false]
          cases ho : o.takeSession with
          | cms e => exact ⟨_, rfl⟩
          | ok x =>
              cases x with
              | none => exact ⟨_, rfl⟩
              | some s => exact ⟨_, if_neg (hfresh hpc s ho)⟩
  | createPoolItem =>
      simp only [Call.step, callReply, hpc, Call.createPoolItem]
      split <;> exact ⟨_, rfl⟩
  | closeOverflow | close =>
      simp only [Call.step, callReply, hpc]
      cases o.close <;> exact ⟨_, rfl⟩
  | sending pc =>
      obtain ⟨hproducer, hfault⟩ := h.producer pc hpc
      obtain ⟨k, hk⟩ := Option.isSome_iff_exists.mp hproducer
      obtain ⟨s, hs⟩ := Option.isSome_iff_exists.mp (h.session (by rw [hpc]; rfl))
      rw [hpc] at hthere
      by_cases hreturned : ∃ b, pc = .returned b
      · obtain ⟨b, rfl⟩ := hreturned
        obtain ⟨elems, e, hpool, he⟩ := hthere k hk
        have hget := get_eq_ok.mpr ⟨elems, hpool, he⟩
        simp only [Call.step, callReply, producerReply, hpc, hk, Call.sent, hget]
        cases b <;> exact ⟨_, rfl⟩
      · rw [not_exists] at hreturned
        obtain ⟨x, hx⟩ := producer_advance t k s c.strMessage g o.send hreturned hfault
        exact ⟨_, by rw [step_sending hpc hk hreturned, hs]; simp only [callReply, hpc, hx]; rfl⟩
  | freePoolItem =>
      simp only [Call.step, callReply, hpc, Call.freePoolItem]
      split <;> exact ⟨_, rfl⟩
  | testStarted | unlockCreate | unlockFree =>
      exact ⟨_, by simp only [Call.step, callReply, hpc]; rfl⟩
  | ended r => exact absurd ⟨r, hpc⟩ hnot

/-! ## The whole call -/

/-- The statements of the call `t`. -/
def callMachine (t : ℕ) : Machine (Shared × Call) Reply := ⟨fun s r => s.2.step t s.1 r⟩

/-- **The statements do what the whole call does**, with the outcomes that they learn and any
outcomes of the calls that are still to come. -/
theorem call_foreseen {r : Reply} (halone : AloneAt g c) (hstep : c.step t g r = some (g', c'))
    (o' : MgrSendOutcomes) : ∃ o, callRest t o g c = callRest t o' g' c' := by
  obtain ⟨hreply, hrest⟩ := foreseeCall_spec (o := o') halone.there hstep
  refine ⟨foreseeCall o' c r, ?_⟩
  have hsame := call_rest (o := foreseeCall o' c r) halone.there (by rw [hreply]; exact hstep)
  exact hsame.symm.trans hrest

theorem noted_inj (t : ℕ) (accepted : List (ℕ × Sent))
    {x y : SendResult × MgrWorld × Option Sent} (h : noted t accepted x = noted t accepted y) : x = y := by
  obtain ⟨a, w, sent⟩ := x
  obtain ⟨b, w', sent'⟩ := y
  simp only [noted, Prod.mk.injEq, List.append_cancel_left_eq] at h
  obtain ⟨rfl, rfl, hsent⟩ := h
  cases sent <;> cases sent' <;> simp_all

/-- Outcomes of the library calls of a call that makes none any more. -/
def noOutcomes : MgrSendOutcomes where
  connect := ⟨.ok (), .ok (), .ok ()⟩
  takeSession := .ok none
  send := ⟨.ok (), .ok (), .ok (), .ok (), .ok ()⟩
  close := .ok ()

/-- The session that `takeSession` gives makes no difference to what the call does. -/
theorem sendmessage_session (w : MgrWorld) (msg : String) (o : MgrSendOutcomes) {s : SessionId}
    (hs : o.takeSession = .ok (some s)) (s' : SessionId) :
    w.sendmessage msg { o with takeSession := .ok (some s') } = w.sendmessage msg o := by
  have htake : ∀ w : MgrWorld,
      w.sendTake msg { o with takeSession := .ok (some s') } = w.sendTake msg o := by
    intro w
    unfold MgrWorld.sendTake
    rw [hs]
    cases w.mgr.sessionpool <;> rfl
  unfold MgrWorld.sendmessage
  simp only [htake]

/-- Outcomes with the same effect whose session is not taken. -/
theorem exists_fresh_session (w : MgrWorld) (msg : String) (o : MgrSendOutcomes)
    (taken : List SessionId) : ∃ o', w.sendmessage msg o' = w.sendmessage msg o ∧
      ∀ s, o'.takeSession = .ok (some s) → s ∉ taken := by
  by_cases hs : ∃ s, o.takeSession = .ok (some s)
  · obtain ⟨s, hs⟩ := hs
    obtain ⟨s', hs'⟩ := Infinite.exists_notMem_finset taken.toFinset
    rw [List.mem_toFinset] at hs'
    refine ⟨_, sendmessage_session w msg o hs s', ?_⟩
    intro s₁ hs₁
    cases hs₁
    exact hs'
  · exact ⟨o, rfl, fun s hs₁ => absurd ⟨s, hs₁⟩ hs⟩

/-- The call has not yet asked for a session. -/
def beforeTake : SendPc → Bool
  | .isCreated | .testStarted | .lockConnect | .connect _ | .takeSession => true
  | _ => false

/-- Until then it takes no session. -/
theorem taken_step {r : Reply} (h : c.step t g r = some (g', c'))
    (hbefore : beforeTake c'.pc = true) : beforeTake c.pc = true ∧ g'.taken = g.taken := by
  cases callStep_of_step h with
  | created hpc | readFlag hpc | connect hpc | connected hpc =>
      rw [hpc]
      exact ⟨rfl, rfl⟩
  | @lock pc' hlock hfree =>
      generalize c.pc = pc at hlock
      cases hlock with
      | connect => exact ⟨rfl, rfl⟩
      | create | free => cases hbefore
  | take hpc htake =>
      rcases (take_eq_some htake).2.2.2 with hpc' | hpc' <;> rw [hpc'] at hbefore <;> cases hbefore
  | unlockCreate hpc =>
      dsimp only [Call.goto] at hbefore
      split at hbefore <;> cases hbefore
  | closeOverflow hpc hclose =>
      rcases closeSession_rest hclose with ⟨u, -, -, rfl⟩ | ⟨e, -, -, rfl⟩ <;> cases hbefore
  | close hpc hclose =>
      rcases closeSession_rest hclose with ⟨u, -, -, rfl⟩ | ⟨e, -, -, rfl⟩ <;> cases hbefore
  | sent hpc hk hsent =>
      unfold Call.sent at hsent
      split at hsent
      · cases hsent
        cases hbefore
      · split at hsent <;> cases hsent <;> cases hbefore
  | notCreated | nullSessionPool | create | createFault | producer | free | freeFault
  | unlockFree => cases hbefore

/-- **`sendmessage` alone.**  The statements of a call that is not interleaved with others can end
with this result, this manager and this accepted send exactly when the whole call does so for some
outcomes of its library calls. -/
theorem sendmessage_alone_iff {res : SendResult} {w' : MgrWorld} {sent : Option Sent}
    (hmutex : g.mutex = none) :
    (∃ rs g' c', (callMachine t).run (g, .new msg) rs = some (g', c') ∧ c'.pc = .ended res ∧
      g'.world = w' ∧ g'.accepted = g.accepted ++ sent.toList.map fun x => (t, x)) ↔
      ∃ o, g.world.sendmessage msg o = (res, w', sent) := by
  constructor
  · rintro ⟨rs, g', c', hrun, hpc, rfl, haccepted⟩
    have hinv : AloneAt g' c' ∧ ∀ o', ∃ o, callRest t o g (.new msg) = callRest t o' g' c' := by
      refine Machine.run_inv (M := callMachine t) (I := fun s => AloneAt s.1 s.2 ∧
        ∀ o', ∃ o, callRest t o g (.new msg) = callRest t o' s.1 s.2) ?_
        ⟨aloneAt_new hmutex msg, fun o => ⟨o, rfl⟩⟩ hrun
      rintro ⟨g₁, c₁⟩ r ⟨g₂, c₂⟩ ⟨halone, hrest⟩ hstep
      refine ⟨aloneAt_step halone hstep, ?_⟩
      intro o'
      obtain ⟨o₁, ho₁⟩ := call_foreseen halone hstep o'
      obtain ⟨o, ho⟩ := hrest o₁
      exact ⟨o, ho.trans ho₁⟩
    obtain ⟨o, ho⟩ := hinv.2 noOutcomes
    refine ⟨o, ?_⟩
    apply noted_inj t g.accepted
    rw [← callRest_new, ho, callRest_ended hpc, haccepted]
    rfl
  · rintro ⟨o₀, ho₀⟩
    obtain ⟨o, ho, hfresh⟩ := exists_fresh_session g.world msg o₀ g.taken
    have hmove : ∀ s : Shared × Call, (AloneAt s.1 s.2 ∧
        (beforeTake s.2.pc = true → s.1.taken = g.taken) ∧
        callRest t o s.1 s.2 = callRest t o g (.new msg)) → ¬ Ended s.2 →
        ∃ r s', True ∧ (callMachine t).step s r = some s' ∧ sendSize s'.2.pc < sendSize s.2.pc ∧
          AloneAt s'.1 s'.2 ∧ (beforeTake s'.2.pc = true → s'.1.taken = g.taken) ∧
          callRest t o s'.1 s'.2 = callRest t o g (.new msg) := by
      rintro ⟨g₁, c₁⟩ ⟨halone, htaken, hrest⟩ hnot
      have hnew : c₁.pc = .takeSession → ∀ s, o.takeSession = .ok (some s) → s ∉ g₁.taken := by
        intro hpc s hs
        rw [htaken (by rw [hpc]; rfl)]
        exact hfresh s hs
      obtain ⟨⟨g₂, c₂⟩, hstep⟩ := call_advance (t := t) halone hnot hnew
      refine ⟨_, (g₂, c₂), trivial, hstep, sendSize_step hstep, aloneAt_step halone hstep, ?_,
        (call_rest halone.there hstep).trans hrest⟩
      intro hbefore
      obtain ⟨hbefore₁, hsame⟩ := taken_step hstep hbefore
      exact hsame.trans (htaken hbefore₁)
    obtain ⟨rs, ⟨g', c'⟩, -, hrun, ⟨res', hpc⟩, -, -, hrest⟩ :=
      Machine.exists_run_to_final (M := callMachine t) (P := fun _ _ => True)
        (fun s => sendSize s.2.pc) hmove (g, .new msg)
        ⟨aloneAt_new hmutex msg, fun _ => rfl, rfl⟩
    rw [callRest_ended hpc, callRest_new, ho, ho₀] at hrest
    simp only [noted, Prod.mk.injEq] at hrest
    obtain ⟨rfl, hworld, haccepted⟩ := hrest
    exact ⟨rs, g', c', hrun, hpc, hworld, haccepted⟩

/-- On one idle producer the statements can send the text. -/
theorem sendmessage_alone_iff_sent :
    ∃ rs g' c', (callMachine 0).run
        ((SendSystem.init oneProducer fun _ _ => .nonPersistent).shared, .new "a") rs =
        some (g', c') ∧ c'.pc = .ended (.returned true) ∧
      g'.accepted = [(0, ⟨⟨.queue, "orders"⟩, "a", .persistent⟩)] := by
  have hresult : (oneProducer.sendmessage "a" { noOutcomes with takeSession := .ok (some 7) }).1 =
      .returned true := by
    decide +kernel
  have hsent : (oneProducer.sendmessage "a" { noOutcomes with takeSession := .ok (some 7) }).2.2 =
      some ⟨⟨.queue, "orders"⟩, "a", .persistent⟩ := by
    decide +kernel
  have hwhole : ∃ o w', (SendSystem.init oneProducer
      fun _ _ => .nonPersistent).shared.world.sendmessage "a" o =
        (.returned true, w', some ⟨⟨.queue, "orders"⟩, "a", .persistent⟩) :=
    ⟨_, _, Prod.ext hresult (Prod.ext rfl hsent)⟩
  obtain ⟨o, w', ho⟩ := hwhole
  obtain ⟨rs, g', c', hrun, hpc, -, haccepted⟩ := (sendmessage_alone_iff rfl).mpr ⟨o, ho⟩
  exact ⟨rs, g', c', hrun, hpc, haccepted⟩

end DsAmq.Analysis
