import DsAmq.Model.ProducerPoolMgr

/-!
# Concurrent `sendmessage` calls

Any number of `CDSAMQProducerPoolMgr::sendmessage` calls on one manager, statement by statement.
Every read or write of a member of the manager, every library call and every step on `m_mutex`
is one step; a section of the pool (`CreatePoolItem`, `FreePoolItem`) runs under the mutex and is
one step.  A write of an error text is made together with the statement before or after it.

A call is a thread: its arguments and local variables and the statement it is at (`SendPc`, with
`ConnectPc` inside `CreateSessionPool` and `ProducerPc` inside `CDSAMQProducer::sendmessage`).
What a library call does is the `Reply` of the step.  Of the library the model only knows that
`takeSession` hands out no session that is already taken, that a cached producer belongs to its
session, and that `send` accepts the message or throws without accepting it.
-/

set_option autoImplicit false

namespace DsAmq.Model

/-- What a step learns from outside: nothing, how a library call ended, or what `takeSession`
gave. -/
inductive Reply where
  | tau
  | call (o : Outcome Unit)
  | session (o : Outcome (Option SessionId))
deriving DecidableEq, Repr

/-! ## `CreateSessionPool` -/

/-- The statements of `CreateSessionPool`, named in the order of the source. -/
inductive ConnectPc where
  | isCreated
  | testStarted
  | testConnection
  | closeOld
  | deleteOld
  | nullOld
  | createConnection
  | start
  | setStarted
  | testUnstarted
  | deleteUnstarted
  | nullUnstarted
  | testResourcemgr
  | deleteResourcemgr
  | nullResourcemgr
  | newResourcemgr
  | addConnection
  | resetSessionpool
  | setStartedAgain
  | failed (message : String)
  | testFailedStarted
  | closeFailed
  | clearStarted
  | deleteFailed
  | nullFailed
  | returned (b : Bool)
deriving DecidableEq, Repr

/-- One statement of `CreateSessionPool`.
SOURCE: DSAMQProducerPoolMgr.cpp:128-213 -/
def ConnectPc.step (w : MgrWorld) : ConnectPc → Reply → Option (MgrWorld × ConnectPc)
  | .isCreated, .tau =>
      if w.mgr.pool.isCreated then some (w, .testStarted)
      else
        some (w.setError ("in CreateSessionPool, not created producer pool, " ++
          "must previous create producer pool, call CreatePool()"), .returned false)
  | .testStarted, .tau =>
      some (w, if w.mgr.bStartedConnection then .returned true else .testConnection)
  | .testConnection, .tau =>
      some (w, if w.mgr.connection.isSome then .closeOld else .createConnection)
  | .closeOld, .tau => some (w, .deleteOld)
  | .deleteOld, .tau => some (w.deleteConnection, .nullOld)
  | .nullOld, .tau => some (w.nullConnection, .createConnection)
  | .createConnection, .call (.ok _) => some (w.createConnection, .start)
  | .createConnection, .call (.cms msg) => some (w, .failed msg)
  | .start, .call (.ok _) => some (w, .setStarted)
  | .start, .call (.cms _) => some (w, .testUnstarted)
  | .setStarted, .tau => some (w.setStarted true, .testResourcemgr)
  | .testUnstarted, .tau =>
      some (w, if w.mgr.connection.isSome then .deleteUnstarted else .returned false)
  | .deleteUnstarted, .tau => some (w.deleteConnection, .nullUnstarted)
  | .nullUnstarted, .tau => some (w.nullConnection, .returned false)
  | .testResourcemgr, .tau =>
      some (w, if w.mgr.resourcemgr.isSome then .deleteResourcemgr else .newResourcemgr)
  | .deleteResourcemgr, .tau => some (w.deleteResourcemgr, .nullResourcemgr)
  | .nullResourcemgr, .tau => some (w.nullResourcemgr, .newResourcemgr)
  | .newResourcemgr, .tau => some (w.newResourcemgr, .addConnection)
  | .addConnection, .call (.ok _) => some (w.addConnection, .resetSessionpool)
  | .addConnection, .call (.cms msg) => some (w, .failed msg)
  | .resetSessionpool, .tau => some (w.resetSessionpool, .setStartedAgain)
  | .setStartedAgain, .tau => some (w.setStarted true, .returned true)
  | .failed msg, .tau =>
      some (w.setError ("fail to CreateSessionPool, create connection exception, " ++ msg),
        if w.mgr.connection.isSome then .testFailedStarted else .returned true)
  | .testFailedStarted, .tau =>
      some (w, if w.mgr.bStartedConnection then .closeFailed else .deleteFailed)
  | .closeFailed, .tau => some (w, .clearStarted)
  | .clearStarted, .tau => some (w.setStarted false, .deleteFailed)
  | .deleteFailed, .tau => some (w.deleteConnection, .nullFailed)
  | .nullFailed, .tau => some (w.nullConnection, .returned false)
  | _, _ => none

/-! ## The shared state -/

/-- What the calls share: the manager, its mutex (with the call that holds it), the sessions that
are taken, the delivery mode of the cached producer of each session and destination, and the
sends that were accepted, each with the call it came from. -/
structure Shared where
  world : MgrWorld
  mutex : Option ℕ
  taken : List SessionId
  modes : SessionId → Destination → DeliveryMode
  accepted : List (ℕ × Sent)

namespace Shared

/-- `m_strError = …` -/
def setError (g : Shared) (e : String) : Shared := { g with world := g.world.setError e }

/-- The pool replaced. -/
def setPool (g : Shared) (pool : ProducerPool) : Shared :=
  { g with world := { g.world with mgr.pool := pool } }

/-- Work on the element at `k` of the pool's array. -/
def onItem {α : Type} (g : Shared) (k : ℕ) (f : Producer → α × Producer) :
    Except Fault (α × Shared) :=
  (g.world.mgr.pool.onItem k f).map fun r => (r.1, g.setPool r.2)

/-- The session given back, when there is one. -/
def giveBack (g : Shared) (session : Option SessionId) : Shared :=
  { g with taken := g.taken.filter fun s => some s ≠ session }

end Shared

/-! ## `CDSAMQProducer::sendmessage` -/

/-- The statements of `CDSAMQProducer::sendmessage`.  After `createCachedProducer` the local
`producer` is the cached producer of the session for the destination, after `createTextMessage`
the local `message` is a text message with this body. -/
inductive ProducerPc where
  | testArguments
  | testDestination
  | createDestination
  | createCachedProducer
  | setDeliveryMode (d : Destination)
  | createTextMessage (d : Destination)
  | send (d : Destination) (body : String)
  | returned (b : Bool)
  | fault (e : Fault)
deriving DecidableEq, Repr

/-- A step on the element at `k`, and the statement it leads to. -/
def Shared.onProducer (g : Shared) (k : ℕ) (f : Producer → ProducerPc × Producer) :
    Shared × ProducerPc :=
  match g.onItem k f with
  | .ok (pc, g) => (g, pc)
  | .error e => (g, .fault e)

/-- `m_strError = …; return false;` -/
def Shared.producerError (g : Shared) (k : ℕ) (e : String) : Shared × ProducerPc :=
  g.onProducer k fun p => (.returned false, { p with strError := e })

/-- One statement of `CDSAMQProducer::sendmessage`, made by the call `t` on the element at `k`.
SOURCE: DSAMQProducer.cpp:102-170 -/
def ProducerPc.step (t k : ℕ) (session : Option SessionId) (strMessage : String) (g : Shared)
    (pc : ProducerPc) (r : Reply) : Option (Shared × ProducerPc) :=
  match pc, r, session with
  | .testArguments, .tau, none =>
      some (g.producerError k "in sendmessage, session object NULL")
  | .testArguments, .tau, some _ =>
      some (if strMessage.isEmpty then g.producerError k "in sendmessage, message is emtpy"
        else (g, .testDestination))
  | .testDestination, .tau, some _ =>
      some (g.onProducer k fun p =>
        (if p.destination.isNone then .createDestination else .createCachedProducer, p))
  | .createDestination, .call (.ok _), some _ =>
      some (g.onProducer k fun p =>
        (.createCachedProducer, { p with destination := some p.target }))
  | .createCachedProducer, .call (.ok _), some _ =>
      some (g.onProducer k fun p => (.setDeliveryMode (p.destination.getD p.target), p))
  | .setDeliveryMode d, .call (.ok _), some s =>
      some ({ g with modes := fun s' d' =>
        if s' = s ∧ d' = d then .persistent else g.modes s' d' }, .createTextMessage d)
  | .createDestination, .call (.cms msg), some _
  | .createCachedProducer, .call (.cms msg), some _
  | .setDeliveryMode _, .call (.cms msg), some _ =>
      some (g.producerError k ("in sendmessage, exception occured, " ++ msg))
  | .createTextMessage d, .call (.ok _), some _ => some (g, .send d strMessage)
  | .createTextMessage _, .call (.cms msg), some _ =>
      some (g.producerError k ("in sendmessage, fail to create message, " ++ msg))
  | .send d body, .call (.ok _), some s =>
      some ({ g with accepted := g.accepted ++ [(t, ⟨d, body, g.modes s d⟩)] }, .returned true)
  | .send _ _, .call (.cms msg), some _ =>
      some (g.producerError k ("in sendmessage, fail to send message, " ++ msg))
  | _, _, _ => none

/-! ## `CDSAMQProducerPoolMgr::sendmessage` -/

/-- The statements of `CDSAMQProducerPoolMgr::sendmessage`, and its ends. -/
inductive SendPc where
  | isCreated
  | testStarted
  | lockConnect
  | connect (pc : ConnectPc)
  | takeSession
  | lockCreate
  | createPoolItem
  | unlockCreate
  | closeOverflow
  | sending (pc : ProducerPc)
  | close
  | lockFree
  | freePoolItem
  | unlockFree
  | ended (result : SendResult)
deriving DecidableEq, Repr

/-- A call: its argument, its local variables and the statement it is at. -/
structure Call where
  strMessage : String
  session : Option SessionId
  producer : Option ℕ
  bSent : Bool
  pc : SendPc
deriving DecidableEq, Repr

namespace Call

/-- A call that begins. -/
def new (strMessage : String) : Call := ⟨strMessage, none, none, true, .isCreated⟩

/-- The call at the next statement. -/
def goto (c : Call) (pc : SendPc) : Call := { c with pc := pc }

/-- `std::lock_guard<std::mutex> lock_guard(m_mutex)` by the call `t`: waits while the mutex is
held. -/
def lock (t : ℕ) (g : Shared) (c : Call) (pc : SendPc) : Option (Shared × Call) :=
  if g.mutex.isNone then some ({ g with mutex := some t }, c.goto pc) else none

/-- The end of a `lock_guard`. -/
def unlock (g : Shared) (c : Call) (pc : SendPc) : Option (Shared × Call) :=
  some ({ g with mutex := none }, c.goto pc)

/-- `m_sessionpool->takeSession()` and what follows it.  It hands out no session that is taken.
SOURCE: DSAMQProducerPoolMgr.cpp:244-260 -/
def take (g : Shared) (c : Call) : Outcome (Option SessionId) → Option (Shared × Call)
  | .ok (some s) =>
      if s ∈ g.taken then none
      else some ({ g with taken := s :: g.taken }, { c with session := some s, pc := .lockCreate })
  | .ok none =>
      some (g.setError "in sendmessage, fail to get session, NULL",
        c.goto (.ended (.returned false)))
  | .cms msg =>
      some (g.setError ("in sendmessage, fail to get session, " ++ msg),
        c.goto (.ended (.returned false)))

/-- `session->close()`: gives the session back, or throws out of `sendmessage`. -/
def closeSession (g : Shared) (c : Call) (pc : SendPc) : Outcome Unit → Option (Shared × Call)
  | .ok _ => some (g.giveBack c.session, c.goto pc)
  | .cms msg => some (g, c.goto (.ended (.threw msg)))

/-- `CreatePoolItem` under the mutex.
SOURCE: DSAMQProducerPoolMgr.cpp:262-266 -/
def createPoolItem (g : Shared) (c : Call) : Option (Shared × Call) :=
  match g.world.mgr.pool.createPoolItem with
  | .ok (producer, pool) =>
      some (g.setPool pool, { c with producer := producer, pc := .unlockCreate })
  | .error e => some ({ g with mutex := none }, c.goto (.ended (.fault e)))

/-- `FreePoolItem` under the mutex.
SOURCE: DSAMQProducerPoolMgr.cpp:288-289 -/
def freePoolItem (g : Shared) (c : Call) : Option (Shared × Call) :=
  match g.world.mgr.pool.freePoolItem c.producer with
  | .ok pool => some (g.setPool pool, c.goto .unlockFree)
  | .error e => some ({ g with mutex := none }, c.goto (.ended (.fault e)))

/-- The return of `producer->sendmessage(session, strMessage)`.
SOURCE: DSAMQProducerPoolMgr.cpp:277-283 -/
def sent (g : Shared) (c : Call) (k : ℕ) (b : Bool) : Option (Shared × Call) :=
  if b then some (g, { c with bSent := true, pc := .close })
  else
    match g.world.mgr.pool.pool.get k with
    | .ok p =>
        some (g.setError ("fail to sendmessage, " ++ p.strError),
          { c with bSent := false, pc := .close })
    | .error e => some (g, c.goto (.ended (.fault e)))

/-- One statement of the call `t`.
SOURCE: DSAMQProducerPoolMgr.cpp:220-292 -/
def step (t : ℕ) (g : Shared) (c : Call) (r : Reply) : Option (Shared × Call) :=
  match c.pc, r with
  | .isCreated, .tau =>
      if g.world.mgr.pool.isCreated then some (g, c.goto .testStarted)
      else
        some (g.setError "fail to sendmessage, not created object pool",
          c.goto (.ended (.returned false)))
  | .testStarted, .tau =>
      some (g, c.goto (if g.world.mgr.bStartedConnection then .takeSession else .lockConnect))
  | .lockConnect, .tau => c.lock t g (.connect .isCreated)
  | .connect (.returned b), .tau =>
      c.unlock g (if b then .takeSession else .ended (.returned false))
  | .connect pc, r =>
      (pc.step g.world r).map fun (w, pc) => ({ g with world := w }, c.goto (.connect pc))
  | .takeSession, .tau =>
      if g.world.mgr.sessionpool.isNone then some (g, c.goto (.ended .nullSessionPool)) else none
  | .takeSession, .session o => if g.world.mgr.sessionpool.isNone then none else c.take g o
  | .lockCreate, .tau => c.lock t g .createPoolItem
  | .createPoolItem, .tau => c.createPoolItem g
  | .unlockCreate, .tau =>
      c.unlock g (if c.producer.isNone then .closeOverflow else .sending .testArguments)
  | .closeOverflow, .call o =>
      c.closeSession (g.setError ("fail to sendmessage, " ++ g.world.mgr.pool.strError))
        (.ended (.returned false)) o
  | .sending pc, r =>
      match c.producer, pc, r with
      | some k, .returned b, .tau => c.sent g k b
      | some k, pc, r =>
          (pc.step t k c.session c.strMessage g r).map fun (g, pc) => (g, c.goto (.sending pc))
      | none, _, _ => none
  | .close, .call o => c.closeSession g .lockFree o
  | .lockFree, .tau => c.lock t g .freePoolItem
  | .freePoolItem, .tau => c.freePoolItem g
  | .unlockFree, .tau => c.unlock g (.ended (.returned c.bSent))
  | _, _ => none

end Call

/-! ## The system -/

/-- The shared state and the calls, in the order in which they began. -/
structure SendSystem where
  shared : Shared
  calls : List Call

/-- A new `sendmessage` call begins, or a call makes its next step. -/
inductive SendAction where
  | begin (strMessage : String)
  | act (t : ℕ) (r : Reply)
deriving DecidableEq, Repr

namespace SendSystem

/-- The system before the first call, over a manager; the mutex is free and no session is
taken. -/
def init (w : MgrWorld) (modes : SessionId → Destination → DeliveryMode) : SendSystem :=
  ⟨⟨w, none, [], modes, []⟩, []⟩

/-- One step of the system. -/
def step (s : SendSystem) : SendAction → Option SendSystem
  | .begin strMessage => some { s with calls := s.calls ++ [.new strMessage] }
  | .act t r =>
      match s.calls[t]? with
      | none => none
      | some c => (c.step t s.shared r).map fun (g, c') => ⟨g, s.calls.set t c'⟩

/-- All interleavings of the calls. -/
def machine : Library.Machine SendSystem SendAction := ⟨step⟩

end SendSystem

end DsAmq.Model
