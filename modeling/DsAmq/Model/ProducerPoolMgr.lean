import DsAmq.Model.ProducerPool
import DsAmq.Library.Machine

/-!
# `CDSAMQProducerPoolMgr`, call by call

The manager of the producer side: the pool of producers, and the connection with its resource
manager and session pool.  Here every public call is one step, as a single thread sees it; the
outcomes of the library calls it may make are arguments.  `MgrWorld.machine` runs any sequence
of calls on one manager.

`Connection::close`, `new ResourceLifecycleManager` and `new SessionPool` do not throw, and
`new` never returns NULL, so that the branch of `CreateSessionPool` for a null resource manager
(lines 172-182) is never taken.
-/

set_option autoImplicit false

namespace DsAmq.Model

/-- The data members of `CDSAMQProducerPoolMgr`, the mutex apart.
SOURCE: DSAMQProducerPoolMgr.h:49-61 -/
structure ProducerPoolMgr where
  strBrokerURI : String
  strDestURI : String
  bUseTopic : Bool
  bClientAck : Bool
  connection : Option ConnectionId
  resourcemgr : Option ResourcemgrId
  strError : String
  bStartedConnection : Bool
  sessionpool : Option SessionPool
  pool : ProducerPool

/-- The constructor.
SOURCE: DSAMQProducerPoolMgr.cpp:19-30 -/
def ProducerPoolMgr.new : ProducerPoolMgr :=
  ⟨"", "", false, true, none, none, "", false, none, ProducerPool.new⟩

/-- The manager together with the connections and resource managers it has made. -/
structure MgrWorld where
  mgr : ProducerPoolMgr
  cms : Cms

/-- The outcomes of the library calls of `CreateSessionPool`, in their order. -/
structure ConnectOutcomes where
  createConnection : Outcome Unit
  start : Outcome Unit
  addConnection : Outcome Unit
deriving DecidableEq, Repr

/-- The outcomes of the library calls of `sendmessage`, in their order.  `takeSession` may
return NULL. -/
structure MgrSendOutcomes where
  connect : ConnectOutcomes
  takeSession : Outcome (Option SessionId)
  send : SendOutcomes
  close : Outcome Unit
deriving DecidableEq, Repr

/-- How `sendmessage` ends: it returns, lets the exception of `PooledSession::close` out, calls
`takeSession` through a null `m_sessionpool`, or runs into a fault of the pool. -/
inductive SendResult where
  | returned (b : Bool)
  | threw (message : String)
  | nullSessionPool
  | fault (e : Fault)
deriving DecidableEq, Repr

/-- A call of one of the two `CreatePool` overloads, with its arguments. -/
inductive CreateCall where
  | short (nPoolSize : UInt32) (strBrokerURI strDestURI : String)
  | full (nPoolSize : UInt32) (strBrokerURI strDestURI : String) (bUseTopic bClientAck : Bool)
deriving DecidableEq, Repr

/-- `if( nPoolSize > 50 ) nPoolSize = 50;`
SOURCE: DSAMQProducerPoolMgr.cpp:74-75, 106-107 -/
def clampPoolSize (nPoolSize : UInt32) : UInt32 := if nPoolSize > 50 then 50 else nPoolSize

/-- The first argument. -/
def CreateCall.nPoolSize : CreateCall → UInt32
  | .short n _ _ => n
  | .full n _ _ _ _ => n

/-- The destination URI of the call. -/
def CreateCall.strDestURI : CreateCall → String
  | .short _ _ d => d
  | .full _ _ d _ _ => d

/-- The topic flag that the call hands on to the pool: its own argument, or the member. -/
def CreateCall.useTopic (m : ProducerPoolMgr) : CreateCall → Bool
  | .short _ _ _ => m.bUseTopic
  | .full _ _ _ t _ => t

/-- Work on the element at `k` of the pool's array. -/
def ProducerPool.onItem {α : Type} (p : ProducerPool) (k : ℕ) (f : Producer → α × Producer) :
    Except Fault (α × ProducerPool) := do
  let r := f (← p.pool.get k)
  let pool ← p.pool.modify k fun _ => r.2
  return (r.1, { p with pool := pool })

namespace MgrWorld

/-- A new manager in a process without connections. -/
def new : MgrWorld := ⟨.new, .init⟩

/-! ## The statements on the members -/

/-- `m_strError = …` -/
def setError (w : MgrWorld) (e : String) : MgrWorld := { w with mgr.strError := e }

/-- `m_bStartedConnection = …` -/
def setStarted (w : MgrWorld) (b : Bool) : MgrWorld := { w with mgr.bStartedConnection := b }

/-- `m_connection = NULL` -/
def nullConnection (w : MgrWorld) : MgrWorld := { w with mgr.connection := none }

/-- `m_resourcemgr = NULL` -/
def nullResourcemgr (w : MgrWorld) : MgrWorld := { w with mgr.resourcemgr := none }

/-- `m_connection = factory->createConnection()`, when it returns. -/
def createConnection (w : MgrWorld) : MgrWorld :=
  { w with
    mgr.connection := some w.cms.createConnection.1
    cms := w.cms.createConnection.2 }

/-- `delete m_connection` -/
def deleteConnection (w : MgrWorld) : MgrWorld :=
  match w.mgr.connection with
  | some k => { w with cms := w.cms.deleteConnection k }
  | none => w

/-- `delete m_resourcemgr` -/
def deleteResourcemgr (w : MgrWorld) : MgrWorld :=
  match w.mgr.resourcemgr with
  | some g => { w with cms := w.cms.deleteResourcemgr g }
  | none => w

/-- `m_resourcemgr = new ResourceLifecycleManager()` -/
def newResourcemgr (w : MgrWorld) : MgrWorld :=
  { w with
    mgr.resourcemgr := some w.cms.newResourcemgr.1
    cms := w.cms.newResourcemgr.2 }

/-- `m_resourcemgr->addConnection(m_connection)`, when it returns.  Both members are set where
it is called. -/
def addConnection (w : MgrWorld) : MgrWorld :=
  match w.mgr.resourcemgr, w.mgr.connection with
  | some g, some k => { w with cms := w.cms.addConnection g k }
  | _, _ => w

/-- `m_sessionpool.reset(new SessionPool(m_connection, mode, m_resourcemgr))`.  Both members are
set where it is called. -/
def resetSessionpool (w : MgrWorld) : MgrWorld :=
  match w.mgr.connection, w.mgr.resourcemgr with
  | some k, some g =>
      { w with mgr.sessionpool := some ⟨k, AcknowledgeMode.select w.mgr.bClientAck, g⟩ }
  | _, _ => w

/-! ## The calls -/

/-- `if( m_resourcemgr ) { delete m_resourcemgr; m_resourcemgr = NULL; }`
SOURCE: DSAMQProducerPoolMgr.cpp:39-43, 165-169 -/
def dropResourcemgr (w : MgrWorld) : MgrWorld :=
  match w.mgr.resourcemgr with
  | some _ => w.deleteResourcemgr.nullResourcemgr
  | none => w

/-- `ReleaseResource`: the other members keep their values.
SOURCE: DSAMQProducerPoolMgr.cpp:37-44 -/
def releaseResource (w : MgrWorld) : MgrWorld := w.dropResourcemgr

/-- The destructor.  The destructors of the members destroy no connection.
SOURCE: DSAMQProducerPoolMgr.cpp:32-35 -/
def destructor (w : MgrWorld) : MgrWorld := w.releaseResource

/-- The end that both overloads of `CreatePool` share: the call of the pool's `CreatePool`, whose
result is not looked at, and the handler.
SOURCE: DSAMQProducerPoolMgr.cpp:80-91, 114-125 -/
def fillPool (w : MgrWorld) (nPoolSize : UInt32) (alloc : Alloc) : Bool × MgrWorld :=
  let r := w.mgr.pool.createPool nPoolSize w.mgr.strBrokerURI w.mgr.strDestURI w.mgr.bUseTopic
    w.mgr.bClientAck alloc
  let w := { w with mgr.pool := r.2 }
  match r.1 with
  | .threw => (false, w.setError ("in CreatePool, exception occured, " ++ r.2.strError))
  | .returned _ => (true, w)

/-- The overload without modes.
SOURCE: DSAMQProducerPoolMgr.cpp:58-92 -/
def createPoolShort (w : MgrWorld) (nPoolSize : UInt32) (strBrokerURI strDestURI : String)
    (alloc : Alloc) : Bool × MgrWorld :=
  if w.mgr.pool.isCreated then
    (true, w.setError "in CreatePool, already created pool")
  else if strBrokerURI.isEmpty || strDestURI.isEmpty then
    (false, w.setError "in CreatePool, broker or destination URI empty")
  else
    { w with
      mgr.strBrokerURI := strBrokerURI
      mgr.strDestURI := strDestURI }.fillPool (clampPoolSize nPoolSize) alloc

/-- The overload with the topic and acknowledge flags, which does not look at the URIs.
SOURCE: DSAMQProducerPoolMgr.cpp:94-126 -/
def createPoolFull (w : MgrWorld) (nPoolSize : UInt32) (strBrokerURI strDestURI : String)
    (bUseTopic bClientAck : Bool) (alloc : Alloc) : Bool × MgrWorld :=
  if w.mgr.pool.isCreated then
    (true, w.setError "in CreatePool, already created pool")
  else
    { w with
      mgr.strBrokerURI := strBrokerURI
      mgr.strDestURI := strDestURI
      mgr.bUseTopic := bUseTopic
      mgr.bClientAck := bClientAck }.fillPool (clampPoolSize nPoolSize) alloc

/-- A call of `CreatePool`. -/
def createPool (w : MgrWorld) (c : CreateCall) (alloc : Alloc) : Bool × MgrWorld :=
  match c with
  | .short n b d => w.createPoolShort n b d alloc
  | .full n b d t a => w.createPoolFull n b d t a alloc

/-- `if( m_connection ) { m_connection->close(); delete m_connection; m_connection = NULL; }`
SOURCE: DSAMQProducerPoolMgr.cpp:139-144 -/
def dropConnection (w : MgrWorld) : MgrWorld :=
  match w.mgr.connection with
  | some _ => w.deleteConnection.nullConnection
  | none => w

/-- The outer handler of `CreateSessionPool` and what follows it: with no connection it falls
through to `return true`.
SOURCE: DSAMQProducerPoolMgr.cpp:193-212 -/
def connectFailed (w : MgrWorld) (message : String) : Bool × MgrWorld :=
  let w := w.setError ("fail to CreateSessionPool, create connection exception, " ++ message)
  match w.mgr.connection with
  | some _ => (false, (w.setStarted false).deleteConnection.nullConnection)
  | none => (true, w)

/-- `CreateSessionPool`.
SOURCE: DSAMQProducerPoolMgr.cpp:128-213 -/
def createSessionPool (w : MgrWorld) (o : ConnectOutcomes) : Bool × MgrWorld :=
  if !w.mgr.pool.isCreated then
    (false, w.setError ("in CreateSessionPool, not created producer pool, " ++
      "must previous create producer pool, call CreatePool()"))
  else if w.mgr.bStartedConnection then
    (true, w)
  else
    let w := w.dropConnection
    match o.createConnection with
    | .cms msg => w.connectFailed msg
    | .ok _ =>
        let w := w.createConnection
        match o.start with
        | .cms _ => (false, w.deleteConnection.nullConnection)
        | .ok _ =>
            let w := (w.setStarted true).dropResourcemgr.newResourcemgr
            match o.addConnection with
            | .cms msg => w.connectFailed msg
            | .ok _ => (true, w.addConnection.resetSessionpool.setStarted true)

/-- `sendmessage` once it has a session: take a producer, send, close the session, give the
producer back.
SOURCE: DSAMQProducerPoolMgr.cpp:262-291 -/
def sendOn (w : MgrWorld) (session : SessionId) (strMessage : String) (o : MgrSendOutcomes) :
    SendResult × MgrWorld × Option Sent :=
  match w.mgr.pool.createPoolItem with
  | .error e => (.fault e, w, none)
  | .ok (none, pool) =>
      let w := { w with mgr.pool := pool }.setError ("fail to sendmessage, " ++ pool.strError)
      match o.close with
      | .ok _ => (.returned false, w, none)
      | .cms msg => (.threw msg, w, none)
  | .ok (some k, pool) =>
      let sending : Producer → (Bool × String × Option Sent) × Producer := fun p =>
        let r := p.sendmessage (some session) strMessage o.send
        ((r.1, r.2.1.strError, r.2.2), r.2.1)
      match pool.onItem k sending with
      | .error e => (.fault e, { w with mgr.pool := pool }, none)
      | .ok ((bSent, error, sent), pool) =>
          let w := { w with mgr.pool := pool }
          let w := if bSent then w else w.setError ("fail to sendmessage, " ++ error)
          match o.close with
          | .cms msg => (.threw msg, w, sent)
          | .ok _ =>
              match w.mgr.pool.freePoolItem (some k) with
              | .error e => (.fault e, w, sent)
              | .ok pool => (.returned bSent, { w with mgr.pool := pool }, sent)

/-- `sendmessage` from the test of the session on.
SOURCE: DSAMQProducerPoolMgr.cpp:244-291 -/
def sendTake (w : MgrWorld) (strMessage : String) (o : MgrSendOutcomes) :
    SendResult × MgrWorld × Option Sent :=
  match w.mgr.sessionpool, o.takeSession with
  | none, _ => (.nullSessionPool, w, none)
  | some _, .cms msg =>
      (.returned false, w.setError ("in sendmessage, fail to get session, " ++ msg), none)
  | some _, .ok none =>
      (.returned false, w.setError "in sendmessage, fail to get session, NULL", none)
  | some _, .ok (some session) => w.sendOn session strMessage o

/-- The connection part of `sendmessage`: what it goes on with, and whether it does.
SOURCE: DSAMQProducerPoolMgr.cpp:228-242 -/
def sendConnect (w : MgrWorld) (o : ConnectOutcomes) : Bool × MgrWorld :=
  if w.mgr.bStartedConnection then (true, w) else w.createSessionPool o

/-- `sendmessage`: how it ends, the manager afterwards and the send a session accepted.
SOURCE: DSAMQProducerPoolMgr.cpp:220-292 -/
def sendmessage (w : MgrWorld) (strMessage : String) (o : MgrSendOutcomes) :
    SendResult × MgrWorld × Option Sent :=
  if !w.mgr.pool.isCreated then
    (.returned false, w.setError "fail to sendmessage, not created object pool", none)
  else
    let r := w.sendConnect o.connect
    if r.1 then r.2.sendTake strMessage o else (.returned false, r.2, none)

/-- SOURCE: DSAMQProducerPoolMgr.cpp:215-218 -/
def getlasterror (w : MgrWorld) : String := w.mgr.strError

end MgrWorld

/-- A call on the manager. -/
inductive MgrOp where
  | createPool (c : CreateCall) (alloc : Alloc)
  | createSessionPool (o : ConnectOutcomes)
  | sendmessage (strMessage : String) (o : MgrSendOutcomes)
  | releaseResource

/-- The manager after a call. -/
def MgrOp.exec (w : MgrWorld) : MgrOp → MgrWorld
  | .createPool c alloc => (w.createPool c alloc).2
  | .createSessionPool o => (w.createSessionPool o).2
  | .sendmessage msg o => (w.sendmessage msg o).2.1
  | .releaseResource => w.releaseResource

/-- What a call returns; `none` where it returns nothing, or does not return. -/
def MgrOp.result (w : MgrWorld) : MgrOp → Option Bool
  | .createPool c alloc => some (w.createPool c alloc).1
  | .createSessionPool o => some (w.createSessionPool o).1
  | .sendmessage msg o =>
      match (w.sendmessage msg o).1 with
      | .returned b => some b
      | _ => none
  | .releaseResource => none

/-- Any sequence of calls on one manager. -/
def MgrWorld.machine : Library.Machine MgrWorld MgrOp := ⟨fun w op => some (op.exec w)⟩

end DsAmq.Model
