import Mathlib.Data.Finset.Insert
import Mathlib.Data.Finset.Erase
import DsAmq.Model.Consumer

/-!
# `CDSAMQConsumerPool`, call by call

The static data members of the pool of consumer tasks, and `StartProcess`, `StopProcess` and
`afterExecute` as whole calls; the outcomes of the library calls they make are arguments.

A `CDSAMQConsumer*` is an address.  `new` returns any address at which no task lives, so that the
address of a deleted task may come back.  Of `ThreadPoolExecutor` the model knows what its header
says: the constructor throws `IllegalArgumentException` on a size that is not positive, `execute`
accepts the task or throws, the `AbortPolicy` deletes a task it rejects, `afterExecute` is called
once for each completed task, which is deleted after that.
-/

set_option autoImplicit false

namespace DsAmq.Model

/-- The address of a task object. -/
abbrev TaskPtr := ℕ

/-- A `CDSAMQConsumerPool` object, which is a `ThreadPoolExecutor`. -/
abbrev ExecutorId := ℕ

/-- The arguments of `StartProcess`.
SOURCE: DSAMQConsumerPool.h:162-168 -/
structure StartArgs where
  brokerURI : String
  destURI : String
  useTopic : Bool
  clientAck : Bool
  nTimeout : ℤ
  nPoolSize : ℤ
deriving DecidableEq, Repr

/-- The size that is asked for, at most 50.
SOURCE: DSAMQConsumerPool.h:186-188 -/
def StartArgs.nsize (a : StartArgs) : ℤ := if a.nPoolSize > 50 then 50 else a.nPoolSize

/-- The static data members of `CDSAMQConsumerPool`.
SOURCE: DSAMQConsumerPool.h:89-100 -/
structure ConsumerPool where
  sTask : Finset TaskPtr
  threadPool : Option ExecutorId
  strBrokerURI : String
  strDestURI : String
  bUseTopic : Bool
  bClientAck : Bool
  nTimeout : ℤ
  resourcemgr : Option ResourcemgrId
  sessionpool : Option SessionPool
  connection : Option ConnectionId
  nextTaskid : ℤ
deriving DecidableEq

/-- SOURCE: DSAMQConsumerPool.h:103-113 -/
def ConsumerPool.init : ConsumerPool :=
  ⟨∅, none, "", "", false, true, 3000, none, none, none, 0⟩

/-- What a `ThreadPoolExecutor` tells about itself. -/
structure Executor where
  isShutdown : Bool
  deleted : Bool
deriving DecidableEq, Repr

/-- How `execute` ends. -/
inductive ExecuteOutcome where
  | ok
  | nullPointer (message : String)
  | rejected (message : String)
deriving DecidableEq, Repr

/-- What the cast to `ActiveMQConnection` and `getRedeliveryPolicy` give: another kind of
connection, no policy, or a policy. -/
inductive Redelivery where
  | otherConnection
  | nullPolicy
  | policy
deriving DecidableEq, Repr

/-- The outcomes of the library calls of `StartProcess`, in their order: for the `i`-th task the
address that `new` returns and how `execute` ends. -/
structure StartOutcomes where
  createConnection : Outcome Unit
  redelivery : Redelivery
  start : Outcome Unit
  addConnection : Outcome Unit
  newExecutor : Option String
  address : ℕ → TaskPtr
  execute : ℕ → ExecuteOutcome

/-- The pool together with the objects of the process it works on: connections, executors, the
tasks that were accepted by an executor and have not completed, the tasks that live, and the flag
of `CDSAMQStopper`. -/
structure PoolWorld where
  pool : ConsumerPool
  cms : Cms
  executors : List Executor
  accepted : List (ExecutorId × TaskPtr)
  heap : TaskPtr → Option Consumer
  isrun : Bool

namespace PoolWorld

/-- The start of the process. -/
def new : PoolWorld := ⟨.init, .init, [], [], fun _ => none, true⟩

/-! ## The statements on the members -/

/-- `m_connection = factory->createConnection()`, when it returns. -/
def createConnection (w : PoolWorld) : PoolWorld :=
  { w with
    pool.connection := some w.cms.createConnection.1
    cms := w.cms.createConnection.2 }

/-- `m_resourcemgr = new ResourceLifecycleManager()` -/
def newResourcemgr (w : PoolWorld) : PoolWorld :=
  { w with
    pool.resourcemgr := some w.cms.newResourcemgr.1
    cms := w.cms.newResourcemgr.2 }

/-- `m_resourcemgr->addConnection(m_connection)`, when it returns.  Both members are set where it
is called. -/
def addConnection (w : PoolWorld) : PoolWorld :=
  match w.pool.resourcemgr, w.pool.connection with
  | some g, some k => { w with cms := w.cms.addConnection g k }
  | _, _ => w

/-- `m_sessionpool.reset(new SessionPool(m_connection, mode, m_resourcemgr))`.  Both members are
set where it is called. -/
def resetSessionpool (w : PoolWorld) : PoolWorld :=
  match w.pool.connection, w.pool.resourcemgr with
  | some k, some g =>
      { w with pool.sessionpool := some ⟨k, AcknowledgeMode.select w.pool.bClientAck, g⟩ }
  | _, _ => w

/-- `m_threadPool = new CDSAMQConsumerPool(…)`, when it returns. -/
def newExecutor (w : PoolWorld) : PoolWorld :=
  { w with
    pool.threadPool := some w.executors.length
    executors := w.executors ++ [⟨false, false⟩] }

/-- `new CLS(m_sessionpool, m_strDestURI, id, m_bUseTopic, m_bClientAck, m_nTimeout)` at the
address `p`. -/
def newTask (w : PoolWorld) (p : TaskPtr) (id : ℤ) : PoolWorld :=
  let task := Consumer.new w.pool.strDestURI id w.pool.bUseTopic w.pool.bClientAck w.pool.nTimeout
  { w with heap := fun q => if q = p then some task else w.heap q }

/-- `delete task` -/
def deleteTask (w : PoolWorld) (p : TaskPtr) : PoolWorld :=
  { w with heap := fun q => if q = p then none else w.heap q }

/-- `m_sTask.insert(task)` -/
def insertTask (w : PoolWorld) (p : TaskPtr) : PoolWorld :=
  { w with pool.sTask := insert p w.pool.sTask }

/-- `m_sTask.erase(iter)` -/
def eraseTask (w : PoolWorld) (p : TaskPtr) : PoolWorld :=
  { w with pool.sTask := w.pool.sTask.erase p }

/-- `m_threadPool->execute(task)`: the task is accepted, or the call throws, and a rejected task
is deleted.  The pointer is set where it is called. -/
def execute (w : PoolWorld) (p : TaskPtr) : ExecuteOutcome → PoolWorld
  | .ok =>
      match w.pool.threadPool with
      | some e => { w with accepted := w.accepted ++ [(e, p)] }
      | none => w
  | .nullPointer _ => w
  | .rejected _ => w.deleteTask p

/-- `m_threadPool && !m_threadPool->isShutdown()` -/
def isOpen (w : PoolWorld) : Bool :=
  match w.pool.threadPool with
  | some e =>
      match w.executors[e]? with
      | some x => !x.isShutdown
      | none => false
  | none => false

/-- SOURCE: DSAMQConsumerPool.h:179-184 -/
def setMembers (w : PoolWorld) (a : StartArgs) : PoolWorld :=
  { w with
    pool.strBrokerURI := a.brokerURI
    pool.strDestURI := a.destURI
    pool.bUseTopic := a.useTopic
    pool.bClientAck := a.clientAck
    pool.nTimeout := a.nTimeout }

/-! ## `StartProcess` -/

/-- How a call ends: the result and `rstrError`, if it is written. -/
structure StartResult where
  result : Bool
  rstrError : Option String
deriving DecidableEq, Repr

/-- The loop that submits the tasks, from `i` on with `k` to go; `none` where `new` would have to
return an address that is in use.
SOURCE: DSAMQConsumerPool.h:233-266 -/
def submit (o : StartOutcomes) : ℕ → ℕ → PoolWorld → Option (StartResult × PoolWorld)
  | _, 0, w => some (⟨true, none⟩, w)
  | i, k + 1, w =>
      if (w.heap (o.address i)).isSome then none
      else
        let w := ((w.newTask (o.address i) i).insertTask (o.address i)).execute (o.address i)
          (o.execute i)
        match o.execute i with
        | .ok => submit o (i + 1) k w
        | .nullPointer msg => some (⟨false, some ("NullPointerException exception, " ++ msg)⟩, w)
        | .rejected msg => some (⟨false, some ("RejectedExecutionException exception, " ++ msg)⟩, w)

/-- The constructor of the executor throws: on a size that is not positive, or as it is told. -/
def illegalArgument (nsize : ℤ) (o : StartOutcomes) : Option String :=
  if nsize ≤ 0 then some (o.newExecutor.getD "") else o.newExecutor

/-- `StartProcess` from the session pool on.
SOURCE: DSAMQConsumerPool.h:230-273 -/
def startTasks (w : PoolWorld) (nsize : ℤ) (o : StartOutcomes) :
    Option (StartResult × PoolWorld) :=
  let w := w.resetSessionpool
  match illegalArgument nsize o with
  | some msg => some (⟨false, some ("Illegalargument exception, " ++ msg)⟩, w)
  | none =>
      match submit o 0 nsize.toNat w.newExecutor with
      | some (⟨true, e⟩, w) => some (⟨true, e⟩, { w with pool.nextTaskid := nsize })
      | r => r

/-- `StartProcess`.
SOURCE: DSAMQConsumerPool.h:162-274 -/
def startProcess (w : PoolWorld) (a : StartArgs) (o : StartOutcomes) :
    Option (StartResult × PoolWorld) :=
  if w.pool.sTask ≠ ∅ then some (⟨true, none⟩, w)
  else if a.brokerURI.isEmpty || a.destURI.isEmpty then
    some (⟨false, some "fail to StartProcess, broker URI or destination URI empty"⟩, w)
  else
    let w := w.setMembers a
    match o.createConnection with
    | .cms msg => some (⟨false, some ("exception, " ++ msg)⟩, w)
    | .ok _ =>
        let w := w.createConnection
        if o.redelivery = .nullPolicy then
          some (⟨false, some "fail to StartProcess, get redelivery policy object null"⟩, w)
        else
          match o.start with
          | .cms msg => some (⟨false, some ("exception, " ++ msg)⟩, w)
          | .ok _ =>
              let w := w.newResourcemgr
              match o.addConnection with
              | .cms msg => some (⟨false, some ("exception, " ++ msg)⟩, w)
              | .ok _ => w.addConnection.startTasks a.nsize o

/-! ## `StopProcess` -/

/-- `m_threadPool->shutdown(); …; delete m_threadPool; m_threadPool = NULL;`  The tasks of the
executor have ended when it is deleted; the waiting and the messages that are printed are left out.
SOURCE: DSAMQConsumerPool.h:282-309 -/
def stopExecutor (w : PoolWorld) : PoolWorld :=
  match w.pool.threadPool with
  | some e =>
      { w with
        pool.threadPool := none
        executors := w.executors.set e ⟨true, true⟩
        accepted := w.accepted.filter fun x => x.1 ≠ e
        heap := fun p => if (e, p) ∈ w.accepted then none else w.heap p }
  | none => w

/-- `StopProcess`.  `m_resourcemgr` and `m_connection` keep their values.
SOURCE: DSAMQConsumerPool.h:276-317 -/
def stopProcess (w : PoolWorld) : PoolWorld :=
  let w := { w with isrun := false }.stopExecutor
  let w := { w with pool.sTask := ∅ }
  let w :=
    match w.pool.resourcemgr with
    | some g => { w with cms := w.cms.deleteResourcemgr g }
    | none => w
  { w with pool.sessionpool := none }

/-! ## `afterExecute` -/

/-- The executor `e` has completed the task at `p`, which it had accepted. -/
def complete (w : PoolWorld) (e : ExecutorId) (p : TaskPtr) : Option PoolWorld :=
  if (e, p) ∈ w.accepted then some { w with accepted := w.accepted.erase (e, p) } else none

/-- The task at `p` completes: `afterExecute` takes it out of the set and puts a new one, at the
address `q`, in its place; then the executor deletes the task.  The exception that the task may
have ended with is tested and makes no difference.
SOURCE: DSAMQConsumerPool.h:319-378 -/
def afterExecute (w : PoolWorld) (e : ExecutorId) (p q : TaskPtr) (o : ExecuteOutcome) :
    Option PoolWorld :=
  match w.complete e p with
  | none => none
  | some w =>
      if w.isOpen && p ∈ w.pool.sTask then
        if (w.heap q).isSome then none
        else
          let w := (w.eraseTask p).newTask q w.pool.nextTaskid
          let w := { w with pool.nextTaskid := w.pool.nextTaskid + 1 }
          some (((w.insertTask q).execute q o).deleteTask p)
      else some (w.deleteTask p)

end PoolWorld

/-- A call of `StartProcess` or `StopProcess`, or the completion of a task. -/
inductive PoolOp where
  | start (a : StartArgs) (o : StartOutcomes)
  | stop
  | complete (e : ExecutorId) (p q : TaskPtr) (o : ExecuteOutcome)

/-- The world after an operation. -/
def PoolOp.exec (w : PoolWorld) : PoolOp → Option PoolWorld
  | .start a o => (w.startProcess a o).map (·.2)
  | .stop => some w.stopProcess
  | .complete e p q o => w.afterExecute e p q o

/-- Any sequence of calls, with completions of tasks in between. -/
def PoolWorld.machine : Library.Machine PoolWorld PoolOp := ⟨fun w op => op.exec w⟩

end DsAmq.Model
