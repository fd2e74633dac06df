import DsAmq.Model.PoolSystem

/-!
# `StopProcess`, statement by statement

`StopProcess` runs on a thread of the program while tasks complete and their `afterExecute` calls
run on the worker threads of the executor.  Every library call and every statement on the members
is one step.

Of the executor the model knows what `ExecutorService.h` and `Executor.h` say of it: after
`shutdown` no new task is accepted; `awaitTermination` returns true when the executor has been shut
down and all its tasks have completed, and may also time out or be interrupted; `shutdownNow`
returns tasks that did not get executed, which the executor forgets; `execute` throws
`NullPointerException` on NULL only.
-/

set_option autoImplicit false

namespace DsAmq.Model

/-- How `awaitTermination` ends: with true, with false, or with `InterruptedException`. -/
inductive AwaitOutcome where
  | terminated
  | timedOut
  | interrupted (message : String)
deriving DecidableEq, Repr

/-- What a step of `StopProcess` learns from outside: nothing, how `awaitTermination` ended, or the
tasks that `shutdownNow` returns. -/
inductive StopReply where
  | tau
  | awaited (o : AwaitOutcome)
  | notExecuted (ps : List TaskPtr)
deriving DecidableEq, Repr

/-- The statements of `StopProcess`, in the order of the source. -/
inductive StopPc where
  | stop
  | testPool
  | shutdown
  | stopAgain
  | awaitTermination
  | shutdownNow
  | awaitAgain
  | deletePool
  | nullPool
  | clear
  | testResourcemgr
  | deleteResourcemgr
  | resetSessionpool
  | returned
deriving DecidableEq, Repr

namespace PoolWorld

/-- `CDSAMQStopper::instance()->stop()` -/
def stopFlag (w : PoolWorld) : PoolWorld := { w with isrun := false }

/-- `m_threadPool->shutdown()` -/
def shutdown (w : PoolWorld) : PoolWorld :=
  match w.pool.threadPool with
  | some e =>
      { w with executors := w.executors.modify e fun x => { x with isShutdown := true } }
  | none => w

/-- `delete m_threadPool` -/
def deletePool (w : PoolWorld) : PoolWorld :=
  match w.pool.threadPool with
  | some e => { w with executors := w.executors.modify e fun x => { x with deleted := true } }
  | none => w

/-- The tasks of `m_threadPool` that have not completed. -/
def running (w : PoolWorld) : List TaskPtr :=
  match w.pool.threadPool with
  | some e => (w.accepted.filter fun x => x.1 = e).map Prod.snd
  | none => []

/-- `m_threadPool->shutdownNow()`, when it returns `ps`. -/
def shutdownNow (w : PoolWorld) (ps : List TaskPtr) : PoolWorld :=
  { w.shutdown with
    accepted := w.accepted.filter fun x => ¬ (w.pool.threadPool = some x.1 ∧ x.2 ∈ ps) }

/-- `delete m_resourcemgr`.  The pointer is set where it is called. -/
def deleteResourcemgr (w : PoolWorld) : PoolWorld :=
  match w.pool.resourcemgr with
  | some g => { w with cms := w.cms.deleteResourcemgr g }
  | none => w

/-- `m_threadPool` points to an executor that has been deleted. -/
def dangling (w : PoolWorld) : Bool :=
  match w.pool.threadPool with
  | some e => w.executors[e]?.any fun x => x.deleted
  | none => false

end PoolWorld

/-- One statement of `StopProcess`.  The messages that are printed are left out, and so is what
`shutdownNow` returns after it has been thrown away.
SOURCE: DSAMQConsumerPool.h:276-317 -/
def StopPc.step (w : PoolWorld) : StopPc → StopReply → Option (PoolWorld × StopPc)
  | .stop, .tau => some (w.stopFlag, .testPool)
  | .testPool, .tau => some (w, if w.pool.threadPool.isSome then .shutdown else .clear)
  | .shutdown, .tau => some (w.shutdown, .stopAgain)
  | .stopAgain, .tau => some (w.stopFlag, .awaitTermination)
  | .awaitTermination, .awaited .timedOut => some (w, .shutdownNow)
  | .awaitTermination, .awaited _ => some (w, .deletePool)
  | .shutdownNow, .notExecuted ps =>
      if ps.Nodup ∧ ∀ p ∈ ps, p ∈ w.running then some (w.shutdownNow ps, .awaitAgain) else none
  | .awaitAgain, .awaited _ => some (w, .deletePool)
  | .deletePool, .tau => some (w.deletePool, .nullPool)
  | .nullPool, .tau => some ({ w with pool.threadPool := none }, .clear)
  | .clear, .tau => some ({ w with pool.sTask := ∅ }, .testResourcemgr)
  | .testResourcemgr, .tau =>
      some (w, if w.pool.resourcemgr.isSome then .deleteResourcemgr else .resetSessionpool)
  | .deleteResourcemgr, .tau => some (w.deleteResourcemgr, .resetSessionpool)
  | .resetSessionpool, .tau => some ({ w with pool.sessionpool := none }, .returned)
  | _, _ => none

/-- The world, the `afterExecute` calls in the order in which they began, the call of
`StopProcess`, and the tasks that `shutdownNow` has returned. -/
structure StopSystem where
  world : PoolWorld
  afters : List AfterCall
  stop : StopPc
  dropped : List TaskPtr

/-- A task completes, or an `afterExecute` call or `StopProcess` makes a step. -/
inductive StopAction where
  | complete (e : ExecutorId) (p : TaskPtr)
  | after (j : ℕ) (r : PoolReply)
  | stop (r : StopReply)
deriving DecidableEq, Repr

/-- The tasks that a step of `StopProcess` is given. -/
def StopReply.tasks : StopReply → List TaskPtr
  | .notExecuted ps => ps
  | _ => []

namespace StopSystem

/-- `StopProcess` is about to begin. -/
def init (w : PoolWorld) : StopSystem := ⟨w, [], .stop, []⟩

/-- All tasks of the executor have completed, and their `afterExecute` calls have ended. -/
def isTerminated (s : StopSystem) : Bool :=
  s.world.running.isEmpty && s.afters.all fun c => decide (c.pc = .ended)

/-- What the executor answers. -/
def answers (s : StopSystem) : StopAction → Bool
  | .after _ (.execute .ok) => s.world.isOpen
  | .after _ (.execute (.nullPointer _)) => false
  | .stop (.awaited .terminated) => s.isTerminated
  | _ => true

/-- One step of the system. -/
def step (s : StopSystem) (a : StopAction) : Option StopSystem :=
  if s.answers a = false then none
  else
    match a with
    | .complete e p =>
        (s.world.complete e p).map fun w =>
          { s with world := w, afters := s.afters ++ [⟨p, .testOpen⟩] }
    | .after j r =>
        match s.afters[j]? with
        | none => none
        | some c =>
            (c.pc.step c.task s.world r).map fun (w, pc) =>
              { s with world := w, afters := s.afters.set j { c with pc := pc } }
    | .stop r =>
        (s.stop.step s.world r).map fun (w, pc) =>
          { s with world := w, stop := pc, dropped := s.dropped ++ r.tasks }

/-- All interleavings. -/
def machine : Library.Machine StopSystem StopAction := ⟨step⟩

/-- An `afterExecute` call is about to use an executor that is not there: to ask it whether it is
shut down, after the test for NULL, or to call `execute` on it. -/
def badAccess (s : StopSystem) : Bool :=
  s.afters.any fun c =>
    match c.pc with
    | .testOpen => s.world.dangling
    | .execute _ => s.world.dangling || s.world.pool.threadPool.isNone
    | _ => false

end StopSystem

end DsAmq.Model
