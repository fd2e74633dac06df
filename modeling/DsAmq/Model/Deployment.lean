import DsAmq.Model.Pipeline
import DsAmq.Model.Process
import DsAmq.Model.StopSystem

/-!
# A program of consumers and its producers

The main thread of a program of consumers calls `StartProcess` and, when that has returned,
`StopProcess`, as the sample program does.  The executor runs the tasks it has accepted on its worker
threads, and there `afterExecute` follows each of them.  The producers of another program send to the
queue at the same time.  Every statement of these functions and every call of a `run` is one step;
the head of the loop of `run` reads the flag of the process.

Of the executor the model knows, beyond what `StopSystem` has of it: it calls `run` on a task that it
has accepted, at any time and once; the task completes when its `run` is over; `shutdownNow` returns
tasks on which it has not called `run`.
-/

set_option autoImplicit false

namespace DsAmq.Model

/-- The producers and the queue, the call of `StartProcess`, the pool with its `afterExecute` calls
and the call of `StopProcess`, and for each task that runs the number of its `run`. -/
structure Deployment where
  pipeline : Pipeline
  starting : StartPc
  pool : StopSystem
  runs : TaskPtr → Option ℕ

/-- A step of the producers or of the main thread in `StartProcess`; a step of the pool; `run` is
called on a task; or the `run` of a task makes a call. -/
inductive DeploymentAction where
  | send (a : SendAction)
  | start (r : PoolReply)
  | pool (a : StopAction)
  | begin (e : ExecutorId) (p : TaskPtr)
  | call (p : TaskPtr) (e : Event)
deriving DecidableEq, Repr

/-- `StartProcess` has returned. -/
def StartPc.hasReturned : StartPc → Bool
  | .returned _ => true
  | _ => false

/-- `execute` throws `NullPointerException`. -/
def PoolReply.nullTask : PoolReply → Bool
  | .execute (.nullPointer _) => true
  | _ => false

namespace Deployment

/-- `StartProcess` is about to be called. -/
def init (w : MgrWorld) (modes : SessionId → Destination → DeliveryMode) (v : PoolWorld) :
    Deployment :=
  ⟨.init w modes, .testEmpty, .init v, fun _ => none⟩

/-- The `run` of the task at `p` is over. -/
def isOver (s : Deployment) (p : TaskPtr) : Bool :=
  match s.runs p with
  | some t => s.pipeline.world.tasks[t]?.any Run.ended
  | none => false

/-- The pool can make the step: a task completes after its `run`; `StopProcess` comes after
`StartProcess`, and gets back tasks on which `run` was not called. -/
def permits (s : Deployment) : StopAction → Bool
  | .complete _ p => s.isOver p
  | .after _ _ => true
  | .stop r => s.starting.hasReturned && r.tasks.all fun p => (s.runs p).isNone

/-- The runs after a step of the pool. -/
def runsAfter (s : Deployment) : StopAction → TaskPtr → Option ℕ
  | .complete _ p => fun q => if q = p then none else s.runs q
  | _ => s.runs

/-- One step, for the queue `uri` and the arguments `a` of `StartProcess`. -/
def step (uri : String) (a : StartArgs) (s : Deployment) : DeploymentAction → Option Deployment
  | .send x => (s.pipeline.step uri (.send x)).map fun q => { s with pipeline := q }
  | .start r =>
      if r.nullTask then none
      else
        (s.starting.step a s.pool.world r).map fun x =>
          { s with starting := x.2, pool := { s.pool with world := x.1 } }
  | .pool x =>
      if s.permits x then
        (s.pool.step x).map fun pool => { s with pool := pool, runs := s.runsAfter x }
      else none
  | .begin e p =>
      if s.pool.world.accepted.contains (e, p) && (s.runs p).isNone then
        (s.pool.world.heap p).bind fun c =>
          (s.pipeline.world.step (.spawn c)).map fun world =>
            { s with
              pipeline := { s.pipeline with world := world }
              runs := fun q => if q = p then some s.pipeline.world.tasks.length else s.runs q }
      else none
  | .call p e =>
      if e.isTest && !decide (e = .isrun s.pool.world.isrun) then none
      else
        (s.runs p).bind fun t =>
          (s.pipeline.world.step (.act t e)).map fun world =>
            { s with pipeline := { s.pipeline with world := world } }

/-- All interleavings. -/
def machine (uri : String) (a : StartArgs) : Library.Machine Deployment DeploymentAction :=
  ⟨step uri a⟩

end Deployment

end DsAmq.Model
