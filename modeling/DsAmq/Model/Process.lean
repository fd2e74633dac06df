import Mathlib.Logic.Function.Basic
import DsAmq.Model.ConsumerPool

/-!
# A process with several consumer pools

`CDSAMQConsumerPool` is a template: every task class has its own static data members, its own
executors and its own connections.  What the pools of a process share is the memory, in which all
tasks live, and the flag of `CDSAMQStopper`, which is one object.  `Process ι` is a process with
one pool for each task class in `ι`, and its steps are the calls on the pools, as whole calls, and
the single calls that the `run` of every task makes.
-/

set_option autoImplicit false

namespace DsAmq.Model

/-- What belongs to the pool of one task class: the static data members, the connections and the
executors, which are named within the pool, the tasks that were accepted and have not completed,
and the runs of these that have begun. -/
structure PoolPart where
  pool : ConsumerPool
  cms : Cms
  executors : List Executor
  accepted : List (ExecutorId × TaskPtr)
  runs : TaskPtr → Option Run

/-- The start of the process. -/
def PoolPart.init : PoolPart := ⟨.init, .init, [], [], fun _ => none⟩

/-- The tasks that were accepted and have not completed. -/
def PoolPart.tasks (x : PoolPart) : List TaskPtr := x.accepted.map Prod.snd

/-- The pools of the task classes `ι`, the memory, and `m_bRunning` of the one `CDSAMQStopper`,
which `instance` creates and nobody releases.
SOURCE: DSAMQStopper.h:6-34, DSRTSingleton.h:13-45 -/
structure Process (ι : Type) where
  parts : ι → PoolPart
  heap : TaskPtr → Option Consumer
  isrun : Bool

/-- A call on the pool of a task class, or the completion of one of its tasks; or an executor calls
`run` on a task; or that `run` makes a call, of which the test of the flag at the head of its loop
is one. -/
inductive ProcessAction (ι : Type) where
  | op (A : ι) (op : PoolOp)
  | begin (A : ι) (p : TaskPtr)
  | call (A : ι) (p : TaskPtr) (e : Event)
  | test (A : ι) (p : TaskPtr)

/-- The task class that the action belongs to. -/
def ProcessAction.owner {ι : Type} : ProcessAction ι → ι
  | .op A _ | .begin A _ | .call A _ _ | .test A _ => A

/-- The run is over. -/
def Run.ended (r : Run) : Bool := decide (r.pc = .returned) || decide (r.pc = .threw)

/-- The event is a test of the flag. -/
def Event.isTest : Event → Bool
  | .isrun _ => true
  | _ => false

/-- The executor completes a task when its `run` is over.  The calls can be made at any time. -/
def PoolOp.ready (runs : TaskPtr → Option Run) : PoolOp → Bool
  | .complete _ p _ _ => (runs p).any Run.ended
  | _ => true

namespace Process

variable {ι : Type}

/-- The start of the process. -/
def init : Process ι := ⟨fun _ => .init, fun _ => none, true⟩

/-- What the calls on one pool work on. -/
def world (s : Process ι) (A : ι) : PoolWorld where
  pool := (s.parts A).pool
  cms := (s.parts A).cms
  executors := (s.parts A).executors
  accepted := (s.parts A).accepted
  heap := s.heap
  isrun := s.isrun

variable [DecidableEq ι]

/-- After a call that left `w`.  The tasks that are still there go on with their runs. -/
def put (s : Process ι) (A : ι) (w : PoolWorld) : Process ι where
  parts := Function.update s.parts A
    { pool := w.pool
      cms := w.cms
      executors := w.executors
      accepted := w.accepted
      runs := fun p => if p ∈ w.accepted.map Prod.snd then (s.parts A).runs p else none }
  heap := w.heap
  isrun := w.isrun

/-- After a call of the `run` of the task at `p`. -/
def setRun (s : Process ι) (A : ι) (p : TaskPtr) (r : Run) : Process ι :=
  { s with
    parts := Function.update s.parts A
      { s.parts A with runs := fun q => if q = p then some r else (s.parts A).runs q } }

/-- One step of the process.  The head of the loop of `run` reads the flag of the process.
SOURCE: DSAMQConsumerPool.h:162-378, DSAMQConsumer.h:158-237 -/
def step (s : Process ι) : ProcessAction ι → Option (Process ι)
  | .op A op =>
      if op.ready (s.parts A).runs then (op.exec (s.world A)).map (s.put A) else none
  | .begin A p =>
      if p ∈ (s.parts A).tasks ∧ ((s.parts A).runs p).isNone then
        (s.heap p).map fun c => s.setRun A p (Run.start c)
      else none
  | .call A p e =>
      if e.isTest then none
      else ((s.parts A).runs p).bind fun r => (r.step e).map (s.setRun A p)
  | .test A p => ((s.parts A).runs p).bind fun r => (r.step (.isrun s.isrun)).map (s.setRun A p)

/-- All interleavings. -/
def machine : Library.Machine (Process ι) (ProcessAction ι) := ⟨step⟩

end Process

end DsAmq.Model
