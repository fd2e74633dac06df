import DsAmq.Model.ConsumerPool

/-!
# `StartProcess` and `afterExecute`, statement by statement

`StartProcess` calls run on the threads of the program, `afterExecute` calls on the worker threads
of the executor, and nothing keeps them apart.  Every read or write of `m_sTask`, every library
call and every other statement on the members is one step; the assignments of lines 179-184 are
one.  A task that completes begins an `afterExecute` call; when that has ended, the executor
deletes the task.
-/

set_option autoImplicit false

namespace DsAmq.Model

/-- What a step learns from outside: nothing, how a library call ended, what the redelivery policy
is, whether the constructor of the executor throws, the address that `new` returns, or how
`execute` ended. -/
inductive PoolReply where
  | tau
  | call (o : Outcome Unit)
  | redelivery (x : Redelivery)
  | executor (x : Option String)
  | address (p : TaskPtr)
  | execute (o : ExecuteOutcome)
deriving DecidableEq, Repr

/-- The statements of `StartProcess`, in the order of the source. -/
inductive StartPc where
  | testEmpty
  | testURI
  | setMembers
  | createConnection
  | redelivery
  | start
  | newResourcemgr
  | addConnection
  | resetSessionpool
  | newExecutor
  | loop (i : ℕ)
  | insert (i : ℕ) (p : TaskPtr)
  | execute (i : ℕ) (p : TaskPtr)
  | setNext
  | returned (r : PoolWorld.StartResult)
deriving DecidableEq, Repr

/-- The statements of `afterExecute`, and the deletion of the task by the executor after it. -/
inductive AfterPc where
  | testOpen
  | find
  | erase
  | new
  | insert (q : TaskPtr)
  | execute (q : TaskPtr)
  | delete
  | ended
deriving DecidableEq, Repr

/-- A call of `StartProcess`. -/
structure StartCall where
  args : StartArgs
  pc : StartPc
deriving DecidableEq, Repr

/-- A call of `afterExecute` for the completed task. -/
structure AfterCall where
  task : TaskPtr
  pc : AfterPc
deriving DecidableEq, Repr

/-- The return of `StartProcess` with an error. -/
def StartPc.fail (e : String) : StartPc := .returned ⟨false, some e⟩

/-- One statement of `StartProcess`.
SOURCE: DSAMQConsumerPool.h:162-274 -/
def StartPc.step (a : StartArgs) (w : PoolWorld) :
    StartPc → PoolReply → Option (PoolWorld × StartPc)
  | .testEmpty, .tau =>
      some (w, if w.pool.sTask ≠ ∅ then .returned ⟨true, none⟩ else .testURI)
  | .testURI, .tau =>
      some (w, if a.brokerURI.isEmpty || a.destURI.isEmpty then
        .fail "fail to StartProcess, broker URI or destination URI empty" else .setMembers)
  | .setMembers, .tau => some (w.setMembers a, .createConnection)
  | .createConnection, .call (.ok _) => some (w.createConnection, .redelivery)
  | .createConnection, .call (.cms msg) => some (w, .fail ("exception, " ++ msg))
  | .redelivery, .redelivery x =>
      some (w, if x = .nullPolicy then
        .fail "fail to StartProcess, get redelivery policy object null" else .start)
  | .start, .call (.ok _) => some (w, .newResourcemgr)
  | .start, .call (.cms msg) => some (w, .fail ("exception, " ++ msg))
  | .newResourcemgr, .tau => some (w.newResourcemgr, .addConnection)
  | .addConnection, .call (.ok _) => some (w.addConnection, .resetSessionpool)
  | .addConnection, .call (.cms msg) => some (w, .fail ("exception, " ++ msg))
  | .resetSessionpool, .tau => some (w.resetSessionpool, .newExecutor)
  | .newExecutor, .executor x =>
      if a.nsize ≤ 0 then some (w, .fail ("Illegalargument exception, " ++ x.getD ""))
      else
        match x with
        | some msg => some (w, .fail ("Illegalargument exception, " ++ msg))
        | none => some (w.newExecutor, .loop 0)
  | .loop i, .tau => if (i : ℤ) < a.nsize then none else some (w, .setNext)
  | .loop i, .address p =>
      if (i : ℤ) < a.nsize ∧ (w.heap p).isNone then some (w.newTask p i, .insert i p) else none
  | .insert i p, .tau => some (w.insertTask p, .execute i p)
  | .execute i p, .execute .ok => some (w.execute p .ok, .loop (i + 1))
  | .execute _ p, .execute (.nullPointer msg) =>
      some (w.execute p (.nullPointer msg), .fail ("NullPointerException exception, " ++ msg))
  | .execute _ p, .execute (.rejected msg) =>
      some (w.execute p (.rejected msg), .fail ("RejectedExecutionException exception, " ++ msg))
  | .setNext, .tau => some ({ w with pool.nextTaskid := a.nsize }, .returned ⟨true, none⟩)
  | _, _ => none

/-- One statement of `afterExecute` for the task at `p`.  The exception that the task may have
ended with is tested and makes no difference.
SOURCE: DSAMQConsumerPool.h:319-378 -/
def AfterPc.step (p : TaskPtr) (w : PoolWorld) :
    AfterPc → PoolReply → Option (PoolWorld × AfterPc)
  | .testOpen, .tau => some (w, if w.isOpen then .find else .delete)
  | .find, .tau => some (w, if p ∈ w.pool.sTask then .erase else .delete)
  | .erase, .tau => some (w.eraseTask p, .new)
  | .new, .address q =>
      if (w.heap q).isNone then
        some ({ w.newTask q w.pool.nextTaskid with pool.nextTaskid := w.pool.nextTaskid + 1 },
          .insert q)
      else none
  | .insert q, .tau => some (w.insertTask q, .execute q)
  | .execute q, .execute o => some (w.execute q o, .delete)
  | .delete, .tau => some (w.deleteTask p, .ended)
  | _, _ => none

/-- The world, the `StartProcess` calls and the `afterExecute` calls, each in the order in which
they began. -/
structure PoolSystem where
  world : PoolWorld
  starts : List StartCall
  afters : List AfterCall

/-- A `StartProcess` call begins or makes a step; a task completes; an `afterExecute` call makes a
step; the executor is shut down. -/
inductive PoolAction where
  | begin (a : StartArgs)
  | start (t : ℕ) (r : PoolReply)
  | complete (e : ExecutorId) (p : TaskPtr)
  | after (j : ℕ) (r : PoolReply)
  | shutdown (e : ExecutorId)
deriving DecidableEq, Repr

namespace PoolSystem

/-- One call of `StartProcess` is about to begin. -/
def init (w : PoolWorld) (a : StartArgs) : PoolSystem := ⟨w, [⟨a, .testEmpty⟩], []⟩

/-- One step of the system. -/
def step (s : PoolSystem) : PoolAction → Option PoolSystem
  | .begin a => some { s with starts := s.starts ++ [⟨a, .testEmpty⟩] }
  | .start t r =>
      match s.starts[t]? with
      | none => none
      | some c =>
          (c.pc.step c.args s.world r).map fun (w, pc) =>
            { s with world := w, starts := s.starts.set t { c with pc := pc } }
  | .complete e p =>
      (s.world.complete e p).map fun w =>
        { s with world := w, afters := s.afters ++ [⟨p, .testOpen⟩] }
  | .after j r =>
      match s.afters[j]? with
      | none => none
      | some c =>
          (c.pc.step c.task s.world r).map fun (w, pc) =>
            { s with world := w, afters := s.afters.set j { c with pc := pc } }
  | .shutdown e =>
      match s.world.executors[e]? with
      | none => none
      | some x =>
          some { s with world := { s.world with
            executors := s.world.executors.set e { x with isShutdown := true } } }

/-- All interleavings. -/
def machine : Library.Machine PoolSystem PoolAction := ⟨step⟩

end PoolSystem

end DsAmq.Model
