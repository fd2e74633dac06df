import DsAmq.Analysis.StopSteps
import DsAmq.Library.Progress

/-!
# `StopProcess` stops the pool cleanly

`PoolWorld.stopProcess` is the call as one step, in which the tasks are gone when the executor is
deleted.  The call as it is runs statement by statement, while the tasks complete and their
`afterExecute` calls look at the pool, erase, make new tasks and hand them over.  If the waits are
not interrupted and the executor terminates in time, every interleaving ends in the world that the
one step gives (`stopProcess_refines`), but for the tasks that `shutdownNow` returned, which nobody
deletes; and on the way no `afterExecute` call comes upon an executor that is gone.
-/

set_option autoImplicit false

namespace DsAmq.Analysis

open DsAmq.Model DsAmq.Library

variable {w w' : PoolWorld} {s : StopSystem} {S : Finset TaskPtr}

/-! ## The executor -/

/-- `m_threadPool` is NULL or an executor that is not shut down. -/
def NullOrOpen (w : PoolWorld) : Prop := w.pool.threadPool = none ∨ Open w

theorem NullOrOpen.of_eq (h : NullOrOpen w) (he : w'.pool.threadPool = w.pool.threadPool)
    (hx : w'.executors = w.executors) : NullOrOpen w' := by
  rcases h with hnone | hopen
  · exact Or.inl (he.trans hnone)
  · exact Or.inr (hopen.of_eq he hx)

/-- **The step lemma**: only `StartProcess` makes an executor, and only `StopProcess` shuts one
down, which leaves NULL. -/
theorem nullOrOpen_exec {op : PoolOp} (h : NullOrOpen w ∧ ∃ S, Registered w S [] [])
    (hop : op.exec w = some w') : NullOrOpen w' ∧ ∃ S, Registered w' S [] [] := by
  obtain ⟨h, S, hreg⟩ := h
  refine ⟨?_, registered_exec hreg hop⟩
  cases op with
  | start a o =>
      obtain ⟨⟨r, w''⟩, hstart, rfl⟩ := Option.map_eq_some_iff.mp hop
      cases startProcess_cases hstart with
      | already hne => exact h
      | failed hempty hloop hr hsame => exact h.of_eq hsame.threadPool hsame.executors
      | loop hloop hsame₁ hsub hsame₂ =>
          have hnew := (registered_newExecutor hreg (sTask_of_reachesLoop hloop) hsame₁).1
          obtain ⟨he, hx, -⟩ := submit_cases hnew rfl hsub
          right
          exact open_newExecutor.of_eq (hsame₂.threadPool.trans he) (hsame₂.executors.trans hx)
  | stop =>
      cases hop
      left
      simp only [PoolWorld.stopProcess, PoolWorld.stopExecutor]
      cases he : w.pool.threadPool <;> cases hg : w.pool.resourcemgr <;> simp [he]
  | complete e p q x =>
      obtain ⟨-, ⟨-, -, -, rfl⟩ | ⟨-, rfl⟩⟩ := afterExecute_cases hop
      · exact h.of_eq (execute_threadPool x) (execute_executors x)
      · exact h.of_eq rfl rfl

theorem nullOrOpen_of_run {ops : List PoolOp} (hrun : PoolWorld.machine.run .new ops = some w) :
    NullOrOpen w ∧ ∃ S, Registered w S [] [] := by
  refine Machine.run_inv (I := fun w => NullOrOpen w ∧ ∃ S, Registered w S [] []) ?_ ?_ hrun
  · intro w op w' h hop
    exact nullOrOpen_exec h hop
  · exact ⟨Or.inl rfl, _, registered_of_idle rfl rfl⟩

/-- `StopProcess` deletes the executor after it has waited for it. -/
theorem stoppedTo_not_deleted {pc : StopPc} {e : ExecutorId} (h : hasWaited pc = false)
    (he : w.pool.threadPool = some e) (hx : w.executors[e]? = some ⟨false, false⟩) :
    ((stoppedTo w pc).executors[e]?.any fun x => x.deleted) = false := by
  cases pc with
  | stop | testPool | shutdown => simp [stoppedTo, PoolWorld.stopFlag, hx]
  | stopAgain | awaitTermination | shutdownNow | awaitAgain =>
      simp [stoppedTo, PoolWorld.stopFlag, PoolWorld.shutdown, he, hx]
  | _ => cases h

/-- While an `afterExecute` call is under way the executor has not been deleted. -/
theorem Stopping.not_badAccess (h : Stopping w s) (hopen : NullOrOpen w) :
    s.badAccess = false := by
  unfold StopSystem.badAccess
  rw [List.any_eq_false]
  intro c hc
  cases hwaited : hasWaited s.stop with
  | true =>
      rw [(h.quiet hwaited).2 c hc]
      simp
  | false =>
      obtain ⟨e, he, hx⟩ : Open w := by
        apply hopen.resolve_left
        intro hnone
        rw [h.noPool hnone] at hc
        cases hc
      have hpool : s.world.pool.threadPool = some e := by
        rw [h.same.threadPool, stoppedTo_threadPool hwaited]
        exact he
      have hthere : s.world.dangling = false := by
        unfold PoolWorld.dangling
        rw [hpool, h.same.executors]
        exact stoppedTo_not_deleted hwaited he hx
      rw [hthere, hpool]
      split <;> simp

/-! ## The world that is left -/

/-- Where nothing is left to do, only the tasks that `shutdownNow` returned are left. -/
theorem Drained.inUse_eq (h : Drained s) : inUse s = s.dropped := by
  have hnil : s.afters.flatMap inHands = [] := by
    rw [List.flatMap_eq_nil_iff]
    intro c hc
    unfold inHands
    rw [h.2 c hc]
  unfold inUse acceptedTasks
  rw [h.1, hnil]
  rfl

theorem world_ext (hpool : w.pool = w'.pool) (hcms : w.cms = w'.cms)
    (hexec : w.executors = w'.executors) (hacc : w.accepted = w'.accepted)
    (hheap : w.heap = w'.heap) (hrun : w.isrun = w'.isrun) : w = w' := by
  cases w
  cases w'
  simp only [PoolWorld.mk.injEq]
  exact ⟨hpool, hcms, hexec, hacc, hheap, hrun⟩

/-- What the statements make of the members is what the one step makes of them, but for `m_sTask`,
of which `stoppedTo` does not speak. -/
theorem stoppedTo_returned :
    w.stopProcess.pool = { (stoppedTo w .returned).pool with sTask := ∅ } ∧
      w.stopProcess.cms = (stoppedTo w .returned).cms ∧
      w.stopProcess.executors = (stoppedTo w .returned).executors ∧
      w.stopProcess.isrun = (stoppedTo w .returned).isrun := by
  cases he : w.pool.threadPool <;> cases hg : w.pool.resourcemgr <;>
    simp [stoppedTo, PoolWorld.stopProcess, PoolWorld.stopExecutor, PoolWorld.stopFlag,
      PoolWorld.shutdown, PoolWorld.deletePool, PoolWorld.deleteResourcemgr, he, hg,
      List.modify_modify_eq, List.set_eq_modify, Function.comp_def]

/-- When `StopProcess` has returned, the world is the one that the one step leaves, but for the
tasks that `shutdownNow` returned. -/
theorem Stopping.world_eq (h : Stopping w s) (hreg : Registered w S [] [])
    (hdone : s.stop = .returned) :
    s.world = { w.stopProcess with
      pool.nextTaskid := s.world.pool.nextTaskid
      heap := fun p => if p ∈ s.dropped then s.world.heap p else w.stopProcess.heap p } := by
  have hsame := h.same
  have hrun := h.isrun
  have hcleared := h.cleared
  have hquiet := h.quiet
  rw [hdone] at hsame hrun hcleared hquiet
  obtain ⟨hpool, hcms, hexec, hisrun⟩ := stoppedTo_returned (w := w)
  have hheap : s.world.heap =
      fun p => if p ∈ s.dropped then s.world.heap p else w.stopProcess.heap p := by
    funext p
    by_cases hp : p ∈ s.dropped
    · rw [if_pos hp]
    · rw [if_neg hp]
      apply h.owned.frame
      rw [(hquiet rfl).inUse_eq]
      exact hp
  have hmembers : s.world.pool =
      { w.stopProcess.pool with nextTaskid := s.world.pool.nextTaskid } := by
    rw [hsame.members, hpool, hcleared rfl]
  apply world_ext
  · exact hmembers
  · exact hsame.cms.trans hcms.symm
  · exact hsame.executors.trans hexec.symm
  · exact (hquiet rfl).1.trans (stopProcess_spec hreg).2.symm
  · exact hheap
  · exact hrun.trans hisrun.symm

/-! ## The whole call -/

/-- **`StopProcess` among the steps of the tasks ends as the call in one step.**  `StopProcess`
begins in a world that any calls and completions lead to; tasks complete and `afterExecute` calls
run in any order between its statements.  If no wait is interrupted and the second one does not
time out, then no `afterExecute` call uses an executor that has been deleted, and when `StopProcess`
returns, all of them have ended and the world is the one that `PoolWorld.stopProcess` gives, but for
the next id and for the tasks that `shutdownNow` returned, which are left on the heap. -/
theorem stopProcess_refines {ops : List PoolOp} {as : List StopAction} {s : StopSystem}
    (hw : PoolWorld.machine.run .new ops = some w)
    (hseen : StopSystem.machine.Meets TerminationSeen (.init w) as)
    (hrun : StopSystem.machine.run (.init w) as = some s) :
    StopSystem.machine.Always (fun s => s.badAccess = false) (.init w) as ∧
      (s.stop = .returned →
        (∀ c ∈ s.afters, c.pc = .ended) ∧
        (∀ p ∈ s.dropped, Live s.world p ∧ ¬ Live w.stopProcess p) ∧
        s.world = { w.stopProcess with
          pool.nextTaskid := s.world.pool.nextTaskid
          heap := fun p => if p ∈ s.dropped then s.world.heap p else w.stopProcess.heap p }) := by
  obtain ⟨hopen, S, hreg⟩ := nullOrOpen_of_run hw
  have hstep : ∀ s a s', Stopping w s → TerminationSeen s a →
      StopSystem.machine.step s a = some s' → Stopping w s' :=
    fun s a s' h hseen hstep => stopping_step h hseen hstep
  have hinit := stopping_init hreg
  refine ⟨Machine.always_of_meets hstep (fun s h => h.not_badAccess hopen) hinit hseen, ?_⟩
  have hlast := Machine.run_inv_of_meets hstep hinit hseen hrun
  intro hdone
  have hdrained : Drained s := hlast.quiet (by rw [hdone]; rfl)
  refine ⟨hdrained.2, ?_, hlast.world_eq hreg hdone⟩
  intro p hp
  have huse : p ∈ inUse s := by
    rw [hdrained.inUse_eq]
    exact hp
  refine ⟨hlast.owned.live p huse, ?_⟩
  unfold Live
  rw [hlast.owned.apart p huse]
  simp

/-- `shutdown` comes while an `afterExecute` call has its new task in the set and not handed over;
the executor rejects it.  The first wait times out, and `shutdownNow` returns the other task. -/
def shutdownWhileReplacing : List StopAction :=
  [.complete 0 0, .after 0 .tau, .after 0 .tau, .after 0 .tau, .after 0 (.address 2),
   .stop .tau, .stop .tau, .after 0 .tau, .stop .tau, .stop .tau,
   .after 0 (.execute (.rejected "shut down")), .stop (.awaited .timedOut), .after 0 .tau,
   .stop (.notExecuted [1]), .stop (.awaited .terminated),
   .stop .tau, .stop .tau, .stop .tau, .stop .tau, .stop .tau, .stop .tau]

theorem stopProcess_refines_while_replacing :
    ∃ w s, PoolWorld.machine.run .new [.start twoSlots (allReturn fun _ => .ok)] = some w ∧
      StopSystem.machine.run (.init w) shutdownWhileReplacing = some s ∧
      s.dropped = [1] ∧ Live s.world 1 ∧ ¬ Live w.stopProcess 1 ∧
      s.world = { w.stopProcess with
        pool.nextTaskid := 3
        heap := fun p => if p ∈ [1] then s.world.heap p else w.stopProcess.heap p } := by
  have hstart : ((PoolWorld.machine.run .new [.start twoSlots (allReturn fun _ => .ok)]).map
      fun w => (decide (StopSystem.machine.Meets TerminationSeen (.init w) shutdownWhileReplacing),
        (StopSystem.machine.run (.init w) shutdownWhileReplacing).map fun s =>
          (s.stop, s.dropped, s.world.pool.nextTaskid))) =
      some (true, some (.returned, [1], 3)) := by
    decide +kernel
  obtain ⟨w, hw, hstart⟩ := Option.map_eq_some_iff.mp hstart
  simp only [Prod.mk.injEq, decide_eq_true_eq] at hstart
  obtain ⟨hseen, hstop⟩ := hstart
  obtain ⟨s, hrun, hs⟩ := Option.map_eq_some_iff.mp hstop
  simp only [Prod.mk.injEq] at hs
  obtain ⟨hdone, hdropped, hid⟩ := hs
  obtain ⟨-, hend⟩ := stopProcess_refines hw hseen hrun
  obtain ⟨-, hlive, hworld⟩ := hend hdone
  rw [hdropped] at hlive hworld
  rw [hid] at hworld
  obtain ⟨h1, h1'⟩ := hlive 1 List.mem_cons_self
  exact ⟨w, s, hw, hrun, hdropped, h1, h1', hworld⟩

end DsAmq.Analysis
