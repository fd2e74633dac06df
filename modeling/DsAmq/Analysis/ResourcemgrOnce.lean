import DsAmq.Analysis.StartResources
import DsAmq.Analysis.StartTruth

/-!
# The consumer pool's resource managers are deleted once

`StopProcess` deletes the resource manager and keeps the pointer.  So the next `StopProcess` deletes
it again, unless a `StartProcess` in between has come as far as making another one.  `MgrLog` is the
pool with just this: whether a resource manager was made since the last `StopProcess`.
-/

set_option autoImplicit false

namespace DsAmq.Analysis

open DsAmq.Model DsAmq.Library

/-- The pool, and whether a call of `StartProcess` has made a resource manager since the last
`StopProcess`. -/
structure MgrLog where
  world : PoolWorld
  managed : Bool

namespace MgrLog

/-- The start of the process. -/
def new : MgrLog := ⟨.new, false⟩

/-- What is noted of an operation that leads to `w`. -/
def note (l : MgrLog) (w : PoolWorld) : PoolOp → MgrLog
  | .start a o => ⟨w, l.managed || makesResourcemgr l.world a o⟩
  | .stop => ⟨w, false⟩
  | .complete _ _ _ _ => { l with world := w }

/-- Any sequence of calls and completions, with what is noted of them. -/
def machine : Machine MgrLog PoolOp := ⟨fun l op => (op.exec l.world).map fun w => l.note w op⟩

end MgrLog

/-- No resource manager has been deleted twice. -/
def DeletedOnce (l : MgrLog) : Prop := l.world.cms.deletedMgrs.Nodup

/-- `StopProcess` on a pool that is stopped, with no resource manager made since, does nothing but
to clear the flag of `CDSAMQStopper`. -/
def NoEffectIfStopped (l : MgrLog) : PoolOp → Prop
  | .stop => l.managed = false → l.world.stopProcess = { l.world with isrun := false }
  | _ => True

/-- `StopProcess` is called while there has never been a resource manager, or after a `StartProcess`
that made one. -/
def StopsManaged (l : MgrLog) : PoolOp → Prop
  | .stop => l.world.pool.resourcemgr = none ∨ l.managed = true
  | _ => True

instance (l : MgrLog) : (op : PoolOp) → Decidable (StopsManaged l op)
  | .stop => inferInstanceAs (Decidable (l.world.pool.resourcemgr = none ∨ l.managed = true))
  | .start _ _ => isTrue trivial
  | .complete _ _ _ _ => isTrue trivial

/-- The resource manager that the pointer points to has been deleted exactly when none was made
since the last `StopProcess`; then there is nothing else to stop either. -/
structure Kept (l : MgrLog) : Prop where
  mgr_lt : ∀ g, l.world.pool.resourcemgr = some g → g < l.world.cms.managed.length
  deleted_lt : ∀ g ∈ l.world.cms.deletedMgrs, g < l.world.cms.managed.length
  own : l.managed = true →
    ∃ g, l.world.pool.resourcemgr = some g ∧ g ∉ l.world.cms.deletedMgrs
  stale : l.managed = false →
    ∀ g, l.world.pool.resourcemgr = some g → g ∈ l.world.cms.deletedMgrs
  stopped : l.managed = false → l.world.pool.sTask = ∅ ∧ l.world.pool.threadPool = none ∧
    l.world.pool.sessionpool = none

variable {l l' : MgrLog} {w w' : PoolWorld}

theorem kept_new : Kept .new := by
  constructor
  · intro g hg
    cases hg
  · intro g hg
    cases hg
  · intro h
    cases h
  · intro _ g hg
    cases hg
  · intro _
    exact ⟨rfl, rfl, rfl⟩

/-- An operation that leaves the managers, and a stopped pool, as they are. -/
theorem Kept.of_same (h : Kept l) (hmgr : w.pool.resourcemgr = l.world.pool.resourcemgr)
    (hmanaged : w.cms.managed = l.world.cms.managed)
    (hdeleted : w.cms.deletedMgrs = l.world.cms.deletedMgrs)
    (hstopped : l.managed = false → w.pool.sTask = l.world.pool.sTask ∧
      w.pool.threadPool = l.world.pool.threadPool ∧
      w.pool.sessionpool = l.world.pool.sessionpool) : Kept { l with world := w } := by
  constructor
  · rw [hmgr, hmanaged]
    exact h.mgr_lt
  · rw [hdeleted, hmanaged]
    exact h.deleted_lt
  · rw [hmgr, hdeleted]
    exact h.own
  · rw [hmgr, hdeleted]
    exact h.stale
  · intro hm
    obtain ⟨htask, hpool, hsession⟩ := hstopped hm
    rw [htask, hpool, hsession]
    exact h.stopped hm

/-- `StartProcess`. -/
theorem kept_start {a : StartArgs} {o : StartOutcomes} {r : PoolWorld.StartResult} (h : Kept l)
    (hstart : l.world.startProcess a o = some (r, w)) :
    Kept ⟨w, l.managed || makesResourcemgr l.world a o⟩ := by
  cases acquired_of_startProcess hstart with
  | nothing hcreates hresources htasks =>
      have hmakes : makesResourcemgr l.world a o = false := by
        simp [makesResourcemgr, hcreates]
      rw [hmakes, Bool.or_false]
      apply h.of_same hresources.resourcemgr
      · rw [hresources.cms]
      · rw [hresources.cms]
      · intro _
        exact ⟨htasks.sTask, htasks.threadPool, hresources.sessionpool⟩
  | connection hcreates hmakes hr =>
      rw [hmakes, Bool.or_false]
      exact h.of_same rfl rfl rfl fun _ => ⟨rfl, rfl, rfl⟩
  | resourcemgr hmakes hconnection hmgr hconnections hlen hdeleted =>
      rw [hmakes, Bool.or_true]
      constructor
      · intro g hg
        obtain rfl := Option.some.inj (hmgr.symm.trans hg)
        rw [hlen]
        exact Nat.lt_succ_self _
      · intro g hg
        rw [hdeleted] at hg
        rw [hlen]
        exact Nat.lt_succ_of_lt (h.deleted_lt g hg)
      · intro _
        refine ⟨_, hmgr, ?_⟩
        rw [hdeleted]
        intro hmem
        exact Nat.lt_irrefl _ (h.deleted_lt _ hmem)
      · intro hm
        cases hm
      · intro hm
        cases hm

/-- `StopProcess`. -/
theorem kept_stop (h : Kept l) : Kept ⟨l.world.stopProcess, false⟩ := by
  have hmgr : l.world.stopProcess.pool.resourcemgr = l.world.pool.resourcemgr := by
    rw [stopProcess_pool]
  have hmanaged : l.world.stopProcess.cms.managed = l.world.cms.managed := by
    cases hg : l.world.pool.resourcemgr with
    | none => rw [stopProcess_cms_none hg]
    | some g => rw [stopProcess_cms_some hg]; rfl
  constructor
  · rw [hmgr, hmanaged]
    exact h.mgr_lt
  · intro g hmem
    rw [hmanaged]
    cases hg : l.world.pool.resourcemgr with
    | none =>
        rw [stopProcess_cms_none hg] at hmem
        exact h.deleted_lt g hmem
    | some g₀ =>
        rw [stopProcess_cms_some hg] at hmem
        rcases List.mem_append.mp hmem with hmem | hmem
        · exact h.deleted_lt g hmem
        · rw [List.mem_singleton.mp hmem]
          exact h.mgr_lt g₀ hg
  · intro hm
    cases hm
  · intro _ g hg
    rw [hmgr] at hg
    rw [stopProcess_cms_some hg]
    exact List.mem_append_right _ List.mem_cons_self
  · intro _
    rw [stopProcess_pool]
    exact ⟨rfl, rfl, rfl⟩

/-- The completion of a task. -/
theorem kept_complete {e : ExecutorId} {p q : TaskPtr} {x : ExecuteOutcome} (h : Kept l)
    (hafter : l.world.afterExecute e p q x = some w) : Kept { l with world := w } := by
  have hresources := sameResources_afterExecute hafter
  apply h.of_same hresources.resourcemgr
  · rw [hresources.cms]
  · rw [hresources.cms]
  · intro hm
    have hclosed : ¬ l.world.isOpen = true := by
      simp [PoolWorld.isOpen, (h.stopped hm).2.1]
    obtain ⟨-, ⟨hopen, -⟩ | ⟨-, rfl⟩⟩ := afterExecute_cases hafter
    · exact absurd hopen hclosed
    · exact ⟨rfl, rfl, rfl⟩

/-- **The step lemma.** -/
theorem kept_step {op : PoolOp} (h : Kept l) (hstep : MgrLog.machine.step l op = some l') :
    Kept l' := by
  obtain ⟨w, hexec, rfl⟩ := Option.map_eq_some_iff.mp hstep
  cases op with
  | start a o =>
      obtain ⟨⟨r, w'⟩, hstart, rfl⟩ := Option.map_eq_some_iff.mp hexec
      exact kept_start h hstart
  | stop =>
      cases hexec
      exact kept_stop h
  | complete e p q x => exact kept_complete h hexec

/-! ## The deletions -/

/-- What `StopProcess` does to a pool that has nothing to stop. -/
theorem noEffectIfStopped_iff (h : Kept l) (op : PoolOp) :
    NoEffectIfStopped l op ↔ StopsManaged l op := by
  cases op with
  | start a o => exact Iff.rfl
  | complete e p q x => exact Iff.rfl
  | stop =>
      simp only [NoEffectIfStopped, StopsManaged]
      constructor
      · intro hno
        by_contra hnot
        rw [not_or, Bool.not_eq_true] at hnot
        obtain ⟨g, hg⟩ := Option.ne_none_iff_exists'.mp hnot.1
        have hcms := congrArg (fun w => w.cms.deletedMgrs.length) (hno hnot.2)
        simp [stopProcess_cms_some hg, Cms.deleteResourcemgr] at hcms
      · intro hmanaged hm
        have hnone : l.world.pool.resourcemgr = none := by
          apply hmanaged.resolve_right
          rw [hm]
          exact Bool.false_ne_true
        obtain ⟨htask, hpool, hsession⟩ := h.stopped hm
        obtain ⟨world, managed⟩ := l
        obtain ⟨pool, cms, executors, accepted, heap, isrun⟩ := world
        obtain ⟨sTask, threadPool, b, d, t, c, n, mgr, session, connection, next⟩ := pool
        dsimp only at htask hpool hsession hnone
        subst htask hpool hsession hnone
        rfl

/-- A second deletion is one by `StopProcess` with no resource manager made since the last. -/
theorem deletedOnce_iff {op : PoolOp} (h : Kept l) (honce : DeletedOnce l)
    (hstep : MgrLog.machine.step l op = some l') : DeletedOnce l' ↔ StopsManaged l op := by
  obtain ⟨w, hexec, rfl⟩ := Option.map_eq_some_iff.mp hstep
  cases op with
  | start a o =>
      obtain ⟨⟨r, w'⟩, hstart, rfl⟩ := Option.map_eq_some_iff.mp hexec
      have hdeleted : w'.cms.deletedMgrs = l.world.cms.deletedMgrs := by
        cases acquired_of_startProcess hstart with
        | nothing _ hresources _ => rw [hresources.cms]
        | connection _ _ _ => rfl
        | resourcemgr _ _ _ _ _ hdeleted => exact hdeleted
      unfold DeletedOnce at *
      simp only [MgrLog.note, hdeleted, honce, StopsManaged]
  | complete e p q x =>
      have hcms : w.cms = l.world.cms := (sameResources_afterExecute hexec).cms
      unfold DeletedOnce at *
      simp only [MgrLog.note, hcms, honce, StopsManaged]
  | stop =>
      cases hexec
      unfold DeletedOnce at *
      simp only [MgrLog.note, StopsManaged]
      cases hg : l.world.pool.resourcemgr with
      | none => simp [stopProcess_cms_none hg, honce]
      | some g =>
          have happend : l.world.stopProcess.cms.deletedMgrs = l.world.cms.deletedMgrs ++ [g] := by
            rw [stopProcess_cms_some hg]
            rfl
          rw [happend, List.nodup_append]
          cases hm : l.managed with
          | true =>
              obtain ⟨g', hg', hnot⟩ := h.own hm
              obtain rfl := Option.some.inj (hg.symm.trans hg')
              simp only [honce, or_true, iff_true, true_and]
              refine ⟨List.nodup_singleton g, ?_⟩
              intro x hx y hy heq
              rw [heq, List.mem_singleton.mp hy] at hx
              exact hnot hx
          | false =>
              have hmem := h.stale hm g hg
              simp only [reduceCtorEq, Bool.false_eq_true, or_self, iff_false]
              rintro ⟨-, -, hdisjoint⟩
              exact hdisjoint g hmem g List.mem_cons_self rfl

/-- **When each resource manager is deleted at most once.**  In every sequence of calls of
`StartProcess` and `StopProcess`, with any arguments and any outcomes of the library calls, and with
completions of tasks in between: no resource manager is ever deleted twice and `StopProcess` on a
stopped pool has no effect, if and only if every `StopProcess` is called on a pool that never had a
resource manager, or after a `StartProcess` that made one since the last `StopProcess`. -/
theorem resourcemgr_deleted_once_iff {ops : List PoolOp}
    (hrun : MgrLog.machine.run .new ops = some l) :
    MgrLog.machine.Always DeletedOnce .new ops ∧ MgrLog.machine.Meets NoEffectIfStopped .new ops ↔
      MgrLog.machine.Meets StopsManaged .new ops := by
  have honce : MgrLog.machine.Always DeletedOnce .new ops ↔
      MgrLog.machine.Meets StopsManaged .new ops := by
    refine Machine.always_iff_meets (I := Kept) (C := fun _ _ => True) ?_ ?_ kept_new
      List.nodup_nil (Machine.meets_true _ _) hrun
    · intro s op s' h _ hstep
      exact kept_step h hstep
    · intro s op s' h hP _ hstep
      exact deletedOnce_iff h hP hstep
  have heffect : MgrLog.machine.Meets NoEffectIfStopped .new ops ↔
      MgrLog.machine.Meets StopsManaged .new ops := by
    refine Machine.meets_congr (I := Kept) ?_ ?_ kept_new ops
    · intro s op s' h hstep
      exact kept_step h hstep
    · intro s op h
      exact noEffectIfStopped_iff h op
  rw [honce, heffect, and_self]

/-- A pool that is stopped before it is started, started, and stopped; then a start fails at
`Connection::start`, the next makes a resource manager and fails, and the pool is stopped again. -/
def stoppedTwice : List PoolOp :=
  [.stop, .start twoSlots (allReturn fun _ => .ok), .stop,
    .start twoSlots { allReturn fun _ => .ok with start := .cms "refused" },
    .start twoSlots { allReturn fun _ => .ok with addConnection := .cms "closed" }, .stop]

theorem resourcemgr_deleted_once_stopped_twice :
    ∃ l, MgrLog.machine.run .new stoppedTwice = some l ∧ l.world.cms.deletedMgrs = [0, 1] ∧
      MgrLog.machine.Always DeletedOnce .new stoppedTwice := by
  have hrun : (MgrLog.machine.run .new stoppedTwice).map (fun l => l.world.cms.deletedMgrs) =
      some [0, 1] := by
    decide +kernel
  obtain ⟨l, hrun, hdeleted⟩ := Option.map_eq_some_iff.mp hrun
  have hmeets : MgrLog.machine.Meets StopsManaged .new stoppedTwice := by
    decide +kernel
  exact ⟨l, hrun, hdeleted, ((resourcemgr_deleted_once_iff hrun).mpr hmeets).1⟩

/-- After one start and two stops the resource manager has been deleted twice. -/
theorem resourcemgr_deleted_twice :
    ∃ l, MgrLog.machine.run .new [.start twoSlots (allReturn fun _ => .ok), .stop, .stop] = some l ∧
      l.world.cms.deletedMgrs = [0, 0] ∧ ¬ DeletedOnce l := by
  have hrun : (MgrLog.machine.run .new
      [.start twoSlots (allReturn fun _ => .ok), .stop, .stop]).map
      (fun l => l.world.cms.deletedMgrs) = some [0, 0] := by
    decide +kernel
  obtain ⟨l, hrun, hdeleted⟩ := Option.map_eq_some_iff.mp hrun
  refine ⟨l, hrun, hdeleted, ?_⟩
  unfold DeletedOnce
  rw [hdeleted]
  decide

end DsAmq.Analysis
