import DsAmq.Analysis.PoolCalls

/-!
# What the calls on the consumer pool do to its resources

`acquired_of_startProcess` says what a call of `StartProcess` creates, for each point at which it
can end: nothing, a connection, or a connection and a resource manager.  A completion concerns the
tasks only, and `StopProcess` deletes what `m_resourcemgr` points to.
-/

set_option autoImplicit false

namespace DsAmq.Analysis

open DsAmq.Model DsAmq.Library

/-- `StartProcess` gets a connection. -/
def createsConnection (w : PoolWorld) (a : StartArgs) (o : StartOutcomes) : Bool :=
  decide (w.pool.sTask = ∅) && !(a.brokerURI.isEmpty || a.destURI.isEmpty) &&
    !o.createConnection.throws

/-- `StartProcess` gets to the resource manager. -/
def makesResourcemgr (w : PoolWorld) (a : StartArgs) (o : StartOutcomes) : Bool :=
  createsConnection w a o && decide (o.redelivery ≠ .nullPolicy) && !o.start.throws

/-- The connection, the resource manager and the session pool are the same. -/
structure SameResources (w w' : PoolWorld) : Prop where
  connection : w'.pool.connection = w.pool.connection
  resourcemgr : w'.pool.resourcemgr = w.pool.resourcemgr
  sessionpool : w'.pool.sessionpool = w.pool.sessionpool
  cms : w'.cms = w.cms

variable {w w' w'' : PoolWorld} {p q : TaskPtr} {e : ExecutorId} {a : StartArgs}
  {o : StartOutcomes} {r : PoolWorld.StartResult} {i k : ℕ}

theorem SameResources.refl (w : PoolWorld) : SameResources w w := ⟨rfl, rfl, rfl, rfl⟩

theorem SameResources.trans (h : SameResources w w') (h' : SameResources w' w'') :
    SameResources w w'' :=
  ⟨h'.connection.trans h.connection, h'.resourcemgr.trans h.resourcemgr,
    h'.sessionpool.trans h.sessionpool, h'.cms.trans h.cms⟩

/-! ## The tasks -/

theorem sameResources_execute (x : ExecuteOutcome) : SameResources w (w.execute p x) := by
  obtain ⟨acc, m, h⟩ := exists_execute_eq (w := w) (p := p) x
  rw [h]
  exact ⟨rfl, rfl, rfl, rfl⟩

theorem sameResources_submitOne : SameResources w (submitOne o i w) := by
  have htask : SameResources w ((w.newTask (o.address i) i).insertTask (o.address i)) :=
    ⟨rfl, rfl, rfl, rfl⟩
  exact htask.trans (sameResources_execute _)

/-- The loop of `StartProcess` concerns the tasks only. -/
theorem sameResources_submit (h : PoolWorld.submit o i k w = some (r, w')) :
    SameResources w w' :=
  submit_rel SameResources.refl (fun _ _ _ => SameResources.trans)
    (fun _ _ _ => sameResources_submitOne) h

/-- The call returns true if and only if every `execute` call of the loop returns. -/
theorem submit_result (h : PoolWorld.submit o i k w = some (r, w')) :
    r.result = true ↔ ∀ j, i ≤ j → j < i + k → o.execute j = .ok := by
  induction k generalizing i w with
  | zero =>
      cases h
      simp only [true_iff]
      intro j hle hlt
      omega
  | succ k ih =>
      obtain ⟨-, ⟨hx, hsub⟩ | ⟨hx, hr, rfl⟩⟩ := submit_succ h
      · rw [ih hsub]
        constructor
        · intro hall j hle hlt
          by_cases hj : j = i
          · rw [hj]
            exact hx
          · apply hall
            · omega
            · omega
        · intro hall j hle hlt
          apply hall
          · omega
          · omega
      · rw [hr]
        simp only [Bool.false_eq_true, false_iff]
        intro hall
        apply hx
        apply hall
        · omega
        · omega

/-- A completion concerns the tasks only. -/
theorem sameResources_afterExecute {x : ExecuteOutcome} (h : w.afterExecute e p q x = some w') :
    SameResources w w' := by
  obtain ⟨-, ⟨-, -, -, rfl⟩ | ⟨-, rfl⟩⟩ := afterExecute_cases h
  · have htask : SameResources w ((respawned w e p q).insertTask q) := ⟨rfl, rfl, rfl, rfl⟩
    exact (htask.trans (sameResources_execute x)).trans ⟨rfl, rfl, rfl, rfl⟩
  · exact ⟨rfl, rfl, rfl, rfl⟩

/-! ## `StartProcess` -/

/-- What a call has acquired when it ends: nothing, a connection, or a connection and a resource
manager. -/
inductive Acquired (w : PoolWorld) (a : StartArgs) (o : StartOutcomes) :
    PoolWorld.StartResult → PoolWorld → Prop
  | nothing {r : PoolWorld.StartResult} {w' : PoolWorld} (h : createsConnection w a o = false)
      (hresources : SameResources w w') (htasks : SameTasks w w') : Acquired w a o r w'
  | connection {r : PoolWorld.StartResult} (h : createsConnection w a o = true)
      (hmgr : makesResourcemgr w a o = false) (hr : r.result = false) :
      Acquired w a o r (w.setMembers a).createConnection
  | resourcemgr {r : PoolWorld.StartResult} {w' : PoolWorld} (h : makesResourcemgr w a o = true)
      (hconnection : w'.pool.connection = some w.cms.connections)
      (hmgr : w'.pool.resourcemgr = some w.cms.managed.length)
      (hconnections : w'.cms.connections = w.cms.connections + 1)
      (hlen : w'.cms.managed.length = w.cms.managed.length + 1)
      (hdeleted : w'.cms.deletedMgrs = w.cms.deletedMgrs) : Acquired w a o r w'

/-- The connection and the resource manager stay as they are from the session pool on. -/
theorem startTasks_resources {nsize : ℤ} (h : w.startTasks nsize o = some (r, w')) :
    w'.pool.connection = w.pool.connection ∧ w'.pool.resourcemgr = w.pool.resourcemgr ∧
      w'.cms = w.cms := by
  have hreset : w.resetSessionpool.pool.connection = w.pool.connection ∧
      w.resetSessionpool.pool.resourcemgr = w.pool.resourcemgr ∧
      w.resetSessionpool.cms = w.cms := by
    unfold PoolWorld.resetSessionpool
    split
    · exact ⟨rfl, rfl, rfl⟩
    · exact ⟨rfl, rfl, rfl⟩
  simp only [PoolWorld.startTasks] at h
  split at h
  · cases h
    exact hreset
  · obtain ⟨hconnection, hmgr, hcms⟩ := hreset
    split at h
    · rename_i hsub
      cases h
      have hsame := sameResources_submit hsub
      exact ⟨hsame.connection.trans hconnection, hsame.resourcemgr.trans hmgr,
        hsame.cms.trans hcms⟩
    · have hsame := sameResources_submit h
      exact ⟨hsame.connection.trans hconnection, hsame.resourcemgr.trans hmgr,
        hsame.cms.trans hcms⟩

/-- **What `StartProcess` acquires.** -/
theorem acquired_of_startProcess (h : w.startProcess a o = some (r, w')) :
    Acquired w a o r w' := by
  cases startPath_of_startProcess h with
  | already hne =>
      exact .nothing (by simp [createsConnection, hne]) (SameResources.refl w) (SameTasks.refl w)
  | refused hempty huri hr =>
      exact .nothing (by simp only [createsConnection, huri]; simp) (SameResources.refl w)
        (SameTasks.refl w)
  | unconnected hempty huri hc hr =>
      exact .nothing (by simp [createsConnection, hc]) ⟨rfl, rfl, rfl, rfl⟩
        (sameTasks_setMembers a)
  | unstarted hempty huri hc hs hr =>
      have hcreates : createsConnection w a o = true := by
        simp [createsConnection, hempty, huri, hc]
      refine .connection hcreates ?_ hr
      rcases hs with hpol | hs
      · simp [makesResourcemgr, hpol]
      · simp [makesResourcemgr, hs]
  | unadded hempty huri hc hpol hs hadd hr =>
      have hmakes : makesResourcemgr w a o = true := by
        simp [makesResourcemgr, createsConnection, hempty, huri, hc, hpol, hs]
      refine .resourcemgr hmakes rfl rfl rfl ?_ rfl
      simp [PoolWorld.newResourcemgr, Cms.newResourcemgr, PoolWorld.createConnection,
        Cms.createConnection, PoolWorld.setMembers]
  | tasks hempty huri hc hpol hs hadd htasks =>
      have hmakes : makesResourcemgr w a o = true := by
        simp [makesResourcemgr, createsConnection, hempty, huri, hc, hpol, hs]
      obtain ⟨hconnection, hmgr, hcms⟩ := startTasks_resources htasks
      refine .resourcemgr hmakes hconnection hmgr ?_ ?_ ?_
      · rw [hcms]
        rfl
      · rw [hcms]
        simp [PoolWorld.addConnection, Cms.addConnection, PoolWorld.newResourcemgr,
          Cms.newResourcemgr, PoolWorld.createConnection, Cms.createConnection,
          PoolWorld.setMembers]
      · rw [hcms]
        rfl

/-- A call that gets a connection returns true exactly when it comes to the loop and no `execute`
call throws. -/
theorem startProcess_result (h : w.startProcess a o = some (r, w'))
    (hempty : w.pool.sTask = ∅) :
    r.result = true ↔ reachesLoop w a o = true ∧ executeThrows a o = false := by
  cases startProcess_cases h with
  | already hne => exact absurd hempty hne
  | failed hempty hloop hr hsame => simp [hr, hloop]
  | loop hloop hsame₁ hsub hsame₂ =>
      rw [submit_result hsub, executeThrows_eq_false, toNat_nsize]
      simp [hloop]

/-! ## `StopProcess` -/

/-- The members after `StopProcess`. -/
theorem stopProcess_pool : w.stopProcess.pool =
    { w.pool with sTask := ∅, threadPool := none, sessionpool := none } := by
  unfold PoolWorld.stopProcess PoolWorld.stopExecutor
  cases he : w.pool.threadPool with
  | none => cases hg : w.pool.resourcemgr <;> simp [he, hg]
  | some e => cases hg : w.pool.resourcemgr <;> simp [hg]

/-- `StopProcess` deletes what `m_resourcemgr` points to. -/
theorem stopProcess_cms_some {g : ResourcemgrId} (hg : w.pool.resourcemgr = some g) :
    w.stopProcess.cms = w.cms.deleteResourcemgr g := by
  unfold PoolWorld.stopProcess PoolWorld.stopExecutor
  cases he : w.pool.threadPool <;> simp [hg]

theorem stopProcess_cms_none (hg : w.pool.resourcemgr = none) : w.stopProcess.cms = w.cms := by
  unfold PoolWorld.stopProcess PoolWorld.stopExecutor
  cases he : w.pool.threadPool <;> simp [hg]

end DsAmq.Analysis
