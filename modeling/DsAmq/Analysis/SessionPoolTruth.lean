import DsAmq.Analysis.MgrConnection

/-!
# What `CreateSessionPool` says and what it did

`CreateSessionPool` returns true exactly when the connection is started and the session pool made,
with one exception: when `createConnection` throws there is no connection for the outer handler to
clean up, and the handler falls through to `return true`.  `createSessionPool_truth_iff` states
that this is the only exception, in every state that any calls on a manager lead to;
`sendmessage` then calls `takeSession` through a null pointer in exactly that case.
-/

set_option autoImplicit false

namespace DsAmq.Analysis

open DsAmq.Model DsAmq.Library

/-- The call returns true if and only if afterwards the connection is started and there is a
session pool. -/
def TellsTruth (w : MgrWorld) (o : ConnectOutcomes) : Prop :=
  (w.createSessionPool o).1 = true ↔
    (w.createSessionPool o).2.mgr.bStartedConnection = true ∧
      (w.createSessionPool o).2.mgr.sessionpool ≠ none

/-- The connection is started already, or `createConnection` returns. -/
def Connects (w : MgrWorld) (o : ConnectOutcomes) : Prop :=
  w.mgr.bStartedConnection = true ∨ o.createConnection = .ok ()

variable {w : MgrWorld}

theorem StartedOn.sessionpool_ne {k : ConnectionId} (h : StartedOn w k) :
    w.mgr.sessionpool ≠ none := by
  obtain ⟨-, -, g, ⟨mode, hpool⟩, -⟩ := h
  rw [hpool]
  exact Option.some_ne_none _

/-- In every state that satisfies the invariant, the call tells the truth unless `createConnection`
is called and throws. -/
theorem tellsTruth_iff (h : Connected w) (hcreated : w.mgr.pool.isCreated = true)
    (o : ConnectOutcomes) : TellsTruth w o ↔ Connects w o := by
  unfold TellsTruth Connects
  rcases createSessionPool_cases h hcreated o with
    ⟨hs, heq⟩ | ⟨hs, ⟨msg, ho, heq⟩ | ⟨ho, hret, ha⟩ | ⟨ho, hret, hopen⟩⟩
  · obtain ⟨k, hk⟩ := h.started hs
    simp [heq, hs, hk.sessionpool_ne]
  · have hs' : (w.setError ("fail to CreateSessionPool, create connection exception, " ++
        msg)).mgr.bStartedConnection = false := hs
    simp [heq, hs, hs', ho]
  · simp [hret, ha.started, ho]
  · simp [hret, hopen.started, hopen.startedOn.sessionpool_ne, ho]

/-- `sendmessage` on a created pool ends in a call through a null session pool exactly when its
`CreateSessionPool` returned true without one. -/
theorem sendmessage_null_iff (hcreated : w.mgr.pool.isCreated = true) (msg : String)
    (o : MgrSendOutcomes) :
    (w.sendmessage msg o).1 = .nullSessionPool ↔
      (w.sendConnect o.connect).1 = true ∧ (w.sendConnect o.connect).2.mgr.sessionpool = none := by
  simp only [MgrWorld.sendmessage, hcreated, Bool.not_true, Bool.false_eq_true, if_false]
  cases hret : (w.sendConnect o.connect).1 with
  | false => simp
  | true =>
      simp only [if_true, true_and]
      cases hpool : (w.sendConnect o.connect).2.mgr.sessionpool with
      | none => simp [MgrWorld.sendTake, hpool]
      | some p =>
          simp only [MgrWorld.sendTake, hpool, reduceCtorEq, iff_false]
          split
          · simp_all
          · simp
          · simp
          · unfold MgrWorld.sendOn
            split
            · simp
            · dsimp only
              split <;> simp
            · dsimp only
              split
              · simp
              · split
                · simp
                · split <;> simp

/-- **When `CreateSessionPool` tells the truth.**  After any calls on a new manager that created
the pool, and for all outcomes of the library calls: `CreateSessionPool` returns true if and only
if afterwards `m_bStartedConnection` is true and `m_sessionpool` is non-null, exactly when the
connection was started before or `createConnection` returns; and exactly then does `sendmessage`
not call `takeSession` through a null `m_sessionpool`. -/
theorem createSessionPool_truth_iff {ops : List MgrOp} {w : MgrWorld}
    (hrun : MgrWorld.machine.run .new ops = some w) (hcreated : w.mgr.pool.isCreated = true)
    (o : ConnectOutcomes) :
    (TellsTruth w o ↔ Connects w o) ∧
      ∀ (msg : String) (so : MgrSendOutcomes), so.connect = o →
        ((w.sendmessage msg so).1 ≠ .nullSessionPool ↔ Connects w o) := by
  have h := connected_of_run hrun
  refine ⟨tellsTruth_iff h hcreated o, ?_⟩
  intro msg so hso
  rw [Ne, sendmessage_null_iff hcreated, hso]
  unfold MgrWorld.sendConnect Connects
  rcases createSessionPool_cases h hcreated o with
    ⟨hs, heq⟩ | ⟨hs, ⟨msg, ho, heq⟩ | ⟨ho, hret, ha⟩ | ⟨ho, hret, hopen⟩⟩
  · obtain ⟨k, hk⟩ := h.started hs
    simp [hs, hk.sessionpool_ne]
  · have hpool : w.mgr.sessionpool = none := (h.unstarted hs).2.1
    simp [hs, heq, ho, MgrWorld.setError, hpool]
  · simp [hs, hret, ho]
  · simp [hs, hret, ho, hopen.startedOn.sessionpool_ne]

/-- The pool is created; the connection is not started. -/
def unconnected : MgrWorld := (MgrWorld.new.createPool (.full 1 "broker" "orders" false true) .ok).2

theorem createSessionPool_truth_iff_refused_and_accepted :
    ¬ TellsTruth unconnected ⟨.cms "refused", .ok (), .ok ()⟩ ∧
      TellsTruth unconnected ⟨.ok (), .ok (), .cms "closed"⟩ := by
  have hrun : MgrWorld.machine.run .new
      [.createPool (.full 1 "broker" "orders" false true) .ok] = some unconnected := rfl
  have hcreated : unconnected.mgr.pool.isCreated = true := by decide +kernel
  have hstarted : unconnected.mgr.bStartedConnection = false := by decide +kernel
  constructor
  · rw [(createSessionPool_truth_iff hrun hcreated _).1]
    simp [Connects, hstarted]
  · rw [(createSessionPool_truth_iff hrun hcreated _).1]
    exact .inr rfl

/-- `createConnection` throws: the call returns true with no connection started and no session
pool, and `sendmessage` goes on to `takeSession` through the null pointer. -/
theorem refused_connection_reported_as_success :
    MgrWorld.machine.run .new [.createPool (.full 1 "broker" "orders" false true) .ok] =
        some unconnected ∧
      (unconnected.createSessionPool ⟨.cms "refused", .ok (), .ok ()⟩).1 = true ∧
      (unconnected.createSessionPool ⟨.cms "refused", .ok (), .ok ()⟩).2.mgr.bStartedConnection =
        false ∧
      (unconnected.createSessionPool ⟨.cms "refused", .ok (), .ok ()⟩).2.mgr.sessionpool = none ∧
      (unconnected.sendmessage "m" ⟨⟨.cms "refused", .ok (), .ok ()⟩, .ok (some 1),
        ⟨.ok (), .ok (), .ok (), .ok (), .ok ()⟩, .ok ()⟩).1 = .nullSessionPool := by
  refine ⟨rfl, ?_⟩
  decide +kernel

end DsAmq.Analysis
