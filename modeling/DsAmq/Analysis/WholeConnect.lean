import DsAmq.Library.WholeCall
import DsAmq.Model.SendSystem

/-!
# `CreateSessionPool`, statement by statement and as a whole

A call of `CreateSessionPool` whose statements are not interleaved with others does exactly what
`MgrWorld.createSessionPool` says, for some outcomes of its library calls, and all outcomes can be
met (`createSessionPool_alone_iff`).  So the results on sequences of calls and those on
interleaved statements are about the same function.
-/

set_option autoImplicit false

namespace DsAmq.Analysis

open DsAmq.Model DsAmq.Library

/-- The statements of one `CreateSessionPool` call. -/
def connectMachine : Machine (MgrWorld × ConnectPc) Reply := ⟨fun s r => s.2.step s.1 r⟩

/-! ## The rest of the call -/

/-- The rest of the call from `addConnection` on. -/
def fromAddConnection (o : ConnectOutcomes) (w : MgrWorld) : Bool × MgrWorld :=
  match o.addConnection with
  | .cms msg => w.connectFailed msg
  | .ok _ => (true, w.addConnection.resetSessionpool.setStarted true)

/-- The rest of the call from `start` on. -/
def fromStart (o : ConnectOutcomes) (w : MgrWorld) : Bool × MgrWorld :=
  match o.start with
  | .cms _ => (false, w.deleteConnection.nullConnection)
  | .ok _ => fromAddConnection o (w.setStarted true).dropResourcemgr.newResourcemgr

/-- The rest of the call from `createConnection` on. -/
def fromCreateConnection (o : ConnectOutcomes) (w : MgrWorld) : Bool × MgrWorld :=
  match o.createConnection with
  | .cms msg => w.connectFailed msg
  | .ok _ => fromStart o w.createConnection

/-- What the call returns and leaves behind, from any of its statements on. -/
def connectRest (o : ConnectOutcomes) (s : MgrWorld × ConnectPc) : Bool × MgrWorld :=
  match s.2 with
  | .isCreated => s.1.createSessionPool o
  | .testStarted =>
      if s.1.mgr.bStartedConnection then (true, s.1) else fromCreateConnection o s.1.dropConnection
  | .testConnection => fromCreateConnection o s.1.dropConnection
  | .closeOld | .deleteOld => fromCreateConnection o s.1.deleteConnection.nullConnection
  | .nullOld => fromCreateConnection o s.1.nullConnection
  | .createConnection => fromCreateConnection o s.1
  | .start => fromStart o s.1
  | .setStarted => fromAddConnection o (s.1.setStarted true).dropResourcemgr.newResourcemgr
  | .testUnstarted | .deleteUnstarted => (false, s.1.deleteConnection.nullConnection)
  | .nullUnstarted => (false, s.1.nullConnection)
  | .testResourcemgr => fromAddConnection o s.1.dropResourcemgr.newResourcemgr
  | .deleteResourcemgr =>
      fromAddConnection o s.1.deleteResourcemgr.nullResourcemgr.newResourcemgr
  | .nullResourcemgr => fromAddConnection o s.1.nullResourcemgr.newResourcemgr
  | .newResourcemgr => fromAddConnection o s.1.newResourcemgr
  | .addConnection => fromAddConnection o s.1
  | .resetSessionpool => (true, s.1.resetSessionpool.setStarted true)
  | .setStartedAgain => (true, s.1.setStarted true)
  | .failed msg => s.1.connectFailed msg
  | .testFailedStarted | .closeFailed | .clearStarted =>
      (false, (s.1.setStarted false).deleteConnection.nullConnection)
  | .deleteFailed => (false, s.1.deleteConnection.nullConnection)
  | .nullFailed => (false, s.1.nullConnection)
  | .returned b => (b, s.1)

/-- The statements that can be left, at most. -/
def connectSize : ConnectPc → ℕ
  | .isCreated => 21
  | .testStarted => 20
  | .testConnection => 19
  | .closeOld => 18
  | .deleteOld => 17
  | .nullOld => 16
  | .createConnection => 15
  | .start => 14
  | .setStarted => 13
  | .testResourcemgr => 12
  | .deleteResourcemgr => 11
  | .nullResourcemgr => 10
  | .newResourcemgr => 9
  | .addConnection => 8
  | .failed _ => 7
  | .testFailedStarted => 6
  | .closeFailed => 5
  | .clearStarted => 4
  | .deleteFailed => 3
  | .nullFailed => 1
  | .testUnstarted => 3
  | .deleteUnstarted => 2
  | .nullUnstarted => 1
  | .resetSessionpool => 2
  | .setStartedAgain => 1
  | .returned _ => 0

variable {w w' : MgrWorld} {o : ConnectOutcomes}

theorem createSessionPool_of_created (hcreated : w.mgr.pool.isCreated = true) :
    w.createSessionPool o = connectRest o (w, .testStarted) := by
  unfold MgrWorld.createSessionPool
  simp only [hcreated, Bool.not_true, Bool.false_eq_true, if_false]
  rfl

theorem dropConnection_of_none (h : w.mgr.connection = none) : w.dropConnection = w := by
  unfold MgrWorld.dropConnection
  rw [h]

theorem dropConnection_of_some {k : ConnectionId} (h : w.mgr.connection = some k) :
    w.dropConnection = w.deleteConnection.nullConnection := by
  unfold MgrWorld.dropConnection
  rw [h]

/-- Where there is no connection, nothing is deleted. -/
theorem deleteConnection_of_none (h : w.mgr.connection = none) :
    w.deleteConnection.nullConnection = w := by
  unfold MgrWorld.deleteConnection
  rw [h]
  show ({ w with mgr.connection := none } : MgrWorld) = w
  rw [← h]

theorem setStarted_of_eq {b : Bool} (h : w.mgr.bStartedConnection = b) : w.setStarted b = w := by
  unfold MgrWorld.setStarted
  rw [← h]

/-! ## The steps -/

/-- What the statement learns when the library calls end as `o` says. -/
def connectReply (o : ConnectOutcomes) : ConnectPc → Reply
  | .createConnection => .call o.createConnection
  | .start => .call o.start
  | .addConnection => .call o.addConnection
  | _ => .tau

/-- The step that the outcomes `o` prescribe is possible, and the rest of the call is the same
after it. -/
theorem connect_advance (o : ConnectOutcomes) (w : MgrWorld) {pc : ConnectPc}
    (hpc : ∀ b, pc ≠ .returned b) :
    ∃ w' pc', pc.step w (connectReply o pc) = some (w', pc') ∧
      connectRest o (w', pc') = connectRest o (w, pc) ∧ connectSize pc' < connectSize pc := by
  cases pc with
  | isCreated =>
      cases hcreated : w.mgr.pool.isCreated with
      | true =>
          refine ⟨w, .testStarted, by simp [ConnectPc.step, connectReply, hcreated], ?_, by decide⟩
          exact (createSessionPool_of_created hcreated).symm
      | false =>
          refine ⟨_, .returned false, by simp [ConnectPc.step, connectReply, hcreated]; rfl, ?_,
            by simp [connectSize]⟩
          simp [connectRest, MgrWorld.createSessionPool, hcreated]
  | testStarted =>
      cases hstarted : w.mgr.bStartedConnection with
      | true =>
          exact ⟨w, .returned true, by simp [ConnectPc.step, connectReply, hstarted],
            by simp [connectRest, hstarted], by simp [connectSize]⟩
      | false =>
          exact ⟨w, .testConnection, by simp [ConnectPc.step, connectReply, hstarted],
            by simp [connectRest, hstarted], by simp [connectSize]⟩
  | testConnection =>
      cases hcon : w.mgr.connection with
      | none =>
          exact ⟨w, .createConnection, by simp [ConnectPc.step, connectReply, hcon],
            by simp [connectRest, dropConnection_of_none hcon], by simp [connectSize]⟩
      | some k =>
          exact ⟨w, .closeOld, by simp [ConnectPc.step, connectReply, hcon],
            by simp [connectRest, dropConnection_of_some hcon], by simp [connectSize]⟩
  | createConnection =>
      cases ho : o.createConnection with
      | ok u =>
          exact ⟨_, .start, by simp [ConnectPc.step, connectReply, ho]; rfl,
            by simp [connectRest, fromCreateConnection, ho], by simp [connectSize]⟩
      | cms msg =>
          exact ⟨w, .failed msg, by simp [ConnectPc.step, connectReply, ho],
            by simp [connectRest, fromCreateConnection, ho], by simp [connectSize]⟩
  | start =>
      cases ho : o.start with
      | ok u =>
          exact ⟨w, .setStarted, by simp [ConnectPc.step, connectReply, ho],
            by simp [connectRest, fromStart, ho], by simp [connectSize]⟩
      | cms msg =>
          exact ⟨w, .testUnstarted, by simp [ConnectPc.step, connectReply, ho],
            by simp [connectRest, fromStart, ho], by simp [connectSize]⟩
  | testUnstarted =>
      cases hcon : w.mgr.connection with
      | none =>
          exact ⟨w, .returned false, by simp [ConnectPc.step, connectReply, hcon],
            by simp [connectRest, deleteConnection_of_none hcon], by simp [connectSize]⟩
      | some k =>
          exact ⟨w, .deleteUnstarted, by simp [ConnectPc.step, connectReply, hcon],
            by simp [connectRest], by simp [connectSize]⟩
  | testResourcemgr =>
      cases hmgr : w.mgr.resourcemgr with
      | none =>
          exact ⟨w, .newResourcemgr, by simp [ConnectPc.step, connectReply, hmgr],
            by simp [connectRest, MgrWorld.dropResourcemgr, hmgr], by simp [connectSize]⟩
      | some g =>
          exact ⟨w, .deleteResourcemgr, by simp [ConnectPc.step, connectReply, hmgr],
            by simp [connectRest, MgrWorld.dropResourcemgr, hmgr], by simp [connectSize]⟩
  | addConnection =>
      cases ho : o.addConnection with
      | ok u =>
          exact ⟨_, .resetSessionpool, by simp [ConnectPc.step, connectReply, ho]; rfl,
            by simp [connectRest, fromAddConnection, ho], by simp [connectSize]⟩
      | cms msg =>
          exact ⟨w, .failed msg, by simp [ConnectPc.step, connectReply, ho],
            by simp [connectRest, fromAddConnection, ho], by simp [connectSize]⟩
  | failed msg =>
      cases hcon : w.mgr.connection with
      | none =>
          exact ⟨_, .returned true, by simp [ConnectPc.step, connectReply, hcon]; rfl,
            by simp [connectRest, MgrWorld.connectFailed, MgrWorld.setError, hcon],
            by simp [connectSize]⟩
      | some k =>
          exact ⟨_, .testFailedStarted, by simp [ConnectPc.step, connectReply, hcon]; rfl,
            by simp [connectRest, MgrWorld.connectFailed, MgrWorld.setError, hcon],
            by simp [connectSize]⟩
  | testFailedStarted =>
      cases hstarted : w.mgr.bStartedConnection with
      | true =>
          exact ⟨w, .closeFailed, by simp [ConnectPc.step, connectReply, hstarted],
            by simp [connectRest], by simp [connectSize]⟩
      | false =>
          exact ⟨w, .deleteFailed, by simp [ConnectPc.step, connectReply, hstarted],
            by simp [connectRest, setStarted_of_eq hstarted], by simp [connectSize]⟩
  | returned b => exact absurd rfl (hpc b)
  | _ => exact ⟨_, _, rfl, rfl, by simp [connectSize]⟩

/-- The outcomes `o`, with what the statement has learned in its place. -/
def foresee (o : ConnectOutcomes) : ConnectPc → Reply → ConnectOutcomes
  | .createConnection, .call x => { o with createConnection := x }
  | .start, .call x => { o with start := x }
  | .addConnection, .call x => { o with addConnection := x }
  | _, _ => o

/-- What the statement has learned is what the foreseen outcomes prescribe, and the statements
after it do not look at it again. -/
theorem foresee_spec {pc pc' : ConnectPc} {r : Reply} (h : pc.step w r = some (w', pc')) :
    connectReply (foresee o pc r) pc = r ∧
      connectRest (foresee o pc r) (w', pc') = connectRest o (w', pc') := by
  cases pc with
  | createConnection | start | addConnection =>
      cases r with
      | call x => cases x <;> cases h <;> exact ⟨rfl, rfl⟩
      | _ => cases h
  | _ =>
      cases r with
      | tau => exact ⟨rfl, rfl⟩
      | _ => cases h

/-- **`CreateSessionPool` alone.**  The statements of a call that is not interleaved with others
can lead to the result `b` and the manager `w'` exactly when the whole call does so for some
outcomes of its library calls. -/
theorem createSessionPool_alone_iff {b : Bool} :
    (∃ rs, connectMachine.run (w, .isCreated) rs = some (w', .returned b)) ↔
      ∃ o, w.createSessionPool o = (b, w') := by
  constructor
  · rintro ⟨rs, hrun⟩
    refine Machine.exists_outcome_of_run connectRest ?_ hrun ⟨.ok (), .ok (), .ok ()⟩
    rintro ⟨w, pc⟩ r ⟨w', pc'⟩ hstep o'
    refine ⟨foresee o' pc r, ?_⟩
    obtain ⟨hreply, hrest⟩ := foresee_spec (o := o') hstep
    have hpc : ∀ b, pc ≠ .returned b := by
      rintro b rfl
      cases r <;> cases hstep
    obtain ⟨w₁, pc₁, hstep₁, hsame, -⟩ := connect_advance (foresee o' pc r) w hpc
    rw [hreply] at hstep₁
    have heq : (w₁, pc₁) = (w', pc') := Option.some.inj (hstep₁.symm.trans hstep)
    rw [heq] at hsame
    exact hsame.symm.trans hrest
  · rintro ⟨o, ho⟩
    have hstep : ∀ s : MgrWorld × ConnectPc, ¬ (∃ b, s.2 = .returned b) → True →
        ∃ r s', connectMachine.step s r = some s' ∧ connectRest o s' = connectRest o s ∧
          connectSize s'.2 < connectSize s.2 := by
      intro s hfinal _
      obtain ⟨w₁, pc₁, hstep, hrest, hsize⟩ := connect_advance o s.1 (not_exists.mp hfinal)
      exact ⟨_, (w₁, pc₁), hstep, hrest, hsize⟩
    obtain ⟨rs, ⟨w₁, pc⟩, hrun, ⟨b', rfl⟩, hrest⟩ :=
      Machine.exists_run_of_outcome (connectRest o) (fun _ => True) _ _ hstep (w, .isCreated)
        trivial
    have heq : (b', w₁) = (b, w') := hrest.trans ho
    cases heq
    exact ⟨rs, hrun⟩

end DsAmq.Analysis
