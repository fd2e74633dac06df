import DsAmq.Analysis.ReleasedConnection

/-!
# Whether the error text belongs to the failure

Two runs of one call, from states that differ in `m_strError` only.  Every path on which a call
returns false sets the text, with one exception: when `Connection::start` throws, its message is
printed and the text stays what it was.  `createSessionPool_of_startThrows` and
`createSessionPool_setError` are the two sides of this, and `last_error_own_iff` is the result for
all calls.
-/

set_option autoImplicit false

namespace DsAmq.Analysis

open DsAmq.Model

/-- Whenever the call returns false, what `getlasterror` returns afterwards is the same in the run
from any other text. -/
def ReportsOwnError (w : MgrWorld) (op : MgrOp) : Prop :=
  ∀ e, op.result w = some false → (op.exec (w.setError e)).getlasterror = (op.exec w).getlasterror

/-- `CreateSessionPool` connects, and `Connection::start` throws. -/
def StartThrows (w : MgrWorld) (o : ConnectOutcomes) : Prop :=
  w.mgr.pool.isCreated = true ∧ w.mgr.bStartedConnection = false ∧
    o.createConnection.throws = false ∧ o.start.throws = true

variable {w : MgrWorld} {o : ConnectOutcomes} {e : String}

/-! ## The statements and the text -/

@[simp] theorem setError_setError (w : MgrWorld) (e e' : String) :
    (w.setError e).setError e' = w.setError e' := rfl

@[simp] theorem deleteConnection_setError (w : MgrWorld) (e : String) :
    (w.setError e).deleteConnection = w.deleteConnection.setError e := by
  unfold MgrWorld.deleteConnection
  cases h : w.mgr.connection with
  | none => simp only [MgrWorld.setError, h]
  | some k => simp only [MgrWorld.setError, h]

@[simp] theorem dropConnection_setError (w : MgrWorld) (e : String) :
    (w.setError e).dropConnection = w.dropConnection.setError e := by
  unfold MgrWorld.dropConnection
  rw [deleteConnection_setError]
  cases h : w.mgr.connection with
  | none => simp only [MgrWorld.setError, h]
  | some k => simp only [MgrWorld.setError, MgrWorld.nullConnection, h]

@[simp] theorem deleteResourcemgr_setError (w : MgrWorld) (e : String) :
    (w.setError e).deleteResourcemgr = w.deleteResourcemgr.setError e := by
  unfold MgrWorld.deleteResourcemgr
  cases h : w.mgr.resourcemgr with
  | none => simp only [MgrWorld.setError, h]
  | some g => simp only [MgrWorld.setError, h]

@[simp] theorem dropResourcemgr_setError (w : MgrWorld) (e : String) :
    (w.setError e).dropResourcemgr = w.dropResourcemgr.setError e := by
  unfold MgrWorld.dropResourcemgr
  rw [deleteResourcemgr_setError]
  cases h : w.mgr.resourcemgr with
  | none => simp only [MgrWorld.setError, h]
  | some g => simp only [MgrWorld.setError, MgrWorld.nullResourcemgr, h]

@[simp] theorem addConnection_setError (w : MgrWorld) (e : String) :
    (w.setError e).addConnection = w.addConnection.setError e := by
  unfold MgrWorld.addConnection
  cases hg : w.mgr.resourcemgr <;> cases hk : w.mgr.connection <;>
    simp only [MgrWorld.setError, hg, hk]

@[simp] theorem resetSessionpool_setError (w : MgrWorld) (e : String) :
    (w.setError e).resetSessionpool = w.resetSessionpool.setError e := by
  unfold MgrWorld.resetSessionpool
  cases hk : w.mgr.connection <;> cases hg : w.mgr.resourcemgr <;>
    simp only [MgrWorld.setError, hg, hk]

/-- The outer handler sets the text. -/
@[simp] theorem connectFailed_setError (w : MgrWorld) (e message : String) :
    (w.setError e).connectFailed message = w.connectFailed message := rfl

/-! ## The calls -/

theorem createSessionPool_of_startThrows (h : StartThrows w o) :
    w.createSessionPool o =
      (false, w.dropConnection.createConnection.deleteConnection.nullConnection) := by
  obtain ⟨hcreated, hstarted, hconnect, hstart⟩ := h
  unfold MgrWorld.createSessionPool
  simp only [hcreated, hstarted, Bool.not_true, Bool.false_eq_true, if_false]
  cases hc : o.createConnection with
  | cms msg =>
      rw [hc] at hconnect
      cases hconnect
  | ok u =>
      cases hs : o.start with
      | cms msg => rfl
      | ok u =>
          rw [hs] at hstart
          cases hstart

/-- Where `start` throws, the call returns false and the text stays what it was. -/
theorem getlasterror_of_startThrows (h : StartThrows w o) :
    (w.createSessionPool o).1 = false ∧
      (w.createSessionPool o).2.getlasterror = w.getlasterror := by
  rw [createSessionPool_of_startThrows h]
  refine ⟨rfl, ?_⟩
  show w.dropConnection.createConnection.deleteConnection.mgr.strError = w.mgr.strError
  rw [deleteConnection_mgr]
  show w.dropConnection.mgr.strError = w.mgr.strError
  unfold MgrWorld.dropConnection
  split
  · show w.deleteConnection.mgr.strError = w.mgr.strError
    rw [deleteConnection_mgr]
  · rfl

/-- Where `start` does not throw, either the text is set, or the call returns true and keeps it. -/
theorem createSessionPool_setError (h : ¬ StartThrows w o) (e : String) :
    (w.setError e).createSessionPool o = w.createSessionPool o ∨
      (w.createSessionPool o).1 = true ∧
        (w.setError e).createSessionPool o = (true, (w.createSessionPool o).2.setError e) := by
  unfold MgrWorld.createSessionPool
  simp only [setError_pool, show (w.setError e).mgr.bStartedConnection = w.mgr.bStartedConnection
    from rfl]
  cases hcreated : w.mgr.pool.isCreated with
  | false =>
      left
      simp only [Bool.not_false, if_true, setError_setError]
  | true =>
      cases hstarted : w.mgr.bStartedConnection with
      | true => exact .inr ⟨rfl, rfl⟩
      | false =>
          simp only [Bool.not_true, Bool.false_eq_true, if_false, dropConnection_setError]
          cases hconnect : o.createConnection with
          | cms msg => exact .inl (connectFailed_setError _ _ _)
          | ok u =>
              cases hstart : o.start with
              | cms msg =>
                  refine absurd ⟨hcreated, hstarted, ?_, ?_⟩ h
                  · rw [hconnect]
                    rfl
                  · rw [hstart]
                    rfl
              | ok u =>
                  -- from here on the statements keep the text, or the outer handler sets it
                  have hmade : ((w.dropConnection.setError e).createConnection.setStarted
                      true).dropResourcemgr.newResourcemgr =
                      (w.dropConnection.createConnection.setStarted
                        true).dropResourcemgr.newResourcemgr.setError e := by
                    show ((w.dropConnection.createConnection.setStarted true).setError
                      e).dropResourcemgr.newResourcemgr = _
                    rw [dropResourcemgr_setError]
                    rfl
                  dsimp only
                  rw [hmade]
                  cases o.addConnection with
                  | cms msg => exact .inl (connectFailed_setError _ _ _)
                  | ok u =>
                      right
                      refine ⟨rfl, ?_⟩
                      simp only [addConnection_setError, resetSessionpool_setError]
                      rfl

theorem fillPool_setError {n : UInt32} {alloc : Alloc} (h : (w.fillPool n alloc).1 = false)
    (e : String) : (w.setError e).fillPool n alloc = w.fillPool n alloc := by
  unfold MgrWorld.fillPool at h ⊢
  dsimp only at h
  split at h
  · rename_i hthrew
    simp only [MgrWorld.setError, hthrew]
  · cases h

theorem createPool_setError {c : CreateCall} {alloc : Alloc} (h : (w.createPool c alloc).1 = false)
    (e : String) : (w.setError e).createPool c alloc = w.createPool c alloc := by
  cases hcreated : w.mgr.pool.isCreated with
  | true =>
      rw [createPool_of_created c alloc hcreated] at h
      cases h
  | false =>
      cases c with
      | short n b d =>
          simp only [MgrWorld.createPool, MgrWorld.createPoolShort, setError_pool, hcreated,
            Bool.false_eq_true, if_false] at h ⊢
          split at h
          · rename_i hempty
            simp only [hempty, if_true, setError_setError]
          · rename_i hempty
            simp only [hempty]
            exact fillPool_setError h e
      | full n b d t a =>
          simp only [MgrWorld.createPool, MgrWorld.createPoolFull, setError_pool, hcreated,
            Bool.false_eq_true, if_false] at h ⊢
          exact fillPool_setError h e

theorem sendOn_setError {s : SessionId} {msg : String} {o : MgrSendOutcomes}
    (h : (w.sendOn s msg o).1 = .returned false) (e : String) :
    (w.setError e).sendOn s msg o = w.sendOn s msg o := by
  unfold MgrWorld.sendOn at h ⊢
  simp only [setError_pool]
  split
  · rename_i hcreate
    simp only [hcreate] at h
    cases h
  · rfl
  · rename_i k pool hcreate
    simp only [hcreate] at h
    split
    · rename_i hitem
      simp only [hitem] at h
      cases h
    · rename_i bSent error sent pool' hitem
      simp only [hitem] at h
      cases bSent with
      | false => rfl
      | true =>
          simp only [if_true] at h
          split at h
          · cases h
          · split at h
            · cases h
            · cases h

theorem sendTake_setError {msg : String} {o : MgrSendOutcomes}
    (h : (w.sendTake msg o).1 = .returned false) (e : String) :
    (w.setError e).sendTake msg o = w.sendTake msg o := by
  unfold MgrWorld.sendTake at h ⊢
  simp only [show (w.setError e).mgr.sessionpool = w.mgr.sessionpool from rfl]
  cases hpool : w.mgr.sessionpool with
  | none =>
      simp only [hpool] at h
      cases h
  | some pool =>
      rcases htake : o.takeSession with (_ | session) | msg
      · rfl
      · simp only [hpool, htake] at h
        exact sendOn_setError h e
      · rfl

/-- Where `start` throws, `sendmessage` ends with the result of `CreateSessionPool`. -/
theorem sendmessage_of_startThrows {msg : String} {o : MgrSendOutcomes}
    (h : StartThrows w o.connect) :
    w.sendmessage msg o = (.returned false, (w.createSessionPool o.connect).2, none) := by
  have hfalse := (getlasterror_of_startThrows h).1
  unfold MgrWorld.sendmessage MgrWorld.sendConnect
  simp only [h.1, h.2.1, Bool.not_true, Bool.false_eq_true, if_false, hfalse]

/-- `sendmessage` returns false with a text of its own, or connects and `start` throws. -/
theorem sendmessage_setError {msg : String} {o : MgrSendOutcomes}
    (hstart : ¬ StartThrows w o.connect) (h : (w.sendmessage msg o).1 = .returned false)
    (e : String) : (w.setError e).sendmessage msg o = w.sendmessage msg o := by
  unfold MgrWorld.sendmessage MgrWorld.sendConnect at h ⊢
  simp only [setError_pool, show (w.setError e).mgr.bStartedConnection = w.mgr.bStartedConnection
    from rfl]
  cases hcreated : w.mgr.pool.isCreated with
  | false => simp only [Bool.not_false, if_true, setError_setError]
  | true =>
      simp only [hcreated, Bool.not_true, Bool.false_eq_true, if_false] at h ⊢
      cases hstarted : w.mgr.bStartedConnection with
      | true =>
          simp only [hstarted, if_true] at h ⊢
          exact sendTake_setError h e
      | false =>
          simp only [hstarted, Bool.false_eq_true, if_false] at h ⊢
          obtain hsame | ⟨htrue, hkeeps⟩ := createSessionPool_setError hstart e
          · rw [hsame]
          · rw [hkeeps, htrue]
            rw [htrue] at h
            exact sendTake_setError h e

/-! ## The result -/

theorem reportsOwnError_createPool (c : CreateCall) (alloc : Alloc) :
    ReportsOwnError w (.createPool c alloc) := by
  intro e hfalse
  have h : (w.createPool c alloc).1 = false := by simpa [MgrOp.result] using hfalse
  show (_ : String) = _
  simp only [MgrOp.exec, createPool_setError h e]

/-- A call that keeps the text, and returns false, reports the text of an earlier failure. -/
theorem not_reportsOwnError {op : MgrOp} (hfalse : op.result w = some false)
    (hkeeps : ∀ e, (op.exec (w.setError e)).getlasterror = (w.setError e).getlasterror) :
    ¬ ReportsOwnError w op := by
  intro h
  have hother := h (w.getlasterror ++ "!") hfalse
  have hsame : (op.exec w).getlasterror = w.getlasterror := hkeeps w.mgr.strError
  rw [hkeeps, hsame] at hother
  have hlength := congrArg String.length hother
  simp [MgrWorld.getlasterror, MgrWorld.setError] at hlength

theorem reportsOwnError_createSessionPool :
    ReportsOwnError w (.createSessionPool o) ↔ ¬ StartThrows w o := by
  constructor
  · intro h hstart
    refine not_reportsOwnError ?_ ?_ h
    · show some (w.createSessionPool o).1 = some false
      rw [(getlasterror_of_startThrows hstart).1]
    · intro e
      have hstart' : StartThrows (w.setError e) o := hstart
      exact (getlasterror_of_startThrows hstart').2
  · intro hstart e hfalse
    have h : (w.createSessionPool o).1 = false := by simpa [MgrOp.result] using hfalse
    obtain hsame | ⟨htrue, -⟩ := createSessionPool_setError hstart e
    · simp only [MgrOp.exec, hsame]
    · rw [htrue] at h
      cases h

theorem reportsOwnError_sendmessage {msg : String} {o : MgrSendOutcomes} :
    ReportsOwnError w (.sendmessage msg o) ↔ ¬ StartThrows w o.connect := by
  constructor
  · intro h hstart
    refine not_reportsOwnError ?_ ?_ h
    · simp only [MgrOp.result, sendmessage_of_startThrows hstart]
    · intro e
      have hstart' : StartThrows (w.setError e) o.connect := hstart
      simp only [MgrOp.exec, sendmessage_of_startThrows hstart']
      exact (getlasterror_of_startThrows hstart').2
  · intro hstart e hfalse
    have h : (w.sendmessage msg o).1 = .returned false := by
      simp only [MgrOp.result] at hfalse
      split at hfalse
      · rename_i b hreturned
        rw [hreturned]
        simpa using hfalse
      · cases hfalse
    simp only [MgrOp.exec, sendmessage_setError hstart h e]

/-- **When the error text belongs to the failure.**  For every manager state and every call, with
all its arguments and all outcomes of the library calls: that `getlasterror` after a call that
returned false does not depend on the text before it holds if and only if the call does not connect,
or creates no connection, or `Connection::start` does not throw. -/
theorem last_error_own_iff (w : MgrWorld) (op : MgrOp) :
    ReportsOwnError w op ↔ ∀ o, connectOutcomes w op = some o → ¬ StartThrows w o := by
  cases op with
  | createPool c alloc => simp [connectOutcomes, reportsOwnError_createPool c alloc]
  | createSessionPool o => simp [connectOutcomes, reportsOwnError_createSessionPool]
  | sendmessage msg o =>
      rw [reportsOwnError_sendmessage]
      constructor
      · intro hstart o' ho'
        simp only [connectOutcomes, Option.ite_none_right_eq_some, Option.some.injEq] at ho'
        rw [← ho'.2]
        exact hstart
      · intro h hstart
        refine h o.connect ?_ hstart
        simp [connectOutcomes, hstart.1, hstart.2.1]
  | releaseResource => simp [connectOutcomes, ReportsOwnError, MgrOp.result]

/-- A manager whose pool was created after a `CreateSessionPool` that came too early. -/
def connectedTooEarly : MgrWorld :=
  ((MgrWorld.new.createSessionPool ⟨.ok (), .ok (), .ok ()⟩).2.createPoolShort 5 "broker" "orders"
    .ok).2

/-- `CreateSessionPool`, when the connection is created and does not start. -/
def refusedStart : MgrOp := .createSessionPool ⟨.ok (), .cms "connection refused", .ok ()⟩

/-- **A call may report the text of an earlier failure**: `start` throws, `CreateSessionPool`
returns false, and the text still says that there is no pool. -/
theorem failed_start_reports_old_text :
    refusedStart.result connectedTooEarly = some false ∧
      (refusedStart.exec connectedTooEarly).getlasterror =
        "in CreateSessionPool, not created producer pool, " ++
          "must previous create producer pool, call CreatePool()" ∧
      (refusedStart.exec (connectedTooEarly.setError "")).getlasterror = "" ∧
      ¬ ReportsOwnError connectedTooEarly refusedStart := by
  have hfalse : refusedStart.result connectedTooEarly = some false := rfl
  have hold : (refusedStart.exec connectedTooEarly).getlasterror =
      "in CreateSessionPool, not created producer pool, " ++
        "must previous create producer pool, call CreatePool()" := rfl
  have hnew : (refusedStart.exec (connectedTooEarly.setError "")).getlasterror = "" := rfl
  refine ⟨hfalse, hold, hnew, ?_⟩
  intro h
  have hsame := h "" hfalse
  rw [hold, hnew] at hsame
  simp at hsame

end DsAmq.Analysis
