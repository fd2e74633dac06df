import DsAmq.Analysis.CreatedPool

/-!
# The connection of the manager

What holds of the four members through which the manager reaches its connection
(`m_connection`, `m_resourcemgr`, `m_sessionpool`, `m_bStartedConnection`) after any sequence of
calls: `Connected`.  `createSessionPool_cases` says once what `CreateSessionPool` can do, for
every combination of outcomes; the step lemma and the theorems about the manager use only that.
-/

set_option autoImplicit false

namespace DsAmq.Analysis

open DsAmq.Model DsAmq.Library

/-- How the members stand while the connection is started: the session pool is over the current
connection, which the resource manager either owns or, after `ReleaseResource`, has destroyed. -/
def StartedOn (w : MgrWorld) (k : ConnectionId) : Prop :=
  w.mgr.connection = some k ∧ k < w.cms.connections ∧
    ∃ g, (∃ mode, w.mgr.sessionpool = some ⟨k, mode, g⟩) ∧
      ((w.mgr.resourcemgr = some g ∧ w.cms.managed.getD g [] = [k] ∧ k ∉ w.cms.destroyed) ∨
        (w.mgr.resourcemgr = none ∧ k ∈ w.cms.destroyed))

/-- The invariant of the connection. -/
structure Connected (w : MgrWorld) : Prop where
  unstarted : w.mgr.bStartedConnection = false →
    w.mgr.connection = none ∧ w.mgr.sessionpool = none ∧
      ∀ g, w.mgr.resourcemgr = some g → w.cms.managed.getD g [] = []
  started : w.mgr.bStartedConnection = true → ∃ k, StartedOn w k
  destroyed_lt : ∀ k ∈ w.cms.destroyed, k < w.cms.connections

/-- The parts of the state that `Connected` is about are the same. -/
structure SameConnection (w w' : MgrWorld) : Prop where
  started : w'.mgr.bStartedConnection = w.mgr.bStartedConnection
  connection : w'.mgr.connection = w.mgr.connection
  resourcemgr : w'.mgr.resourcemgr = w.mgr.resourcemgr
  sessionpool : w'.mgr.sessionpool = w.mgr.sessionpool
  cms : w'.cms = w.cms

theorem SameConnection.refl (w : MgrWorld) : SameConnection w w := ⟨rfl, rfl, rfl, rfl, rfl⟩

theorem SameConnection.setError {w u : MgrWorld} (h : SameConnection w u) (e : String) :
    SameConnection w (u.setError e) :=
  ⟨h.started, h.connection, h.resourcemgr, h.sessionpool, h.cms⟩

theorem SameConnection.setPool {w u : MgrWorld} (h : SameConnection w u) (p : ProducerPool) :
    SameConnection w { u with mgr.pool := p } :=
  ⟨h.started, h.connection, h.resourcemgr, h.sessionpool, h.cms⟩

theorem Connected.of_same {w w' : MgrWorld} (h : Connected w) (hsame : SameConnection w w') :
    Connected w' := by
  constructor
  · rw [hsame.started, hsame.connection, hsame.sessionpool, hsame.resourcemgr, hsame.cms]
    exact h.unstarted
  · rw [hsame.started]
    intro hs
    obtain ⟨k, hk⟩ := h.started hs
    refine ⟨k, ?_⟩
    unfold StartedOn
    rw [hsame.connection, hsame.sessionpool, hsame.resourcemgr, hsame.cms]
    exact hk
  · rw [hsame.cms]
    exact h.destroyed_lt

theorem connected_new : Connected .new :=
  ⟨fun _ => ⟨rfl, rfl, by simp [MgrWorld.new, ProducerPoolMgr.new]⟩, by
    simp [MgrWorld.new, ProducerPoolMgr.new], by simp [MgrWorld.new, Cms.init]⟩

/-! ## `CreateSessionPool` -/

/-- A connection was created and is destroyed again, and the members are as before. -/
structure Abandoned (w w' : MgrWorld) : Prop where
  started : w'.mgr.bStartedConnection = false
  connection : w'.mgr.connection = none
  sessionpool : w'.mgr.sessionpool = none
  resourcemgr : ∀ g, w'.mgr.resourcemgr = some g → w'.cms.managed.getD g [] = []
  connections : w'.cms.connections = w.cms.connections + 1
  destroyed : w'.cms.destroyed = w.cms.destroyed ++ [w.cms.connections]

/-- A new connection is in place, with its resource manager and session pool. -/
structure Opened (w w' : MgrWorld) : Prop where
  started : w'.mgr.bStartedConnection = true
  startedOn : StartedOn w' w.cms.connections
  managed : w'.mgr.resourcemgr ≠ none
  connections : w'.cms.connections = w.cms.connections + 1
  destroyed : w'.cms.destroyed = w.cms.destroyed

@[simp] theorem dropResourcemgr_connection (w : MgrWorld) :
    w.dropResourcemgr.mgr.connection = w.mgr.connection := by
  unfold MgrWorld.dropResourcemgr
  split <;> simp [MgrWorld.nullResourcemgr]

@[simp] theorem dropResourcemgr_started (w : MgrWorld) :
    w.dropResourcemgr.mgr.bStartedConnection = w.mgr.bStartedConnection := by
  unfold MgrWorld.dropResourcemgr
  split <;> simp [MgrWorld.nullResourcemgr]

@[simp] theorem dropResourcemgr_sessionpool (w : MgrWorld) :
    w.dropResourcemgr.mgr.sessionpool = w.mgr.sessionpool := by
  unfold MgrWorld.dropResourcemgr
  split <;> simp [MgrWorld.nullResourcemgr]

@[simp] theorem dropResourcemgr_resourcemgr (w : MgrWorld) :
    w.dropResourcemgr.mgr.resourcemgr = none := by
  unfold MgrWorld.dropResourcemgr
  split
  · rfl
  · assumption

@[simp] theorem dropResourcemgr_connections (w : MgrWorld) :
    w.dropResourcemgr.cms.connections = w.cms.connections := by
  unfold MgrWorld.dropResourcemgr MgrWorld.deleteResourcemgr
  cases hg : w.mgr.resourcemgr <;> rfl

@[simp] theorem dropResourcemgr_managed (w : MgrWorld) :
    w.dropResourcemgr.cms.managed = w.cms.managed := by
  unfold MgrWorld.dropResourcemgr MgrWorld.deleteResourcemgr
  cases hg : w.mgr.resourcemgr <;> rfl

/-- What the resource manager owned is destroyed with it. -/
theorem dropResourcemgr_destroyed (w : MgrWorld) :
    w.dropResourcemgr.cms.destroyed =
      w.cms.destroyed ++ (w.mgr.resourcemgr.map fun g => w.cms.managed.getD g []).getD [] := by
  unfold MgrWorld.dropResourcemgr MgrWorld.deleteResourcemgr
  cases hg : w.mgr.resourcemgr with
  | none => simp
  | some g => rfl

/-- Deleting a resource manager that owns nothing destroys no connection. -/
theorem dropResourcemgr_destroyed_of_empty {w : MgrWorld}
    (h : ∀ g, w.mgr.resourcemgr = some g → w.cms.managed.getD g [] = []) :
    w.dropResourcemgr.cms.destroyed = w.cms.destroyed := by
  rw [dropResourcemgr_destroyed]
  cases hg : w.mgr.resourcemgr with
  | none => simp
  | some g =>
      rw [Option.map_some, Option.getD_some, h g hg, List.append_nil]

/-- The state in which `addConnection` is called: a started connection, and a new resource manager
that owns nothing yet.
SOURCE: DSAMQProducerPoolMgr.cpp:149-171 -/
def connecting (w : MgrWorld) : MgrWorld :=
  (w.createConnection.setStarted true).dropResourcemgr.newResourcemgr

/-- The members and connections in that state. -/
structure Connecting (w w' : MgrWorld) : Prop where
  started : w'.mgr.bStartedConnection = true
  connection : w'.mgr.connection = some w.cms.connections
  sessionpool : w'.mgr.sessionpool = w.mgr.sessionpool
  resourcemgr : w'.mgr.resourcemgr = some w.cms.managed.length
  connections : w'.cms.connections = w.cms.connections + 1
  destroyed : w'.cms.destroyed = w.cms.destroyed
  managed : w'.cms.managed = w.cms.managed ++ [[]]

theorem connecting_spec {w : MgrWorld}
    (hempty : ∀ g, w.mgr.resourcemgr = some g → w.cms.managed.getD g [] = []) :
    Connecting w (connecting w) := by
  have hdestroyed : (w.createConnection.setStarted true).dropResourcemgr.cms.destroyed =
      w.cms.destroyed := dropResourcemgr_destroyed_of_empty hempty
  constructor
  · exact dropResourcemgr_started _
  · exact dropResourcemgr_connection _
  · exact dropResourcemgr_sessionpool _
  · simp [connecting, MgrWorld.newResourcemgr, Cms.newResourcemgr, MgrWorld.setStarted,
      MgrWorld.createConnection, Cms.createConnection]
  · exact dropResourcemgr_connections _
  · exact hdestroyed
  · simp [connecting, MgrWorld.newResourcemgr, Cms.newResourcemgr, MgrWorld.setStarted,
      MgrWorld.createConnection, Cms.createConnection]

/-- `start` throws: the connection is deleted. -/
theorem abandoned_of_start {w : MgrWorld} (hstarted : w.mgr.bStartedConnection = false)
    (hpool : w.mgr.sessionpool = none)
    (hempty : ∀ g, w.mgr.resourcemgr = some g → w.cms.managed.getD g [] = []) :
    Abandoned w w.createConnection.deleteConnection.nullConnection :=
  ⟨hstarted, rfl, hpool, hempty, rfl, rfl⟩

/-- `addConnection` throws: the connection is closed and deleted, and the new manager stays. -/
theorem abandoned_of_addConnection {w : MgrWorld} (hpool : w.mgr.sessionpool = none)
    (hempty : ∀ g, w.mgr.resourcemgr = some g → w.cms.managed.getD g [] = []) (msg : String) :
    ((connecting w).connectFailed msg).1 = false ∧
      Abandoned w ((connecting w).connectFailed msg).2 := by
  have h := connecting_spec hempty
  have hconn : ((connecting w).setError
      ("fail to CreateSessionPool, create connection exception, " ++ msg)).mgr.connection =
      some w.cms.connections := h.connection
  unfold MgrWorld.connectFailed
  simp only [hconn, true_and]
  constructor
  · rw [MgrWorld.nullConnection, deleteConnection_mgr]
    rfl
  · rfl
  · rw [MgrWorld.nullConnection, deleteConnection_mgr]
    exact h.sessionpool.trans hpool
  all_goals simp only [MgrWorld.nullConnection, MgrWorld.deleteConnection, MgrWorld.setStarted,
    hconn, Cms.deleteConnection]
  · intro g hg
    have hg' : some w.cms.managed.length = some g := h.resourcemgr.symm.trans hg
    obtain rfl := Option.some.inj hg'
    simp [MgrWorld.setError, h.managed]
  · exact h.connections
  · simp [MgrWorld.setError, h.destroyed]

/-- Nothing throws: the connection is added to the new manager, and the session pool is made. -/
theorem opened_of_ok {w : MgrWorld} (h : Connected w)
    (hempty : ∀ g, w.mgr.resourcemgr = some g → w.cms.managed.getD g [] = []) :
    Opened w ((connecting w).addConnection.resetSessionpool.setStarted true) := by
  have hc := connecting_spec hempty
  have hadd : (connecting w).addConnection = { connecting w with
      cms := (connecting w).cms.addConnection w.cms.managed.length w.cms.connections } := by
    simp [MgrWorld.addConnection, hc.resourcemgr, hc.connection]
  have hreset : (connecting w).addConnection.resetSessionpool =
      { (connecting w).addConnection with
        mgr.sessionpool := some ⟨w.cms.connections,
          AcknowledgeMode.select (connecting w).mgr.bClientAck, w.cms.managed.length⟩ } := by
    simp [MgrWorld.resetSessionpool, hc.resourcemgr, hc.connection]
  have hfresh : w.cms.connections ∉ w.cms.destroyed := fun hmem =>
    Nat.lt_irrefl _ (h.destroyed_lt _ hmem)
  rw [hreset, hadd]
  constructor
  · rfl
  · refine ⟨hc.connection, ?_, w.cms.managed.length, ⟨_, rfl⟩, .inl ⟨hc.resourcemgr, ?_, ?_⟩⟩
    · simp [MgrWorld.setStarted, Cms.addConnection, hc.connections]
    · simp [MgrWorld.setStarted, Cms.addConnection, hc.managed]
    · simpa [MgrWorld.setStarted, Cms.addConnection, hc.destroyed] using hfresh
  · simp [MgrWorld.setStarted, hc.resourcemgr]
  · simp [MgrWorld.setStarted, Cms.addConnection, hc.connections]
  · simp [MgrWorld.setStarted, Cms.addConnection, hc.destroyed]

/-- **What `CreateSessionPool` can do**, in every state that satisfies the invariant and for all
outcomes of its library calls. -/
theorem createSessionPool_cases {w : MgrWorld} (h : Connected w)
    (hcreated : w.mgr.pool.isCreated = true) (o : ConnectOutcomes) :
    (w.mgr.bStartedConnection = true ∧ w.createSessionPool o = (true, w)) ∨
      (w.mgr.bStartedConnection = false ∧
        ((∃ msg, o.createConnection = .cms msg ∧ w.createSessionPool o = (true, w.setError
            ("fail to CreateSessionPool, create connection exception, " ++ msg))) ∨
          (o.createConnection = .ok () ∧ (w.createSessionPool o).1 = false ∧
            Abandoned w (w.createSessionPool o).2) ∨
          (o.createConnection = .ok () ∧ (w.createSessionPool o).1 = true ∧
            Opened w (w.createSessionPool o).2))) := by
  cases hstarted : w.mgr.bStartedConnection with
  | true =>
      left
      simp [MgrWorld.createSessionPool, hcreated, hstarted]
  | false =>
      right
      refine ⟨rfl, ?_⟩
      obtain ⟨hconn, hpool, hempty⟩ := h.unstarted hstarted
      have hdrop : w.dropConnection = w := by simp [MgrWorld.dropConnection, hconn]
      obtain ⟨oc, os, oa⟩ := o
      simp only [MgrWorld.createSessionPool, hcreated, hstarted, hdrop, Bool.not_true,
        Bool.false_eq_true, if_false]
      cases oc with
      | cms msg =>
          left
          refine ⟨msg, rfl, ?_⟩
          simp [MgrWorld.connectFailed, MgrWorld.setError, hconn]
      | ok u =>
          right
          cases os with
          | cms msg => exact .inl ⟨rfl, rfl, abandoned_of_start hstarted hpool hempty⟩
          | ok u' =>
              cases oa with
              | cms msg => exact .inl ⟨rfl, abandoned_of_addConnection hpool hempty msg⟩
              | ok u'' => exact .inr ⟨rfl, rfl, opened_of_ok h hempty⟩

/-! ## The calls keep the invariant -/

theorem Abandoned.connected {w w' : MgrWorld} (h : Connected w) (ha : Abandoned w w') :
    Connected w' := by
  constructor
  · intro _
    exact ⟨ha.connection, ha.sessionpool, ha.resourcemgr⟩
  · intro hs
    rw [ha.started] at hs
    cases hs
  · intro k hk
    rw [ha.destroyed, List.mem_append, List.mem_singleton] at hk
    rw [ha.connections]
    rcases hk with hk | rfl
    · exact Nat.lt_succ_of_lt (h.destroyed_lt k hk)
    · exact Nat.lt_succ_self _

theorem Opened.connected {w w' : MgrWorld} (h : Connected w) (ho : Opened w w') :
    Connected w' := by
  constructor
  · intro hs
    rw [ho.started] at hs
    cases hs
  · intro _
    exact ⟨_, ho.startedOn⟩
  · intro k hk
    rw [ho.destroyed] at hk
    rw [ho.connections]
    exact Nat.lt_succ_of_lt (h.destroyed_lt k hk)

theorem connected_createSessionPool {w : MgrWorld} (h : Connected w) (o : ConnectOutcomes) :
    Connected (w.createSessionPool o).2 := by
  cases hcreated : w.mgr.pool.isCreated with
  | false =>
      simp only [MgrWorld.createSessionPool, hcreated, Bool.not_false, if_true]
      exact h.of_same ((SameConnection.refl w).setError _)
  | true =>
      rcases createSessionPool_cases h hcreated o with
        ⟨-, heq⟩ | ⟨-, ⟨msg, -, heq⟩ | ⟨-, -, ha⟩ | ⟨-, -, ho⟩⟩
      · rw [heq]
        exact h
      · rw [heq]
        exact h.of_same ((SameConnection.refl w).setError _)
      · exact ha.connected h
      · exact ho.connected h

/-- `ReleaseResource`: the connection that the manager owned is destroyed, and the other members
still refer to it. -/
theorem connected_releaseResource {w : MgrWorld} (h : Connected w) :
    Connected w.releaseResource := by
  have hdestroyed := dropResourcemgr_destroyed w
  constructor
  · intro hs
    have hs' : w.mgr.bStartedConnection = false := (dropResourcemgr_started w).symm.trans hs
    obtain ⟨hconn, hpool, -⟩ := h.unstarted hs'
    refine ⟨(dropResourcemgr_connection w).trans hconn,
      (dropResourcemgr_sessionpool w).trans hpool, ?_⟩
    intro g hg
    have hnone := (dropResourcemgr_resourcemgr w).symm.trans hg
    cases hnone
  · intro hs
    have hs' : w.mgr.bStartedConnection = true := (dropResourcemgr_started w).symm.trans hs
    obtain ⟨k, hconn, hlt, g, ⟨mode, hpool⟩, hcase⟩ := h.started hs'
    refine ⟨k, (dropResourcemgr_connection w).trans hconn, ?_, g,
      ⟨mode, (dropResourcemgr_sessionpool w).trans hpool⟩,
      .inr ⟨dropResourcemgr_resourcemgr w, ?_⟩⟩
    · rw [MgrWorld.releaseResource, dropResourcemgr_connections]
      exact hlt
    · rw [MgrWorld.releaseResource, hdestroyed]
      rcases hcase with ⟨hg, hmanaged, -⟩ | ⟨-, hmem⟩
      · rw [hg, Option.map_some, Option.getD_some, hmanaged]
        simp
      · exact List.mem_append_left _ hmem
  · intro k hk
    rw [MgrWorld.releaseResource, dropResourcemgr_connections]
    rw [MgrWorld.releaseResource, hdestroyed] at hk
    rcases List.mem_append.mp hk with hk | hk
    · exact h.destroyed_lt k hk
    · -- what it owned is the current connection, if anything
      cases hg : w.mgr.resourcemgr with
      | none =>
          rw [hg] at hk
          cases hk
      | some g =>
          rw [hg, Option.map_some, Option.getD_some] at hk
          cases hs : w.mgr.bStartedConnection with
          | false =>
              rw [(h.unstarted hs).2.2 g hg] at hk
              cases hk
          | true =>
              obtain ⟨k', -, hlt, g', -, hcase⟩ := h.started hs
              rcases hcase with ⟨hg', hmanaged, -⟩ | ⟨hnone, -⟩
              · obtain rfl : g' = g := Option.some.inj (hg'.symm.trans hg)
                rw [hmanaged, List.mem_singleton] at hk
                rw [hk]
                exact hlt
              · rw [hnone] at hg
                cases hg

theorem sameConnection_createPool (w : MgrWorld) (c : CreateCall) (alloc : Alloc) :
    SameConnection w (w.createPool c alloc).2 := by
  have hfill : ∀ (u : MgrWorld) (m : UInt32), SameConnection w u →
      SameConnection w (u.fillPool m alloc).2 := by
    intro u m hu
    unfold MgrWorld.fillPool
    dsimp only
    split
    · exact (hu.setPool _).setError _
    · exact hu.setPool _
  cases c with
  | short n b u =>
      simp only [MgrWorld.createPool, MgrWorld.createPoolShort]
      split
      · exact (SameConnection.refl w).setError _
      · split
        · exact (SameConnection.refl w).setError _
        · exact hfill _ _ ⟨rfl, rfl, rfl, rfl, rfl⟩
  | full n b u t a =>
      simp only [MgrWorld.createPool, MgrWorld.createPoolFull]
      split
      · exact (SameConnection.refl w).setError _
      · exact hfill _ _ ⟨rfl, rfl, rfl, rfl, rfl⟩

theorem sameConnection_sendOn (w : MgrWorld) (s : SessionId) (msg : String)
    (o : MgrSendOutcomes) : SameConnection w (w.sendOn s msg o).2.1 := by
  unfold MgrWorld.sendOn
  split
  · exact .refl w
  · dsimp only
    split
    · exact ((SameConnection.refl w).setPool _).setError _
    · exact ((SameConnection.refl w).setPool _).setError _
  · dsimp only
    split
    · exact (SameConnection.refl w).setPool _
    · rename_i bSent error sent pool hitem
      have hsent : SameConnection w (if bSent then { w with mgr.pool := pool }
          else { w with mgr.pool := pool }.setError ("fail to sendmessage, " ++ error)) := by
        split
        · exact (SameConnection.refl w).setPool pool
        · exact ((SameConnection.refl w).setPool pool).setError _
      split
      · exact hsent
      · split
        · exact hsent
        · exact hsent.setPool _

theorem sameConnection_sendTake (w : MgrWorld) (msg : String) (o : MgrSendOutcomes) :
    SameConnection w (w.sendTake msg o).2.1 := by
  unfold MgrWorld.sendTake
  split
  · exact .refl w
  · exact (SameConnection.refl w).setError _
  · exact (SameConnection.refl w).setError _
  · exact sameConnection_sendOn w _ msg o

theorem connected_sendConnect {w : MgrWorld} (h : Connected w) (o : ConnectOutcomes) :
    Connected (w.sendConnect o).2 := by
  unfold MgrWorld.sendConnect
  split
  · exact h
  · exact connected_createSessionPool h o

/-- What depends on the connection only is kept by `sendmessage` if its connection part keeps it. -/
theorem sendmessage_inv {I : MgrWorld → Prop} {w : MgrWorld}
    (hsame : ∀ u u', I u → SameConnection u u' → I u') (h : I w) (msg : String)
    (o : MgrSendOutcomes) (hconnect : I (w.sendConnect o.connect).2) :
    I (w.sendmessage msg o).2.1 := by
  unfold MgrWorld.sendmessage
  dsimp only
  split
  · exact hsame _ _ h ((SameConnection.refl w).setError _)
  · split
    · exact hsame _ _ hconnect (sameConnection_sendTake _ msg o)
    · exact hconnect

theorem connected_sendmessage {w : MgrWorld} (h : Connected w) (msg : String)
    (o : MgrSendOutcomes) : Connected (w.sendmessage msg o).2.1 :=
  sendmessage_inv (fun _ _ hu hsame => hu.of_same hsame) h msg o (connected_sendConnect h o.connect)

/-- **The step lemma**: every call keeps the invariant, whatever the library calls do. -/
theorem connected_step {w : MgrWorld} (h : Connected w) (op : MgrOp) : Connected (op.exec w) := by
  cases op with
  | createPool c alloc => exact h.of_same (sameConnection_createPool w c alloc)
  | createSessionPool o => exact connected_createSessionPool h o
  | sendmessage msg o => exact connected_sendmessage h msg o
  | releaseResource => exact connected_releaseResource h

/-- The invariant holds after any sequence of calls on a new manager. -/
theorem connected_of_run {ops : List MgrOp} {w : MgrWorld}
    (hrun : MgrWorld.machine.run .new ops = some w) : Connected w := by
  refine Machine.run_inv ?_ connected_new hrun
  intro w op w' h hstep
  cases hstep
  exact connected_step h op

end DsAmq.Analysis
