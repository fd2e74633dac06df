import DsAmq.Analysis.MgrConnection
import DsAmq.Library.Ledger

/-!
# The owner of the manager's connections

Inside `CreateSessionPool` a connection passes from `m_connection` to the resource manager, and
each of the three library calls on the way may throw.  Between the calls on a manager every
connection that was ever created has been destroyed once or is the one that the resource manager
owns (`OneOwner`), whatever `m_connection` still points to; so the destructor destroys the last
one (`connections_have_one_owner`).
-/

set_option autoImplicit false

namespace DsAmq.Analysis

open DsAmq.Model DsAmq.Library

/-- The connections that the resource manager of the manager owns. -/
def ownedConnections (w : MgrWorld) : List ConnectionId :=
  (w.mgr.resourcemgr.map fun g => w.cms.managed.getD g []).getD []

/-- Every connection has been destroyed once, or is the one that the resource manager owns. -/
structure OneOwner (w : MgrWorld) : Prop where
  ledger : Ledger w.cms.connections w.cms.destroyed (ownedConnections w)
  atMostOne : (ownedConnections w).length ≤ 1

variable {w w' : MgrWorld}

/-- While the connection is not started, the resource manager owns nothing. -/
theorem ownedConnections_of_unstarted
    (h : ∀ g, w.mgr.resourcemgr = some g → w.cms.managed.getD g [] = []) :
    ownedConnections w = [] := by
  unfold ownedConnections
  cases hg : w.mgr.resourcemgr with
  | none => rfl
  | some g => exact h g hg

theorem ownedConnections_of_same (h : SameConnection w w') :
    ownedConnections w' = ownedConnections w := by
  unfold ownedConnections
  rw [h.resourcemgr, h.cms]

/-- A new connection is owned by the new resource manager. -/
theorem Opened.ownedConnections_eq (h : Opened w w') :
    ownedConnections w' = [w.cms.connections] := by
  obtain ⟨-, -, g, -, ⟨hg, hmanaged, -⟩ | ⟨hnone, -⟩⟩ := h.startedOn
  · unfold ownedConnections
    rw [hg]
    exact hmanaged
  · exact absurd hnone h.managed

/-! ## The calls keep the account -/

theorem OneOwner.of_same (h : OneOwner w) (hsame : SameConnection w w') : OneOwner w' := by
  constructor
  · rw [ownedConnections_of_same hsame, hsame.cms]
    exact h.ledger
  · rw [ownedConnections_of_same hsame]
    exact h.atMostOne

/-- The connection that was created is destroyed again. -/
theorem OneOwner.of_abandoned (h : OneOwner w) (hnone : ownedConnections w = [])
    (ha : Abandoned w w') : OneOwner w' := by
  have hnone' : ownedConnections w' = [] := ownedConnections_of_unstarted ha.resourcemgr
  have hledger := h.ledger
  rw [hnone] at hledger
  constructor
  · rw [hnone', ha.connections, ha.destroyed]
    exact hledger.create.destroy
  · rw [hnone']
    exact Nat.zero_le 1

/-- The connection that was created passes to the resource manager. -/
theorem OneOwner.of_opened (h : OneOwner w) (hnone : ownedConnections w = [])
    (ho : Opened w w') : OneOwner w' := by
  have hledger := h.ledger
  rw [hnone] at hledger
  constructor
  · rw [ho.ownedConnections_eq, ho.connections, ho.destroyed]
    exact hledger.create
  · rw [ho.ownedConnections_eq]
    exact Nat.le_refl 1

theorem oneOwner_createSessionPool (hc : Connected w) (h : OneOwner w) (o : ConnectOutcomes) :
    OneOwner (w.createSessionPool o).2 := by
  cases hcreated : w.mgr.pool.isCreated with
  | false =>
      simp only [MgrWorld.createSessionPool, hcreated, Bool.not_false, if_true]
      exact h.of_same ((SameConnection.refl w).setError _)
  | true =>
      rcases createSessionPool_cases hc hcreated o with
        ⟨-, heq⟩ | ⟨hs, ⟨msg, -, heq⟩ | ⟨-, -, ha⟩ | ⟨-, -, ho⟩⟩
      · rw [heq]
        exact h
      · rw [heq]
        exact h.of_same ((SameConnection.refl w).setError _)
      · exact h.of_abandoned (ownedConnections_of_unstarted (hc.unstarted hs).2.2) ha
      · exact h.of_opened (ownedConnections_of_unstarted (hc.unstarted hs).2.2) ho

/-- `ReleaseResource` destroys what the resource manager owns. -/
theorem ledger_releaseResource (h : OneOwner w) :
    ownedConnections w.releaseResource = [] ∧
      Ledger w.releaseResource.cms.connections w.releaseResource.cms.destroyed [] := by
  have hmgr : w.releaseResource.mgr.resourcemgr = none := dropResourcemgr_resourcemgr w
  constructor
  · unfold ownedConnections
    rw [hmgr]
    rfl
  · unfold MgrWorld.releaseResource
    rw [dropResourcemgr_connections, dropResourcemgr_destroyed]
    exact h.ledger.destroyAll

theorem oneOwner_releaseResource (h : OneOwner w) : OneOwner w.releaseResource := by
  obtain ⟨hnone, hledger⟩ := ledger_releaseResource h
  constructor
  · rw [hnone]
    exact hledger
  · rw [hnone]
    exact Nat.zero_le 1

theorem oneOwner_sendmessage (hc : Connected w) (h : OneOwner w) (msg : String)
    (o : MgrSendOutcomes) : OneOwner (w.sendmessage msg o).2.1 := by
  have hconnect : OneOwner (w.sendConnect o.connect).2 := by
    unfold MgrWorld.sendConnect
    split
    · exact h
    · exact oneOwner_createSessionPool hc h o.connect
  exact sendmessage_inv (fun _ _ hu hsame => hu.of_same hsame) h msg o hconnect

/-- **The step lemma**: every call keeps the account, whatever the library calls do. -/
theorem oneOwner_step (hc : Connected w) (h : OneOwner w) (op : MgrOp) : OneOwner (op.exec w) := by
  cases op with
  | createPool c alloc => exact h.of_same (sameConnection_createPool w c alloc)
  | createSessionPool o => exact oneOwner_createSessionPool hc h o
  | sendmessage msg o => exact oneOwner_sendmessage hc h msg o
  | releaseResource => exact oneOwner_releaseResource h

/-- The account is right after any sequence of calls on a new manager. -/
theorem oneOwner_of_run {ops : List MgrOp} (hrun : MgrWorld.machine.run .new ops = some w) :
    OneOwner w := by
  have hnew : Connected .new ∧ OneOwner .new :=
    ⟨connected_new, Ledger.empty, Nat.zero_le 1⟩
  refine (Machine.run_inv (I := fun w => Connected w ∧ OneOwner w) ?_ hnew hrun).2
  intro w op w' h hstep
  cases hstep
  exact ⟨connected_step h.1 op, oneOwner_step h.1 h.2 op⟩

/-- **Producer-side connections have exactly one owner.**  After any sequence of calls on a new
manager, with all outcomes of the library calls: at most one connection is undestroyed, none has
been destroyed twice, and the destructor then leaves every connection that was ever created
destroyed exactly once. -/
theorem connections_have_one_owner {ops : List MgrOp}
    (hrun : MgrWorld.machine.run .new ops = some w) :
    (∀ k k', w.cms.Live k → w.cms.Live k' → k = k') ∧ w.cms.destroyed.Nodup ∧
      w.destructor.cms.connections = w.cms.connections ∧
      ∀ k < w.cms.connections, w.destructor.cms.destroyed.count k = 1 := by
  have h := oneOwner_of_run hrun
  have hconnections : w.destructor.cms.connections = w.cms.connections :=
    dropResourcemgr_connections w
  refine ⟨?_, h.ledger.nodup, hconnections, ?_⟩
  · intro k k' hk hk'
    have hmem : k ∈ ownedConnections w := h.ledger.mem_owned_iff.mpr hk
    have hmem' : k' ∈ ownedConnections w := h.ledger.mem_owned_iff.mpr hk'
    obtain ⟨i, hi, rfl⟩ := List.getElem_of_mem hmem
    obtain ⟨j, hj, rfl⟩ := List.getElem_of_mem hmem'
    have hone := h.atMostOne
    obtain rfl : i = j := by omega
    rfl
  · intro k hk
    apply (ledger_releaseResource h).2.count_destroyed
    rw [← hconnections] at hk
    exact hk

/-- `start` throws, then `addConnection` throws, then the connection is made; it is released, and
`CreateSessionPool` and `ReleaseResource` are called again. -/
def failedThenReleased : List MgrOp :=
  [.createPool (.full 1 "broker" "orders" false true) .ok,
    .createSessionPool ⟨.ok (), .cms "refused", .ok ()⟩,
    .createSessionPool ⟨.ok (), .ok (), .cms "closed"⟩,
    .createSessionPool ⟨.ok (), .ok (), .ok ()⟩, .releaseResource,
    .createSessionPool ⟨.ok (), .ok (), .ok ()⟩, .releaseResource]

theorem connections_have_one_owner_failed_then_released :
    ∃ w, MgrWorld.machine.run .new failedThenReleased = some w ∧ w.cms.connections = 3 ∧
      w.cms.destroyed = [0, 1, 2] ∧ w.cms.destroyed.Nodup ∧
      w.destructor.cms.destroyed.count 2 = 1 := by
  have hrun : (MgrWorld.machine.run .new failedThenReleased).map (fun w => w.cms) =
      some ⟨3, [0, 1, 2], [[], [2]], [0, 1]⟩ := by
    decide +kernel
  obtain ⟨w, hrun, hcms⟩ := Option.map_eq_some_iff.mp hrun
  obtain ⟨-, hnodup, -, hcount⟩ := connections_have_one_owner hrun
  rw [hcms] at hcount
  refine ⟨w, hrun, ?_, ?_, hnodup, hcount 2 (by decide)⟩
  · rw [hcms]
  · rw [hcms]

end DsAmq.Analysis
