import DsAmq.Analysis.StartResources
import DsAmq.Analysis.StartTruth

/-!
# What a failed `StartProcess` leaves behind

`StartProcess` acquires its resources one after the other, straight into the static members, and
releases none of them when a later library call throws.  So it leaves nothing behind exactly when it
fails before it has a connection, or does not fail at all (`failed_start_clean_iff`).
-/

set_option autoImplicit false

namespace DsAmq.Analysis

open DsAmq.Model DsAmq.Library

/-- What a call that led from `w` to `w'` created has been released, and the members that hold
resources are as they were. -/
structure NothingLeft (w w' : PoolWorld) : Prop where
  connections : ∀ k, w.cms.connections ≤ k → k < w'.cms.connections → k ∈ w'.cms.destroyed
  resourcemgrs : ∀ g, w.cms.managed.length ≤ g → g < w'.cms.managed.length →
    g ∈ w'.cms.deletedMgrs
  executors : ∀ e x, w.executors.length ≤ e → w'.executors[e]? = some x → x.deleted = true
  tasks : ∀ p, Live w' p → Live w p
  connection : w'.pool.connection = w.pool.connection
  resourcemgr : w'.pool.resourcemgr = w.pool.resourcemgr
  sessionpool : w'.pool.sessionpool = w.pool.sessionpool
  threadPool : w'.pool.threadPool = w.pool.threadPool
  sTask : w'.pool.sTask = w.pool.sTask

/-- The call does not get a connection, or gets to the loop and has every task accepted. -/
def failsClean (w : PoolWorld) (a : StartArgs) (o : StartOutcomes) : Bool :=
  !createsConnection w a o || (reachesLoop w a o && !executeThrows a o)

variable {w w' : PoolWorld} {a : StartArgs} {o : StartOutcomes} {r : PoolWorld.StartResult}

/-- A call that acquires nothing leaves nothing behind. -/
theorem NothingLeft.of_same (hresources : SameResources w w') (htasks : SameTasks w w') :
    NothingLeft w w' := by
  constructor
  · intro k hle hlt
    rw [hresources.cms] at hlt
    exact absurd hlt (Nat.not_lt_of_le hle)
  · intro g hle hlt
    rw [hresources.cms] at hlt
    exact absurd hlt (Nat.not_lt_of_le hle)
  · intro e x hle hx
    rw [htasks.executors] at hx
    obtain ⟨hlt, -⟩ := List.getElem?_eq_some_iff.mp hx
    exact absurd hlt (Nat.not_lt_of_le hle)
  · intro p hp
    unfold Live at *
    rw [htasks.heap] at hp
    exact hp
  · exact hresources.connection
  · exact hresources.resourcemgr
  · exact hresources.sessionpool
  · exact htasks.threadPool
  · exact htasks.sTask

/-! ## The connection of a reachable state -/

/-- The connection that `m_connection` points to has been created. -/
def ConnectionCreated (w : PoolWorld) : Prop :=
  ∀ k, w.pool.connection = some k → k < w.cms.connections

/-- A call that creates a connection stores it in `m_connection`. -/
theorem connection_of_creates (h : w.startProcess a o = some (r, w'))
    (hcreates : createsConnection w a o = true) :
    w'.pool.connection = some w.cms.connections ∧
      w'.cms.connections = w.cms.connections + 1 := by
  cases acquired_of_startProcess h with
  | nothing hnot =>
      rw [hnot] at hcreates
      cases hcreates
  | connection _ _ _ => exact ⟨rfl, rfl⟩
  | resourcemgr _ hconnection _ hconnections _ _ => exact ⟨hconnection, hconnections⟩

theorem connectionCreated_start (h : ConnectionCreated w)
    (hstart : w.startProcess a o = some (r, w')) : ConnectionCreated w' := by
  intro k hk
  cases hcreates : createsConnection w a o with
  | true =>
      obtain ⟨hconnection, hconnections⟩ := connection_of_creates hstart hcreates
      obtain rfl := Option.some.inj (hconnection.symm.trans hk)
      rw [hconnections]
      exact Nat.lt_succ_self _
  | false =>
      cases acquired_of_startProcess hstart with
      | nothing _ hresources _ =>
          rw [hresources.connection] at hk
          rw [hresources.cms]
          exact h k hk
      | connection htrue _ _ =>
          rw [hcreates] at htrue
          cases htrue
      | resourcemgr hmakes _ _ _ _ _ =>
          simp [makesResourcemgr, hcreates] at hmakes

/-- **The step lemma.** -/
theorem connectionCreated_step {op : PoolOp} (h : ConnectionCreated w)
    (hop : op.exec w = some w') : ConnectionCreated w' := by
  cases op with
  | start a o =>
      obtain ⟨⟨r, w''⟩, hstart, rfl⟩ := Option.map_eq_some_iff.mp hop
      exact connectionCreated_start h hstart
  | stop =>
      cases hop
      intro k hk
      rw [stopProcess_pool] at hk
      cases hg : w.pool.resourcemgr with
      | none =>
          rw [stopProcess_cms_none hg]
          exact h k hk
      | some g =>
          rw [stopProcess_cms_some hg]
          exact h k hk
  | complete e p q x =>
      have hsame := sameResources_afterExecute hop
      intro k hk
      rw [hsame.connection] at hk
      rw [hsame.cms]
      exact h k hk

theorem connectionCreated_of_run {ops : List PoolOp}
    (hrun : PoolWorld.machine.run .new ops = some w) : ConnectionCreated w := by
  refine Machine.run_inv (I := ConnectionCreated) ?_ ?_ hrun
  · intro w op w' h hop
    exact connectionCreated_step h hop
  · intro k hk
    cases hk

/-! ## What is left -/

/-- **When a failed `StartProcess` leaves nothing behind.**  In every state that calls and
completions lead to, for all arguments and all outcomes of the library calls: that the call, if it
returns false, has released all that it created and left the members as they were, holds if and only
if it does not get a connection (the pool is started, a URI is empty, or `createConnection` throws),
or no later library call fails. -/
theorem failed_start_clean_iff {ops : List PoolOp} (hrun : PoolWorld.machine.run .new ops = some w)
    (hstart : w.startProcess a o = some (r, w')) :
    (r.result = false → NothingLeft w w') ↔ failsClean w a o = true := by
  have hconnection := connectionCreated_of_run hrun
  cases hcreates : createsConnection w a o with
  | false =>
      simp only [failsClean, hcreates, Bool.not_false, Bool.true_or, iff_true]
      intro _
      cases acquired_of_startProcess hstart with
      | nothing _ hresources htasks => exact NothingLeft.of_same hresources htasks
      | connection htrue _ _ =>
          rw [hcreates] at htrue
          cases htrue
      | resourcemgr hmakes _ _ _ _ _ =>
          simp [makesResourcemgr, hcreates] at hmakes
  | true =>
      have hempty : w.pool.sTask = ∅ := by
        simp only [createsConnection, Bool.and_eq_true, decide_eq_true_eq] at hcreates
        exact hcreates.1.1
      have hresult := startProcess_result hstart hempty
      simp only [failsClean, hcreates, Bool.not_true, Bool.false_or, Bool.and_eq_true,
        Bool.not_eq_true', ← hresult]
      constructor
      · intro hleft
        by_contra hfalse
        rw [Bool.not_eq_true] at hfalse
        -- `m_connection` points to the new connection
        have hsame := (hleft hfalse).connection
        rw [(connection_of_creates hstart hcreates).1] at hsame
        exact Nat.lt_irrefl _ (hconnection _ hsame.symm)
      · intro htrue hfalse
        rw [htrue] at hfalse
        cases hfalse

/-- On a pool that has been stopped, `createConnection` throws. -/
theorem failed_start_clean_no_connection :
    ∃ w, PoolWorld.machine.run .new [.start twoSlots (allReturn fun _ => .ok), .stop] = some w ∧
      ∃ w', w.startProcess twoSlots
          { allReturn fun _ => .ok with createConnection := .cms "refused" } =
        some (⟨false, some "exception, refused"⟩, w') ∧ NothingLeft w w' := by
  have hrun : (PoolWorld.machine.run .new
      [.start twoSlots (allReturn fun _ => .ok), .stop]).map (fun w => w.pool.sTask) = some ∅ := by
    decide +kernel
  obtain ⟨w, hrun, hempty⟩ := Option.map_eq_some_iff.mp hrun
  have hstart : w.startProcess twoSlots
      { allReturn fun _ => .ok with createConnection := .cms "refused" } =
      some (⟨false, some "exception, refused"⟩, w.setMembers twoSlots) := by
    unfold PoolWorld.startProcess
    rw [if_neg (not_not.mpr hempty)]
    rfl
  have hclean : failsClean w twoSlots
      { allReturn fun _ => .ok with createConnection := .cms "refused" } = true := by
    simp [failsClean, createsConnection, Outcome.throws]
  exact ⟨w, hrun, _, hstart, (failed_start_clean_iff hrun hstart).mpr hclean rfl⟩

/-- `Connection::start` throws on the first call: it returns false, and the connection it has
created is neither released nor forgotten. -/
theorem failed_start_keeps_connection :
    ∃ w', PoolWorld.new.startProcess twoSlots
        { allReturn fun _ => .ok with start := .cms "refused" } =
      some (⟨false, some "exception, refused"⟩, w') ∧
      w'.pool.connection = some 0 ∧ w'.cms.Live 0 ∧ ¬ NothingLeft .new w' := by
  refine ⟨_, rfl, rfl, by decide, ?_⟩
  intro hleft
  cases hleft.connection

end DsAmq.Analysis
