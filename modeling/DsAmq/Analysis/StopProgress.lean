import Mathlib.Data.Fintype.EquivFin
import DsAmq.Analysis.StopCleanly

/-!
# `StopProcess` comes to its end

Every statement of `StopProcess` and of an `afterExecute` call, and every completion, uses up some
of `stopSize`; only an `execute` that accepts a task adds to it (`stopSize_step`), and after
`shutdown` there is none.  On the other side there is always a statement that can be taken without a
new task: a completion while the executor has tasks, then the `afterExecute` calls, then
`StopProcess` itself (`Stopping.exists_move`).
-/

set_option autoImplicit false

namespace DsAmq.Analysis

open DsAmq.Model DsAmq.Library

variable {w w' : PoolWorld} {s s' : StopSystem} {a : StopAction}

/-! ## What is left to do -/

/-- The statements that an `afterExecute` call has before it, at most. -/
def afterSize : AfterPc → ℕ
  | .testOpen => 7
  | .find => 6
  | .erase => 5
  | .new => 4
  | .insert _ => 3
  | .execute _ => 2
  | .delete => 1
  | .ended => 0

/-- The statements that `StopProcess` has before it, at most. -/
def stopPcSize : StopPc → ℕ
  | .stop => 13
  | .testPool => 12
  | .shutdown => 11
  | .stopAgain => 10
  | .awaitTermination => 9
  | .shutdownNow => 8
  | .awaitAgain => 7
  | .deletePool => 6
  | .nullPool => 5
  | .clear => 4
  | .testResourcemgr => 3
  | .deleteResourcemgr => 2
  | .resetSessionpool => 1
  | .returned => 0

/-- The steps that the system has before it, at most, if no task is accepted any more. -/
def stopSize (s : StopSystem) : ℕ :=
  stopPcSize s.stop + 8 * s.world.accepted.length + (s.afters.map fun c => afterSize c.pc).sum

/-- The executor accepts a task. -/
def acceptsTask : StopAction → Bool
  | .after _ (.execute .ok) => true
  | _ => false

/-- A step of `afterExecute`: only an `execute` call that returns gives the executor a task. -/
theorem afterSize_step {p : TaskPtr} {pc pc' : AfterPc} {r : PoolReply}
    (h : pc.step p w r = some (w', pc')) :
    afterSize pc' + 8 * w'.accepted.length + 1 ≤
      afterSize pc + 8 * w.accepted.length + 8 * (if r = .execute .ok then 1 else 0) := by
  cases pc with
  | new =>
      cases r with
      | address q =>
          simp only [AfterPc.step] at h
          split at h
          · cases h
            show 3 + 8 * w.accepted.length + 1 ≤ 4 + 8 * w.accepted.length + _
            omega
          · cases h
      | _ => cases h
  | execute q =>
      cases r with
      | execute x =>
          cases h
          by_cases hx : x = .ok
          · subst hx
            have hlen : (w.execute q .ok).accepted.length ≤ w.accepted.length + 1 := by
              cases he : w.pool.threadPool <;> simp [PoolWorld.execute, he]
            simp only [afterSize, if_true]
            omega
          · rw [execute_accepted_throws hx]
            simp only [afterSize]
            omega
      | _ => cases h
  | ended => cases r <;> cases h
  | testOpen =>
      cases r with
      | tau =>
          cases h
          split <;> simp only [afterSize] <;> omega
      | _ => cases h
  | find =>
      cases r with
      | tau =>
          cases h
          split <;> simp only [afterSize] <;> omega
      | _ => cases h
  | erase =>
      cases r with
      | tau =>
          cases h
          show 4 + 8 * w.accepted.length + 1 ≤ 5 + 8 * w.accepted.length + _
          omega
      | _ => cases h
  | insert q =>
      cases r with
      | tau =>
          cases h
          show 2 + 8 * w.accepted.length + 1 ≤ 3 + 8 * w.accepted.length + _
          omega
      | _ => cases h
  | delete =>
      cases r with
      | tau =>
          cases h
          show 0 + 8 * w.accepted.length + 1 ≤ 1 + 8 * w.accepted.length + _
          omega
      | _ => cases h

/-- A step of `StopProcess`. -/
theorem stopPcSize_step {pc pc' : StopPc} {r : StopReply} (h : pc.step w r = some (w', pc')) :
    stopPcSize pc' + 1 ≤ stopPcSize pc ∧ w'.accepted.length ≤ w.accepted.length := by
  cases pc with
  | shutdownNow =>
      cases r with
      | notExecuted ps =>
          simp only [StopPc.step] at h
          split at h
          · cases h
            exact ⟨by decide, List.length_filter_le _ _⟩
          · cases h
      | _ => cases h
  | awaitTermination | awaitAgain =>
      cases r with
      | awaited o =>
          cases o <;> cases h <;> exact ⟨by decide, le_refl _⟩
      | _ => cases h
  | testPool | testResourcemgr =>
      cases r with
      | tau =>
          cases h
          split <;> exact ⟨by decide, le_refl _⟩
      | _ => cases h
  | shutdown =>
      cases r with
      | tau =>
          cases h
          exact ⟨by decide, by rw [shutdown_frame.2.1]⟩
      | _ => cases h
  | deletePool =>
      cases r with
      | tau =>
          cases h
          exact ⟨by decide, by rw [deletePool_frame.2.1]⟩
      | _ => cases h
  | deleteResourcemgr =>
      cases r with
      | tau =>
          cases h
          exact ⟨by decide, by rw [deleteResourcemgr_frame.2.1]⟩
      | _ => cases h
  | returned => cases r <;> cases h
  | stop | stopAgain | nullPool | clear | resetSessionpool =>
      cases r with
      | tau =>
          cases h
          exact ⟨by decide, le_refl _⟩
      | _ => cases h

/-- **The step lemma of the account.** -/
theorem stopSize_step (h : s.step a = some s') :
    stopSize s' + 1 ≤ stopSize s + 8 * (acceptsTask a).toNat := by
  cases stopMove_of_step h with
  | @complete e p hp =>
      have hlen : (completed s.world e p).accepted.length + 1 = s.world.accepted.length :=
        List.length_erase_add_one hp
      simp only [stopSize, List.map_append, List.sum_append, List.map_singleton,
        List.sum_singleton, afterSize]
      omega
  | @after j r c w' pc' hc hok hnull hstep =>
      have hsize := afterSize_step hstep
      have hsum := Threads.sum_map_set_add (b := { c with pc := pc' })
        (fun c : AfterCall => afterSize c.pc) hc
      have hcount : (if r = .execute .ok then 1 else 0) = (acceptsTask (.after j r)).toNat := by
        cases r with
        | execute x => cases x <;> rfl
        | _ => rfl
      rw [hcount] at hsize
      simp only [stopSize]
      simp only at hsum
      omega
  | stop hterm hstep =>
      obtain ⟨hpc, hlen⟩ := stopPcSize_step hstep
      simp only [stopSize]
      omega

/-! ## After `shutdown` -/

/-- The executor is not open, and so it accepts no task. -/
theorem acceptsTask_of_closed (hclosed : s.world.isOpen = false) (h : s.step a = some s') :
    acceptsTask a = false := by
  cases stopMove_of_step h with
  | complete hp => rfl
  | stop hterm hstep => rfl
  | @after j r c w' pc' hc hok hnull hstep =>
      cases r with
      | execute x =>
          cases x with
          | ok =>
              rw [hok rfl] at hclosed
              cases hclosed
          | _ => rfl
      | _ => rfl

theorem SamePool.isOpen (h : SamePool w w') : w'.isOpen = w.isOpen := by
  unfold PoolWorld.isOpen
  rw [h.threadPool, h.executors]

theorem isOpen_shutdown : w.shutdown.isOpen = false := by
  cases he : w.pool.threadPool with
  | none => simp [PoolWorld.isOpen, PoolWorld.shutdown, he]
  | some e =>
      cases hx : w.executors[e]? <;> simp [PoolWorld.isOpen, PoolWorld.shutdown, he, hx]

theorem isOpen_deletePool : w.deletePool.isOpen = w.isOpen := by
  cases he : w.pool.threadPool with
  | none => simp [PoolWorld.isOpen, PoolWorld.deletePool, he]
  | some e =>
      cases hx : w.executors[e]? <;> simp [PoolWorld.isOpen, PoolWorld.deletePool, he, hx]

theorem isOpen_deleteResourcemgr : w.deleteResourcemgr.isOpen = w.isOpen := by
  unfold PoolWorld.deleteResourcemgr
  split <;> rfl

/-- An executor that is not open stays so. -/
theorem isOpen_step (hclosed : s.world.isOpen = false) (h : s.step a = some s') :
    s'.world.isOpen = false := by
  cases stopMove_of_step h with
  | complete hp => exact hclosed
  | after hc hok hnull hstep => exact (samePool_after hstep).isOpen.trans hclosed
  | @stop r w' pc' hterm hstep =>
      cases hpc : s.stop <;> rw [hpc] at hstep
      case stop | testPool | stopAgain | clear | testResourcemgr | resetSessionpool =>
          cases r <;> cases hstep
          exact hclosed
      case shutdown =>
          cases r <;> cases hstep
          exact isOpen_shutdown
      case awaitTermination | awaitAgain =>
          cases r with
          | awaited o =>
              cases o <;> cases hstep <;> exact hclosed
          | _ => cases hstep
      case shutdownNow =>
          cases r with
          | notExecuted ps =>
              simp only [StopPc.step] at hstep
              split at hstep
              · cases hstep
                exact isOpen_shutdown
              · cases hstep
          | _ => cases hstep
      case deletePool =>
          cases r <;> cases hstep
          exact isOpen_deletePool.trans hclosed
      case nullPool =>
          cases r <;> cases hstep
          rfl
      case deleteResourcemgr =>
          cases r <;> cases hstep
          exact isOpen_deleteResourcemgr.trans hclosed
      case returned => cases r <;> cases hstep

/-- `StopProcess` has called `shutdown`, or there was nothing to shut down. -/
def hasShutdown : StopPc → Bool
  | .stop | .testPool | .shutdown => false
  | _ => true

theorem Stopping.closed (h : Stopping w s) (hshut : hasShutdown s.stop = true) :
    s.world.isOpen = false := by
  rw [h.same.isOpen]
  cases hpc : s.stop <;> rw [hpc] at hshut
  case stop | testPool | shutdown => cases hshut
  case stopAgain | awaitTermination | shutdownNow | awaitAgain | deletePool =>
      exact isOpen_shutdown
  case nullPool => exact isOpen_deletePool.trans isOpen_shutdown
  case clear | testResourcemgr | deleteResourcemgr => rfl
  case resetSessionpool | returned => exact isOpen_deleteResourcemgr

/-- **A run after `shutdown` is not longer than `stopSize`.** -/
theorem length_le_stopSize {bs : List StopAction} (hclosed : s.world.isOpen = false)
    (hrun : StopSystem.machine.run s bs = some s') : bs.length ≤ stopSize s := by
  have haccount := Machine.size_add_countP_le_of_meets (M := StopSystem.machine)
    (I := fun s => s.world.isOpen = false) (P := fun _ _ => True) stopSize (fun _ => true)
    (fun _ => false) 0 ?_ hclosed (Machine.meets_true s bs) hrun
  · rw [List.countP_true] at haccount
    omega
  · intro s a s' hclosed _ hstep
    have hsize := stopSize_step hstep
    rw [acceptsTask_of_closed hclosed hstep, Bool.toNat_false] at hsize
    exact ⟨isOpen_step hclosed hstep, by simpa using hsize⟩

/-! ## There is always an address for a new task -/

/-- From some address on there are no tasks. -/
def FinitelyLive (w : PoolWorld) : Prop := ∃ n : ℕ, ∀ p : ℕ, n ≤ p → w.heap p = none

theorem FinitelyLive.of_ne (h : FinitelyLive w) (q : ℕ)
    (hrest : ∀ p : ℕ, p ≠ q → w'.heap p = w.heap p) : FinitelyLive w' := by
  obtain ⟨n, hn⟩ := h
  refine ⟨max n (q + 1), ?_⟩
  intro p hp
  rw [hrest p (by omega)]
  exact hn p (by omega)

theorem FinitelyLive.of_eq (h : FinitelyLive w) (heq : w'.heap = w.heap) : FinitelyLive w' := by
  unfold FinitelyLive
  rw [heq]
  exact h

/-- `new`, `insert` and `execute` of a task at the address `q`. -/
theorem FinitelyLive.newTask_execute {q : TaskPtr} (h : FinitelyLive w) (id : ℤ)
    (x : ExecuteOutcome) (heq : w'.heap = (w.newTask q id).heap) :
    FinitelyLive ((w'.insertTask q).execute q x) := by
  apply h.of_ne q
  intro p hp
  rw [execute_heap_of_ne hp]
  show w'.heap p = w.heap p
  rw [heq]
  exact if_neg hp

theorem finitelyLive_stopProcess {S : Finset TaskPtr} (hreg : Registered w S [] [])
    (h : FinitelyLive w) : FinitelyLive w.stopProcess := by
  obtain ⟨n, hn⟩ := h
  refine ⟨n, ?_⟩
  intro p hp
  rw [stopProcess_heap_eq hreg.owner p, hn p hp]
  split <;> rfl

theorem finitelyLive_exec {op : PoolOp} (h : FinitelyLive w ∧ ∃ S, Registered w S [] [])
    (hop : op.exec w = some w') : FinitelyLive w' ∧ ∃ S, Registered w' S [] [] := by
  obtain ⟨h, S, hreg⟩ := h
  refine ⟨?_, registered_exec hreg hop⟩
  cases op with
  | start a o =>
      obtain ⟨⟨r, w''⟩, hstart, rfl⟩ := Option.map_eq_some_iff.mp hop
      cases startProcess_cases hstart with
      | already hne => exact h
      | failed hempty hloop hr hsame => exact h.of_eq hsame.heap
      | @loop r w₁ w₂ w' hloop hsame₁ hsub hsame₂ =>
          have hnew : FinitelyLive w₁.newExecutor := h.of_eq hsame₁.heap
          have hloop := submit_rel (T := fun w w' => FinitelyLive w → FinitelyLive w')
            (fun _ h => h) (fun _ _ _ h h' hw => h' (h hw))
            (fun i w _ hw => hw.newTask_execute i _ rfl) hsub
          exact (hloop hnew).of_eq hsame₂.heap
  | stop =>
      cases hop
      exact finitelyLive_stopProcess hreg h
  | complete e p q x =>
      obtain ⟨-, ⟨-, -, -, rfl⟩ | ⟨-, rfl⟩⟩ := afterExecute_cases hop
      · have hdone : FinitelyLive ((completed w e p).eraseTask p) := h.of_eq rfl
        have hnew : FinitelyLive (((respawned w e p q).insertTask q).execute q x) :=
          hdone.newTask_execute w.pool.nextTaskid x rfl
        exact hnew.of_ne p fun p' hp' => if_neg hp'
      · exact h.of_ne p fun p' hp' => if_neg hp'

theorem finitelyLive_of_run {ops : List PoolOp} (hrun : PoolWorld.machine.run .new ops = some w) :
    FinitelyLive w := by
  refine (Machine.run_inv (I := fun w => FinitelyLive w ∧ ∃ S, Registered w S [] []) ?_ ?_ hrun).1
  · intro w op w' h hop
    exact finitelyLive_exec h hop
  · exact ⟨⟨0, fun _ _ => rfl⟩, _, registered_of_idle rfl rfl⟩

/-- `new` finds an address. -/
theorem exists_address {v : PoolWorld} {own : List TaskPtr} (h : OwnedHeap v.heap w.heap own)
    (hlive : FinitelyLive v) : ∃ q, w.heap q = none := by
  obtain ⟨n, hn⟩ := hlive
  obtain ⟨q, hq⟩ := Infinite.exists_notMem_finset (own.toFinset ∪ Finset.range n)
  rw [Finset.mem_union, List.mem_toFinset, Finset.mem_range, not_or, not_lt] at hq
  refine ⟨q, ?_⟩
  rw [h.frame q hq.1]
  exact hn q hq.2

/-! ## There is always a step -/

/-- An `afterExecute` call that has not ended can make a step, and need not hand a task over. -/
theorem afterPc_canStep {p q : TaskPtr} {pc : AfterPc} (hq : w.heap q = none)
    (hended : pc ≠ .ended) :
    ∃ r out, pc.step p w r = some out ∧ ∀ x, r = .execute x → x = .rejected "" := by
  cases pc with
  | ended => exact absurd rfl hended
  | new =>
      refine ⟨.address q, _, if_pos (by rw [hq]; rfl), ?_⟩
      intro x hx
      cases hx
  | execute q' =>
      refine ⟨.execute (.rejected ""), _, rfl, ?_⟩
      intro x hx
      cases hx
      rfl
  | testOpen | find | erase | insert q' | delete =>
      refine ⟨.tau, _, rfl, ?_⟩
      intro x hx
      cases hx

/-- `StopProcess` can make a step when everything else has ended, and need not give the wait up. -/
theorem stopPc_canStep {pc : StopPc} (hnot : pc ≠ .returned) :
    ∃ r out, pc.step w r = some out ∧ r.tasks = [] ∧ ∀ o, r = .awaited o → o = .terminated := by
  cases pc with
  | returned => exact absurd rfl hnot
  | awaitTermination | awaitAgain =>
      refine ⟨.awaited .terminated, _, rfl, rfl, ?_⟩
      intro o ho
      cases ho
      rfl
  | shutdownNow =>
      have hnone : ([] : List TaskPtr).Nodup ∧ ∀ p ∈ ([] : List TaskPtr), p ∈ w.running :=
        ⟨List.nodup_nil, nofun⟩
      refine ⟨.notExecuted [], (w.shutdownNow [], .awaitAgain), ?_, rfl, ?_⟩
      · simp only [StopPc.step]
        exact if_pos hnone
      · intro o ho
        cases ho
  | stop | testPool | shutdown | stopAgain | deletePool | nullPool | clear | testResourcemgr
  | deleteResourcemgr | resetSessionpool =>
      refine ⟨.tau, _, rfl, rfl, ?_⟩
      intro o ho
      cases ho

theorem isTerminated_of_drained (h : Drained s) : s.isTerminated = true := by
  unfold StopSystem.isTerminated PoolWorld.running
  rw [h.1, Bool.and_eq_true, List.all_eq_true]
  refine ⟨?_, fun c hc => decide_eq_true (h.2 c hc)⟩
  split <;> rfl

theorem step_complete {x : ExecutorId × TaskPtr} (hx : x ∈ s.world.accepted) :
    ∃ s', s.step (.complete x.1 x.2) = some s' := by
  have hcomplete : s.world.complete x.1 x.2 = some (completed s.world x.1 x.2) :=
    complete_eq_some.mpr ⟨hx, rfl⟩
  refine ⟨{ s with
    world := completed s.world x.1 x.2, afters := s.afters ++ [⟨x.2, .testOpen⟩] }, ?_⟩
  simp [StopSystem.step, StopSystem.answers, hcomplete]

theorem step_after {c : AfterCall} {j : ℕ} {r : PoolReply} {out : PoolWorld × AfterPc}
    (hc : s.afters[j]? = some c) (hr : ∀ x, r = .execute x → x = .rejected "")
    (hstep : c.pc.step c.task s.world r = some out) :
    acceptsTask (.after j r) = false ∧ ∃ s', s.step (.after j r) = some s' := by
  have hanswers : acceptsTask (.after j r) = false ∧ s.answers (.after j r) = true := by
    cases r with
    | execute x =>
        rw [hr x rfl]
        exact ⟨rfl, rfl⟩
    | _ => exact ⟨rfl, rfl⟩
  refine ⟨hanswers.1, { s with
    world := out.1, afters := s.afters.set j { c with pc := out.2 } }, ?_⟩
  simp [StopSystem.step, hanswers.2, hc, hstep]

theorem step_stop {r : StopReply} {out : PoolWorld × StopPc} (hterm : s.isTerminated = true)
    (hr : ∀ o, r = .awaited o → o = .terminated) (hstep : s.stop.step s.world r = some out) :
    TerminationSeen s (.stop r) ∧ ∃ s', s.step (.stop r) = some s' := by
  have hanswers : TerminationSeen s (.stop r) ∧ s.answers (.stop r) = true := by
    cases r with
    | awaited o =>
        rw [hr o rfl]
        exact ⟨trivial, hterm⟩
    | _ => exact ⟨trivial, rfl⟩
  refine ⟨hanswers.1, { s with
    world := out.1, stop := out.2, dropped := s.dropped ++ r.tasks }, ?_⟩
  simp [StopSystem.step, hanswers.2, hstep]

/-- **There is always a step** that gives the executor no new task, does not give the wait up and
leaves less to do: a task completes, or an `afterExecute` call goes on, or else `StopProcess`. -/
theorem Stopping.exists_move (h : Stopping w s) (hlive : FinitelyLive w.stopProcess)
    (hnot : s.stop ≠ .returned) :
    ∃ a s', TerminationSeen s a ∧ StopSystem.machine.step s a = some s' ∧
      stopSize s' < stopSize s ∧ Stopping w s' := by
  suffices hmove : ∃ a, TerminationSeen s a ∧ acceptsTask a = false ∧ ∃ s', s.step a = some s' by
    obtain ⟨a, hseen, hno, s', hstep⟩ := hmove
    have hsize := stopSize_step hstep
    rw [hno, Bool.toNat_false] at hsize
    exact ⟨a, s', hseen, hstep, by omega, stopping_step h hseen hstep⟩
  by_cases hacc : s.world.accepted = []
  · by_cases hended : ∀ c ∈ s.afters, c.pc = .ended
    · obtain ⟨r, out, hstep, -, hr⟩ := stopPc_canStep (w := s.world) hnot
      obtain ⟨hseen, hs'⟩ := step_stop (isTerminated_of_drained ⟨hacc, hended⟩) hr hstep
      exact ⟨.stop r, hseen, rfl, hs'⟩
    · simp only [not_forall] at hended
      obtain ⟨c, hmem, hc⟩ := hended
      obtain ⟨j, hj⟩ := List.getElem?_of_mem hmem
      obtain ⟨q, hq⟩ := exists_address h.owned hlive
      obtain ⟨r, out, hstep, hr⟩ := afterPc_canStep (p := c.task) hq hc
      obtain ⟨hno, hs'⟩ := step_after hj hr hstep
      exact ⟨.after j r, trivial, hno, hs'⟩
  · obtain ⟨x, hx⟩ := List.exists_mem_of_ne_nil _ hacc
    exact ⟨.complete x.1 x.2, trivial, rfl, step_complete hx⟩

/-! ## `StopProcess` ends -/

/-- **`StopProcess` comes to its end.**  In every state that it reaches among the steps of the tasks
without giving a wait up: once `shutdown` has been called, no run is longer than `stopSize`; and in
any case there is a run that goes on, without giving a wait up, until `StopProcess` has returned,
every accepted task has completed and every `afterExecute` call has ended. -/
theorem stopProcess_ends {ops : List PoolOp} {as : List StopAction} {s : StopSystem}
    (hw : PoolWorld.machine.run .new ops = some w)
    (hseen : StopSystem.machine.Meets TerminationSeen (.init w) as)
    (hrun : StopSystem.machine.run (.init w) as = some s) :
    (hasShutdown s.stop = true →
      ∀ bs s', StopSystem.machine.run s bs = some s' → bs.length ≤ stopSize s) ∧
    ∃ bs s', StopSystem.machine.Meets TerminationSeen s bs ∧
      StopSystem.machine.run s bs = some s' ∧ s'.stop = .returned ∧ s'.world.accepted = [] ∧
      ∀ c ∈ s'.afters, c.pc = .ended := by
  obtain ⟨-, S, hreg⟩ := nullOrOpen_of_run hw
  have hlive := finitelyLive_stopProcess hreg (finitelyLive_of_run hw)
  have hstopping : Stopping w s := by
    refine Machine.run_inv_of_meets ?_ (stopping_init hreg) hseen hrun
    intro s a s' h hseen hstep
    exact stopping_step h hseen hstep
  constructor
  · intro hshut bs s' hbs
    exact length_le_stopSize (hstopping.closed hshut) hbs
  · obtain ⟨bs, s', hmeets, hbs, hdone, h⟩ :=
      Machine.exists_run_to_final (M := StopSystem.machine) stopSize
        (fun s h (hnot : ¬ s.stop = .returned) => h.exists_move hlive hnot) s hstopping
    have hdrained : Drained s' := h.quiet (by rw [hdone]; rfl)
    exact ⟨bs, s', hmeets, hbs, hdone, hdrained.1, hdrained.2⟩

/-- After the first ten steps of `shutdownWhileReplacing` the executor still has one of its tasks,
and the `afterExecute` call is about to hand over the other. -/
theorem stopProcess_ends_while_replacing :
    ∃ w s, PoolWorld.machine.run .new [.start twoSlots (allReturn fun _ => .ok)] = some w ∧
      StopSystem.machine.run (.init w) (shutdownWhileReplacing.take 10) = some s ∧
      s.stop = .awaitTermination ∧
      (∀ bs s', StopSystem.machine.run s bs = some s' → bs.length ≤ 19) ∧
      ∃ bs s', StopSystem.machine.run s bs = some s' ∧ s'.stop = .returned ∧
        s'.world.accepted = [] := by
  have hstart : ((PoolWorld.machine.run .new [.start twoSlots (allReturn fun _ => .ok)]).map
      fun w => (decide (StopSystem.machine.Meets TerminationSeen (.init w)
          (shutdownWhileReplacing.take 10)),
        (StopSystem.machine.run (.init w) (shutdownWhileReplacing.take 10)).map fun s =>
          (s.stop, stopSize s))) =
      some (true, some (.awaitTermination, 19)) := by
    decide +kernel
  obtain ⟨w, hw, hstart⟩ := Option.map_eq_some_iff.mp hstart
  simp only [Prod.mk.injEq, decide_eq_true_eq] at hstart
  obtain ⟨hseen, hstop⟩ := hstart
  obtain ⟨s, hrun, hs⟩ := Option.map_eq_some_iff.mp hstop
  simp only [Prod.mk.injEq] at hs
  obtain ⟨hpc, hsize⟩ := hs
  obtain ⟨hbound, bs, s', -, hbs, hdone, hacc, -⟩ := stopProcess_ends hw hseen hrun
  refine ⟨w, s, hw, hrun, hpc, ?_, bs, s', hbs, hdone, hacc⟩
  rw [hsize] at hbound
  exact hbound (by rw [hpc]; rfl)

end DsAmq.Analysis
