import DsAmq.Analysis.PoolFrame
import DsAmq.Analysis.SecondStart
import DsAmq.Library.OwnedHeap
import DsAmq.Model.StopSystem

/-!
# The steps of `StopProcess` and of the `afterExecute` calls beside it

Every task of the pool is at the executor, in the hands of an `afterExecute` call, or among those
that `shutdownNow` returned (`inUse`); a step moves it from one to the other, makes one or deletes
one.  On the members the `afterExecute` calls write only `m_sTask` and `m_next_taskid`, so that the
rest is what `StopProcess` has made of it so far (`stoppedTo`).
-/

set_option autoImplicit false

namespace DsAmq.Analysis

open DsAmq.Model DsAmq.Library

/-! ## Who has which task -/

/-- The tasks that an `afterExecute` call has in its hands: the one it replaces, until it is
deleted, and the new one, until it is handed over. -/
def inHands (c : AfterCall) : List TaskPtr :=
  match c.pc with
  | .insert q | .execute q => [q, c.task]
  | .ended => []
  | _ => [c.task]

/-- The tasks of the pool. -/
def inUse (s : StopSystem) : List TaskPtr :=
  acceptedTasks s.world ++ s.afters.flatMap inHands ++ s.dropped

variable {w w' w'' : PoolWorld} {s s' : StopSystem} {c : AfterCall} {j : ℕ} {p : TaskPtr}
  {rest : TaskPtr → Option Consumer}

/-- The tasks of one `afterExecute` call, and all others. -/
theorem exists_inUse_perm (hc : s.afters[j]? = some c) :
    ∃ others, (inUse s).Perm (inHands c ++ others) ∧
      ∀ w' c' l, acceptedTasks w' = acceptedTasks s.world ++ l →
        (inUse { s with world := w', afters := s.afters.set j c' }).Perm
          (l ++ (inHands c' ++ others)) := by
  obtain ⟨more, hafters, hset⟩ := Threads.exists_flatMap_set_perm inHands hc
  have hmove : ∀ l₁ l₂ l₃ : List TaskPtr, (l₁ ++ (l₂ ++ l₃)).Perm (l₂ ++ (l₁ ++ l₃)) := by
    intro l₁ l₂ l₃
    rw [← List.append_assoc, ← List.append_assoc]
    exact List.perm_append_comm.append_right l₃
  refine ⟨acceptedTasks s.world ++ (more ++ s.dropped), ?_, ?_⟩
  · have h := (hafters.append_left (acceptedTasks s.world)).append_right s.dropped
    refine h.trans ?_
    rw [List.append_assoc, List.append_assoc]
    exact hmove _ _ _
  · intro w' c' l hw'
    have h := ((hset c').append_left (acceptedTasks w')).append_right s.dropped
    refine h.trans ?_
    rw [hw', List.append_assoc, List.append_assoc, List.append_assoc]
    exact (hmove _ _ _).trans ((hmove _ _ _).append_left l)

/-- A task that completes goes from the executor to its `afterExecute` call. -/
theorem inUse_complete {e : ExecutorId} (hp : (e, p) ∈ s.world.accepted) :
    (inUse s).Perm (inUse
      { s with world := completed s.world e p, afters := s.afters ++ [⟨p, .testOpen⟩] }) := by
  have hacc : (acceptedTasks s.world).Perm (p :: acceptedTasks (completed s.world e p)) :=
    (List.perm_cons_erase hp).map Prod.snd
  unfold inUse
  rw [List.flatMap_append, List.append_assoc, List.append_assoc, List.append_assoc]
  refine (hacc.append_right _).trans ?_
  refine List.perm_middle.symm.trans ((List.Perm.append_left _ ?_))
  exact List.perm_middle.symm

/-! ## The step of an `afterExecute` call -/

theorem owned_deleteTask {own : List TaskPtr} (h : OwnedHeap rest w.heap (p :: own)) :
    OwnedHeap rest (w.deleteTask p).heap own := by
  apply h.free
  · exact if_pos rfl
  · intro q hq
    exact if_neg hq

/-- What a step of `afterExecute` does with the tasks: `l` are the tasks it hands over. -/
structure AfterStep (rest : TaskPtr → Option Consumer) (others : List TaskPtr) (p : TaskPtr)
    (w : PoolWorld) (w' : PoolWorld) (pc' : AfterPc) (l : List TaskPtr) : Prop where
  accepted : acceptedTasks w' = acceptedTasks w ++ l
  owned : OwnedHeap rest w'.heap (l ++ (inHands ⟨p, pc'⟩ ++ others))
  owner : ∀ x ∈ w'.accepted, x ∈ w.accepted ∨ w.pool.threadPool = some x.1
  isrun : w'.isrun = w.isrun

/-- A step that does nothing with the tasks. -/
theorem AfterStep.same {others : List TaskPtr} {pc pc' : AfterPc}
    (h : OwnedHeap rest w.heap (inHands ⟨p, pc⟩ ++ others))
    (hhands : inHands ⟨p, pc'⟩ = inHands ⟨p, pc⟩) (hacc : w'.accepted = w.accepted)
    (hheap : w'.heap = w.heap) (hrun : w'.isrun = w.isrun) :
    AfterStep rest others p w w' pc' [] := by
  refine ⟨?_, ?_, ?_, hrun⟩
  · unfold acceptedTasks
    rw [hacc, List.append_nil]
  · rw [List.nil_append, hhands, hheap]
    exact h
  · intro x hx
    exact Or.inl (hacc ▸ hx)

/-- **The step of `afterExecute`**, as the executor answers. -/
theorem afterStep_of_step {others : List TaskPtr} {pc pc' : AfterPc} {r : PoolReply}
    (h : OwnedHeap rest w.heap (inHands ⟨p, pc⟩ ++ others))
    (hok : r = .execute .ok → w.isOpen = true) (hnull : ∀ msg, r ≠ .execute (.nullPointer msg))
    (hstep : pc.step p w r = some (w', pc')) : ∃ l, AfterStep rest others p w w' pc' l := by
  cases pc with
  | new =>
      cases r with
      | address q =>
          simp only [AfterPc.step] at hstep
          split at hstep
          · rename_i hq
            cases hstep
            refine ⟨[], (List.append_nil _).symm, ?_, fun x hx => Or.inl hx, rfl⟩
            apply h.alloc (by simpa using hq)
            · simp [PoolWorld.newTask]
            · intro q' hq'
              exact if_neg hq'
          · cases hstep
      | _ => cases hstep
  | execute q =>
      cases r with
      | execute x =>
          cases hstep
          cases x with
          | ok =>
              have hopen := hok rfl
              unfold PoolWorld.isOpen at hopen
              cases he : w.pool.threadPool with
              | none =>
                  rw [he] at hopen
                  cases hopen
              | some e =>
                  have hexec : w.execute q .ok = { w with accepted := w.accepted ++ [(e, q)] } := by
                    simp [PoolWorld.execute, he]
                  rw [hexec]
                  refine ⟨[q], by simp [acceptedTasks], h, ?_, rfl⟩
                  intro x hx
                  rcases List.mem_append.mp hx with hx | hx
                  · exact Or.inl hx
                  · rw [List.mem_singleton.mp hx]
                    exact Or.inr he
          | nullPointer msg => exact absurd rfl (hnull msg)
          | rejected msg =>
              exact ⟨[], (List.append_nil _).symm, owned_deleteTask h, fun x hx => Or.inl hx, rfl⟩
      | _ => cases hstep
  | delete =>
      cases r with
      | tau =>
          cases hstep
          exact ⟨[], (List.append_nil _).symm, owned_deleteTask h, fun x hx => Or.inl hx, rfl⟩
      | _ => cases hstep
  | ended => cases r <;> cases hstep
  | testOpen =>
      cases r with
      | tau =>
          cases hstep
          refine ⟨[], AfterStep.same h ?_ rfl rfl rfl⟩
          split <;> rfl
      | _ => cases hstep
  | find =>
      cases r with
      | tau =>
          cases hstep
          refine ⟨[], AfterStep.same h ?_ rfl rfl rfl⟩
          split <;> rfl
      | _ => cases hstep
  | erase | insert q =>
      cases r with
      | tau =>
          cases hstep
          exact ⟨[], AfterStep.same h rfl rfl rfl rfl⟩
      | _ => cases hstep

/-! ## What `StopProcess` has done so far -/

/-- The world that `StopProcess` makes of `w` up to the statement `pc`, as far as the members, the
connections, the executors and the flag are concerned. -/
def stoppedTo (w : PoolWorld) : StopPc → PoolWorld
  | .stop => w
  | .testPool | .shutdown => w.stopFlag
  | .stopAgain | .awaitTermination | .shutdownNow | .awaitAgain | .deletePool =>
      w.stopFlag.shutdown
  | .nullPool => w.stopFlag.shutdown.deletePool
  | .clear | .testResourcemgr | .deleteResourcemgr =>
      { w.stopFlag.shutdown.deletePool with pool.threadPool := none }
  | .resetSessionpool =>
      { w.stopFlag.shutdown.deletePool with pool.threadPool := none }.deleteResourcemgr
  | .returned =>
      { { w.stopFlag.shutdown.deletePool with pool.threadPool := none }.deleteResourcemgr with
        pool.sessionpool := none }

/-! ### The members -/

theorem SamePool.trans (h : SamePool w w') (h' : SamePool w' w'') : SamePool w w'' := by
  refine ⟨?_, h'.cms.trans h.cms, h'.executors.trans h.executors⟩
  rw [h'.members, h.members]

theorem SamePool.threadPool (h : SamePool w w') : w'.pool.threadPool = w.pool.threadPool := by
  rw [h.members]

theorem SamePool.resourcemgr (h : SamePool w w') : w'.pool.resourcemgr = w.pool.resourcemgr := by
  rw [h.members]

@[simp] theorem shutdown_pool : w.shutdown.pool = w.pool := by
  unfold PoolWorld.shutdown
  split <;> rfl

@[simp] theorem deletePool_pool : w.deletePool.pool = w.pool := by
  unfold PoolWorld.deletePool
  split <;> rfl

@[simp] theorem deleteResourcemgr_pool : w.deleteResourcemgr.pool = w.pool := by
  unfold PoolWorld.deleteResourcemgr
  split <;> rfl

theorem deleteResourcemgr_of_none (h : w.pool.resourcemgr = none) : w.deleteResourcemgr = w := by
  unfold PoolWorld.deleteResourcemgr
  rw [h]

/-- Without an executor `StopProcess` goes on with `m_sTask`. -/
theorem stoppedTo_clear_of_none (h : w.pool.threadPool = none) :
    stoppedTo w .clear = stoppedTo w .testPool := by
  have hshutdown : w.stopFlag.shutdown = w.stopFlag := by
    simp [PoolWorld.shutdown, PoolWorld.stopFlag, h]
  have hdelete : w.stopFlag.deletePool = w.stopFlag := by
    simp [PoolWorld.deletePool, PoolWorld.stopFlag, h]
  simp only [stoppedTo, hshutdown, hdelete]
  unfold PoolWorld.stopFlag
  rw [← h]

theorem SamePool.shutdown (h : SamePool w w') : SamePool w.shutdown w'.shutdown := by
  unfold PoolWorld.shutdown
  rw [h.threadPool]
  cases he : w.pool.threadPool with
  | none => exact h
  | some e =>
      refine ⟨h.members, h.cms, ?_⟩
      simp only [h.executors]

/-- A second `shutdown` has no effect. -/
theorem shutdown_shutdown : w.shutdown.shutdown = w.shutdown := by
  cases he : w.pool.threadPool with
  | none => simp [PoolWorld.shutdown, he]
  | some e => simp [PoolWorld.shutdown, he, List.modify_modify_eq, Function.comp_def]

theorem SamePool.deletePool (h : SamePool w w') : SamePool w.deletePool w'.deletePool := by
  unfold PoolWorld.deletePool
  rw [h.threadPool]
  cases he : w.pool.threadPool with
  | none => exact h
  | some e =>
      refine ⟨h.members, h.cms, ?_⟩
      simp only [h.executors]

theorem SamePool.deleteResourcemgr (h : SamePool w w') :
    SamePool w.deleteResourcemgr w'.deleteResourcemgr := by
  unfold PoolWorld.deleteResourcemgr
  rw [h.resourcemgr]
  cases hg : w.pool.resourcemgr with
  | none => exact h
  | some g =>
      refine ⟨h.members, ?_, h.executors⟩
      simp only [h.cms]

theorem shutdown_frame :
    w.shutdown.heap = w.heap ∧ w.shutdown.accepted = w.accepted ∧ w.shutdown.isrun = w.isrun := by
  unfold PoolWorld.shutdown
  split <;> exact ⟨rfl, rfl, rfl⟩

theorem deletePool_frame :
    w.deletePool.heap = w.heap ∧ w.deletePool.accepted = w.accepted ∧
      w.deletePool.isrun = w.isrun := by
  unfold PoolWorld.deletePool
  split <;> exact ⟨rfl, rfl, rfl⟩

theorem deleteResourcemgr_frame :
    w.deleteResourcemgr.heap = w.heap ∧ w.deleteResourcemgr.accepted = w.accepted ∧
      w.deleteResourcemgr.isrun = w.isrun := by
  unfold PoolWorld.deleteResourcemgr
  split <;> exact ⟨rfl, rfl, rfl⟩

/-! ### The invariant -/

/-- The executor has been waited for. -/
def hasWaited : StopPc → Bool
  | .stop | .testPool | .shutdown | .stopAgain | .awaitTermination | .shutdownNow
  | .awaitAgain => false
  | _ => true

/-- `m_sTask` has been cleared. -/
def hasCleared : StopPc → Bool
  | .testResourcemgr | .deleteResourcemgr | .resetSessionpool | .returned => true
  | _ => false

/-- `m_threadPool` keeps its value until the executor has been waited for. -/
theorem stoppedTo_threadPool {pc : StopPc} (h : hasWaited pc = false) :
    (stoppedTo w pc).pool.threadPool = w.pool.threadPool := by
  cases pc with
  | stop | testPool | shutdown => rfl
  | stopAgain | awaitTermination | shutdownNow | awaitAgain => exact congrArg _ shutdown_pool
  | _ => cases h

/-- There is nothing that the executor or an `afterExecute` call could still do. -/
def Drained (s : StopSystem) : Prop := s.world.accepted = [] ∧ ∀ c ∈ s.afters, c.pc = .ended

/-- The pool is being stopped: it was `w` when `StopProcess` began. -/
structure Stopping (w : PoolWorld) (s : StopSystem) : Prop where
  owned : OwnedHeap w.stopProcess.heap s.world.heap (inUse s)
  owner : ∀ x ∈ s.world.accepted, w.pool.threadPool = some x.1
  noPool : w.pool.threadPool = none → s.afters = []
  same : SamePool (stoppedTo w s.stop) s.world
  isrun : s.world.isrun = (stoppedTo w s.stop).isrun
  quiet : hasWaited s.stop = true → Drained s
  cleared : hasCleared s.stop = true → s.world.pool.sTask = ∅

/-- No wait of `StopProcess` is interrupted, and the second one does not time out. -/
def TerminationSeen (s : StopSystem) : StopAction → Prop
  | .stop (.awaited (.interrupted _)) => False
  | .stop (.awaited .timedOut) => s.stop ≠ .awaitAgain
  | _ => True

instance (s : StopSystem) : (a : StopAction) → Decidable (TerminationSeen s a)
  | .stop (.awaited (.interrupted _)) => isFalse id
  | .stop (.awaited .timedOut) => inferInstanceAs (Decidable (s.stop ≠ .awaitAgain))
  | .stop (.awaited .terminated) | .stop .tau | .stop (.notExecuted _) | .complete _ _
  | .after _ _ => isTrue trivial

/-! ## The steps of the system -/

/-- What a step of the system can be. -/
inductive StopMove (s : StopSystem) : StopAction → StopSystem → Prop
  | complete {e : ExecutorId} {p : TaskPtr} (hp : (e, p) ∈ s.world.accepted) :
      StopMove s (.complete e p)
        { s with world := completed s.world e p, afters := s.afters ++ [⟨p, .testOpen⟩] }
  | after {j : ℕ} {r : PoolReply} {c : AfterCall} {w' : PoolWorld} {pc' : AfterPc}
      (hc : s.afters[j]? = some c) (hok : r = .execute .ok → s.world.isOpen = true)
      (hnull : ∀ msg, r ≠ .execute (.nullPointer msg))
      (hstep : c.pc.step c.task s.world r = some (w', pc')) :
      StopMove s (.after j r)
        { s with world := w', afters := s.afters.set j { c with pc := pc' } }
  | stop {r : StopReply} {w' : PoolWorld} {pc' : StopPc}
      (hterm : r = .awaited .terminated → s.isTerminated = true)
      (hstep : s.stop.step s.world r = some (w', pc')) :
      StopMove s (.stop r)
        { s with world := w', stop := pc', dropped := s.dropped ++ r.tasks }

/-- **The inversion of a step.** -/
theorem stopMove_of_step {a : StopAction} (h : s.step a = some s') : StopMove s a s' := by
  unfold StopSystem.step at h
  split at h
  · cases h
  · rename_i hanswers
    rw [Bool.not_eq_false] at hanswers
    cases a with
    | complete e p =>
        obtain ⟨w', hw', rfl⟩ := Option.map_eq_some_iff.mp h
        obtain ⟨hp, rfl⟩ := complete_eq_some.mp hw'
        exact .complete hp
    | after j r =>
        simp only at h
        cases hc : s.afters[j]? with
        | none => simp [hc] at h
        | some c =>
            simp only [hc] at h
            obtain ⟨⟨w', pc'⟩, hstep, rfl⟩ := Option.map_eq_some_iff.mp h
            refine .after hc ?_ ?_ hstep
            · rintro rfl
              exact hanswers
            · rintro msg rfl
              cases hanswers
    | stop r =>
        obtain ⟨⟨w', pc'⟩, hstep, rfl⟩ := Option.map_eq_some_iff.mp h
        refine .stop ?_ hstep
        rintro rfl
        exact hanswers

theorem hasWaited_of_hasCleared {pc : StopPc} (h : hasCleared pc = true) : hasWaited pc = true := by
  cases pc <;> first | rfl | cases h

/-! ### The steps beside `StopProcess` -/

/-- A task completes. -/
theorem Stopping.complete {e : ExecutorId} (h : Stopping w s) (hp : (e, p) ∈ s.world.accepted) :
    Stopping w
      { s with world := completed s.world e p, afters := s.afters ++ [⟨p, .testOpen⟩] } := by
  have hnot : hasWaited s.stop = false := by
    rw [← Bool.not_eq_true]
    intro hwaited
    rw [(h.quiet hwaited).1] at hp
    cases hp
  have hsame : SamePool (stoppedTo w s.stop) (completed s.world e p) :=
    h.same.trans ⟨rfl, rfl, rfl⟩
  refine ⟨?_, ?_, ?_, hsame, h.isrun, ?_, ?_⟩
  · exact h.owned.perm (inUse_complete hp)
  · intro x hx
    exact h.owner x (List.mem_of_mem_erase hx)
  · intro hnone
    have howner := h.owner _ hp
    rw [hnone] at howner
    cases howner
  · intro hwaited
    rw [hnot] at hwaited
    cases hwaited
  · intro hcleared
    have hwaited := hasWaited_of_hasCleared hcleared
    rw [hnot] at hwaited
    cases hwaited

/-- An `afterExecute` call makes a step. -/
theorem Stopping.after {r : PoolReply} {pc' : AfterPc} (h : Stopping w s)
    (hc : s.afters[j]? = some c) (hok : r = .execute .ok → s.world.isOpen = true)
    (hnull : ∀ msg, r ≠ .execute (.nullPointer msg))
    (hstep : c.pc.step c.task s.world r = some (w', pc')) :
    Stopping w { s with world := w', afters := s.afters.set j { c with pc := pc' } } := by
  have hnot : hasWaited s.stop = false := by
    rw [← Bool.not_eq_true]
    intro hwaited
    rw [(h.quiet hwaited).2 c (List.mem_of_getElem? hc)] at hstep
    cases r <;> cases hstep
  obtain ⟨others, huse, hset⟩ := exists_inUse_perm hc
  obtain ⟨l, hl⟩ := afterStep_of_step (h.owned.perm huse) hok hnull hstep
  have hsame := samePool_after hstep
  refine ⟨hl.owned.perm (hset w' _ l hl.accepted).symm, ?_, ?_, h.same.trans hsame, ?_, ?_, ?_⟩
  · intro x hx
    rcases hl.owner x hx with hx | hx
    · exact h.owner x hx
    · rw [← stoppedTo_threadPool hnot, ← h.same.threadPool]
      exact hx
  · intro hnone
    rw [h.noPool hnone] at hc
    cases hc
  · rw [hl.isrun]
    exact h.isrun
  · intro hwaited
    rw [hnot] at hwaited
    cases hwaited
  · intro hcleared
    have hwaited := hasWaited_of_hasCleared hcleared
    rw [hnot] at hwaited
    cases hwaited

/-! ### The steps of `StopProcess` -/

/-- A step of `StopProcess` that does nothing with the tasks. -/
theorem Stopping.of_same {pc' : StopPc} {ps : List TaskPtr} (h : Stopping w s) (hps : ps = [])
    (hheap : w'.heap = s.world.heap) (hacc : w'.accepted = s.world.accepted)
    (hsame : SamePool (stoppedTo w pc') w') (hrun : w'.isrun = (stoppedTo w pc').isrun)
    (hquiet : hasWaited pc' = true → Drained s)
    (hcleared : hasCleared pc' = true → w'.pool.sTask = ∅) :
    Stopping w { s with world := w', stop := pc', dropped := s.dropped ++ ps } := by
  subst hps
  have huse : inUse { s with world := w', stop := pc', dropped := s.dropped ++ [] } = inUse s := by
    unfold inUse acceptedTasks
    rw [hacc, List.append_nil]
  refine ⟨?_, ?_, h.noPool, hsame, hrun, ?_, hcleared⟩
  · rw [huse]
    show OwnedHeap w.stopProcess.heap w'.heap (inUse s)
    rw [hheap]
    exact h.owned
  · intro x hx
    exact h.owner x (hacc ▸ hx)
  · intro hwaited
    obtain ⟨hnil, hended⟩ := hquiet hwaited
    exact ⟨hacc.trans hnil, hended⟩

/-- When the executor has terminated, there is nothing left to do. -/
theorem drained_of_isTerminated
    (howner : ∀ x ∈ s.world.accepted, s.world.pool.threadPool = some x.1)
    (hterm : s.isTerminated = true) : Drained s := by
  unfold StopSystem.isTerminated at hterm
  rw [Bool.and_eq_true, List.isEmpty_iff, List.all_eq_true] at hterm
  refine ⟨?_, fun c hc => of_decide_eq_true (hterm.2 c hc)⟩
  rw [List.eq_nil_iff_forall_not_mem]
  intro x hx
  have hmem : x.2 ∈ s.world.running := by
    unfold PoolWorld.running
    rw [howner x hx]
    exact List.mem_map_of_mem (List.mem_filter.mpr ⟨hx, by simp⟩)
  rw [hterm.1] at hmem
  cases hmem

theorem Stopping.quiet_of_terminated (h : Stopping w s) (hnot : hasWaited s.stop = false)
    (hterm : s.isTerminated = true) : Drained s := by
  apply drained_of_isTerminated _ hterm
  intro x hx
  rw [h.same.threadPool, stoppedTo_threadPool hnot]
  exact h.owner x hx

/-- Without an executor there is nothing to wait for. -/
theorem Stopping.quiet_of_none (h : Stopping w s) (hnone : w.pool.threadPool = none) :
    Drained s := by
  constructor
  · rw [List.eq_nil_iff_forall_not_mem]
    intro x hx
    have howner := h.owner x hx
    rw [hnone] at howner
    cases howner
  · rw [h.noPool hnone]
    intro c hc
    cases hc

/-- `shutdownNow` takes the tasks it returns from the executor. -/
theorem acceptedTasks_shutdownNow {ps : List TaskPtr} (hnodup : (acceptedTasks w).Nodup)
    (howner : ∀ x ∈ w.accepted, w.pool.threadPool = some x.1) (hps : ps.Nodup)
    (hsub : ∀ p ∈ ps, p ∈ w.running) :
    (acceptedTasks w).Perm (acceptedTasks (w.shutdownNow ps) ++ ps) := by
  have hfilter : (w.shutdownNow ps).accepted = w.accepted.filter fun x => x.2 ∉ ps := by
    apply List.filter_congr
    intro x hx
    simp [howner x hx]
  have htasks : acceptedTasks (w.shutdownNow ps) = (acceptedTasks w).filter fun p => p ∉ ps := by
    unfold acceptedTasks
    rw [hfilter, List.filter_map]
    rfl
  have hmem : ∀ p ∈ ps, p ∈ acceptedTasks w := by
    intro p hp
    have hrunning := hsub p hp
    unfold PoolWorld.running at hrunning
    split at hrunning
    · obtain ⟨x, hx, rfl⟩ := List.mem_map.mp hrunning
      exact List.mem_map_of_mem (List.mem_of_mem_filter hx)
    · cases hrunning
  have hrest : ((acceptedTasks w).filter fun p => !decide (p ∉ ps)).Perm ps := by
    rw [List.perm_ext_iff_of_nodup (hnodup.filter _) hps]
    intro p
    rw [List.mem_filter]
    constructor
    · intro hp
      simpa using hp.2
    · intro hp
      exact ⟨hmem p hp, by simpa using hp⟩
  rw [htasks]
  exact (List.filter_append_perm _ _).symm.trans (hrest.append_left _)

theorem inUse_shutdownNow {ps : List TaskPtr} {pc' : StopPc}
    (hnodup : (acceptedTasks s.world).Nodup)
    (howner : ∀ x ∈ s.world.accepted, s.world.pool.threadPool = some x.1) (hps : ps.Nodup)
    (hsub : ∀ p ∈ ps, p ∈ s.world.running) :
    (inUse s).Perm (inUse
      { s with world := s.world.shutdownNow ps, stop := pc', dropped := s.dropped ++ ps }) := by
  have hacc := acceptedTasks_shutdownNow hnodup howner hps hsub
  unfold inUse
  refine ((hacc.append_right _).append_right _).trans ?_
  rw [List.append_assoc, List.append_assoc, List.append_assoc]
  apply List.Perm.append_left
  exact (List.perm_append_comm_assoc _ _ _).trans (List.perm_append_comm.append_left _)

/-- The tasks that `shutdownNow` returns are in nobody's hands any more. -/
theorem Stopping.shutdownNow {ps : List TaskPtr} (h : Stopping w s) (hpc : s.stop = .shutdownNow)
    (hps : ps.Nodup) (hsub : ∀ p ∈ ps, p ∈ s.world.running) :
    Stopping w { s with
      world := s.world.shutdownNow ps, stop := .awaitAgain, dropped := s.dropped ++ ps } := by
  have hsame := h.same
  have hrun := h.isrun
  rw [hpc] at hsame hrun
  have hpool : s.world.pool.threadPool = w.pool.threadPool := by
    rw [hsame.threadPool]
    exact stoppedTo_threadPool rfl
  have hnodup : (acceptedTasks s.world).Nodup :=
    (List.nodup_append.mp (List.nodup_append.mp h.owned.nodup).1).1
  refine ⟨?_, ?_, h.noPool, ?_, ?_, ?_, ?_⟩
  · show OwnedHeap w.stopProcess.heap (s.world.shutdownNow ps).heap _
    have hheap : (s.world.shutdownNow ps).heap = s.world.heap := shutdown_frame.1
    rw [hheap]
    apply h.owned.perm
    exact inUse_shutdownNow hnodup (fun x hx => hpool.trans (h.owner x hx)) hps hsub
  · intro x hx
    exact h.owner x (List.mem_of_mem_filter hx)
  · have hagain : SamePool (w.stopFlag.shutdown.shutdown) s.world.shutdown := hsame.shutdown
    rw [shutdown_shutdown] at hagain
    exact ⟨hagain.members, hagain.cms, hagain.executors⟩
  · exact shutdown_frame.2.2.trans hrun
  · intro hwaited
    cases hwaited
  · intro hcleared
    cases hcleared

/-- `StopProcess` makes a step, and does not give the wait up. -/
theorem Stopping.stop {r : StopReply} {pc' : StopPc} (h : Stopping w s)
    (hseen : TerminationSeen s (.stop r))
    (hterm : r = .awaited .terminated → s.isTerminated = true)
    (hstep : s.stop.step s.world r = some (w', pc')) :
    Stopping w { s with world := w', stop := pc', dropped := s.dropped ++ r.tasks } := by
  have hsame := h.same
  have hrun := h.isrun
  have hquiet := h.quiet
  have hcleared := h.cleared
  have hnotyet := h.quiet_of_terminated
  cases hpc : s.stop <;> rw [hpc] at hsame hrun hquiet hcleared hnotyet hstep
  case stop =>
      cases r <;> cases hstep
      exact h.of_same rfl rfl rfl ⟨hsame.members, hsame.cms, hsame.executors⟩ rfl nofun nofun
  case testPool =>
      cases r <;> cases hstep
      cases he : s.world.pool.threadPool with
      | some e => exact h.of_same rfl rfl rfl hsame hrun nofun nofun
      | none =>
          have hnone : w.pool.threadPool = none := hsame.threadPool.symm.trans he
          have hclear := stoppedTo_clear_of_none hnone
          exact h.of_same rfl rfl rfl (hclear ▸ hsame) (hclear ▸ hrun)
            (fun _ => h.quiet_of_none hnone) nofun
  case shutdown =>
      cases r <;> cases hstep
      exact h.of_same rfl shutdown_frame.1 shutdown_frame.2.1 hsame.shutdown
        (shutdown_frame.2.2.trans (hrun.trans shutdown_frame.2.2.symm)) nofun nofun
  case stopAgain =>
      cases r <;> cases hstep
      refine h.of_same rfl rfl rfl ⟨hsame.members, hsame.cms, hsame.executors⟩ ?_ nofun nofun
      exact (shutdown_frame (w := w.stopFlag)).2.2.symm
  case awaitTermination =>
      cases r with
      | awaited o =>
          cases o <;> cases hstep
          · exact h.of_same rfl rfl rfl hsame hrun (fun _ => hnotyet rfl (hterm rfl)) nofun
          · exact h.of_same rfl rfl rfl hsame hrun nofun nofun
          · exact hseen.elim
      | _ => cases hstep
  case shutdownNow =>
      cases r with
      | notExecuted ps =>
          simp only [StopPc.step] at hstep
          split at hstep
          · rename_i hps
            cases hstep
            exact h.shutdownNow hpc hps.1 hps.2
          · cases hstep
      | _ => cases hstep
  case awaitAgain =>
      cases r with
      | awaited o =>
          cases o <;> cases hstep
          · exact h.of_same rfl rfl rfl hsame hrun (fun _ => hnotyet rfl (hterm rfl)) nofun
          · exact absurd hpc hseen
          · exact hseen.elim
      | _ => cases hstep
  case deletePool =>
      cases r <;> cases hstep
      exact h.of_same rfl deletePool_frame.1 deletePool_frame.2.1 hsame.deletePool
        (deletePool_frame.2.2.trans (hrun.trans deletePool_frame.2.2.symm)) (fun _ => hquiet rfl)
        nofun
  case nullPool =>
      cases r <;> cases hstep
      refine h.of_same rfl rfl rfl ⟨?_, hsame.cms, hsame.executors⟩ hrun (fun _ => hquiet rfl) nofun
      show ({ s.world.pool with threadPool := none } : ConsumerPool) = _
      rw [hsame.members]
      rfl
  case clear =>
      cases r <;> cases hstep
      refine h.of_same rfl rfl rfl ⟨?_, hsame.cms, hsame.executors⟩ hrun (fun _ => hquiet rfl)
        (fun _ => rfl)
      show ({ s.world.pool with sTask := ∅ } : ConsumerPool) = _
      rw [hsame.members]
      rfl
  case testResourcemgr =>
      cases r <;> cases hstep
      cases hg : s.world.pool.resourcemgr with
      | some g =>
          exact h.of_same rfl rfl rfl hsame hrun (fun _ => hquiet rfl) (fun _ => hcleared rfl)
      | none =>
          have hreset : stoppedTo w .resetSessionpool = stoppedTo w .testResourcemgr :=
            deleteResourcemgr_of_none (hsame.resourcemgr.symm.trans hg)
          exact h.of_same rfl rfl rfl (hreset ▸ hsame) (hreset ▸ hrun) (fun _ => hquiet rfl)
            (fun _ => hcleared rfl)
  case deleteResourcemgr =>
      cases r <;> cases hstep
      refine h.of_same rfl deleteResourcemgr_frame.1 deleteResourcemgr_frame.2.1
        hsame.deleteResourcemgr ?_ (fun _ => hquiet rfl) ?_
      · exact deleteResourcemgr_frame.2.2.trans (hrun.trans deleteResourcemgr_frame.2.2.symm)
      · intro _
        rw [deleteResourcemgr_pool]
        exact hcleared rfl
  case resetSessionpool =>
      cases r <;> cases hstep
      refine h.of_same rfl rfl rfl ⟨?_, hsame.cms, hsame.executors⟩ hrun (fun _ => hquiet rfl)
        (fun _ => hcleared rfl)
      show ({ s.world.pool with sessionpool := none } : ConsumerPool) = _
      rw [hsame.members]
      rfl
  case returned => cases r <;> cases hstep

/-- **The step lemma.** -/
theorem stopping_step {a : StopAction} (h : Stopping w s) (hseen : TerminationSeen s a)
    (hstep : s.step a = some s') : Stopping w s' := by
  cases stopMove_of_step hstep with
  | complete hp => exact h.complete hp
  | after hc hok hnull hafter => exact h.after hc hok hnull hafter
  | stop hterm hstop => exact h.stop hseen hterm hstop

/-- What the whole call leaves on the heap: all but the tasks of the executor. -/
theorem stopProcess_heap_eq (howner : ∀ x ∈ w.accepted, w.pool.threadPool = some x.1)
    (p : TaskPtr) :
    w.stopProcess.heap p = if p ∈ acceptedTasks w then none else w.heap p := by
  rw [stopProcess_heap]
  unfold PoolWorld.stopExecutor
  cases he : w.pool.threadPool with
  | none =>
      rw [if_neg]
      intro hp
      obtain ⟨x, hx, rfl⟩ := List.mem_map.mp hp
      have hsome := howner x hx
      rw [he] at hsome
      cases hsome
  | some e =>
      have hiff : (e, p) ∈ w.accepted ↔ p ∈ acceptedTasks w := by
        constructor
        · intro hp
          exact List.mem_map_of_mem hp
        · intro hp
          obtain ⟨⟨e', q⟩, hx, rfl⟩ := List.mem_map.mp hp
          have hsome := howner _ hx
          rw [he] at hsome
          cases hsome
          exact hx
      simp only [hiff]

/-- `StopProcess` is about to begin. -/
theorem stopping_init {S : Finset TaskPtr} (h : Registered w S [] []) :
    Stopping w (.init w) := by
  have huse : inUse (.init w) = acceptedTasks w := by simp [inUse, StopSystem.init]
  have hnodup : (acceptedTasks w).Nodup := by
    have := h.tracked.nodup
    rwa [List.nil_append, List.append_nil] at this
  have hlive : ∀ p ∈ acceptedTasks w, Live w p := by
    intro p hp
    apply h.tracked.alive
    rwa [List.nil_append, List.append_nil]
  have hheap := stopProcess_heap_eq h.owner
  refine ⟨⟨?_, ?_, ?_, ?_⟩, h.owner, fun _ => rfl, ⟨rfl, rfl, rfl⟩, rfl, nofun, nofun⟩
  · rw [huse]
    exact hnodup
  · rw [huse]
    exact hlive
  · rw [huse]
    intro p hp
    rw [hheap p, if_pos hp]
  · rw [huse]
    intro p hp
    rw [hheap p, if_neg hp]
    rfl

end DsAmq.Analysis
