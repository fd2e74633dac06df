import DsAmq.Analysis.PoolCalls

/-!
# What the calls on a consumer pool leave alone

A call on a pool, or the completion of one of its tasks, works on the memory in which the tasks of
other pools live as well.  `Frame` says that it does nothing to those: it writes at the addresses
of its own tasks and where nothing lives, and its new tasks are at such addresses.  `Agree` says
that the memory matters to it in no other way: in two worlds that agree on the members and on the
tasks of the pool, the same operation leads to such worlds again.  `exec_isrun` is about the flag
of `CDSAMQStopper`, which `StopProcess` clears and nothing sets.
-/

set_option autoImplicit false

namespace DsAmq.Analysis

open DsAmq.Model DsAmq.Library

/-- The addresses of the tasks that were accepted and have not completed. -/
def acceptedTasks (w : PoolWorld) : List TaskPtr := w.accepted.map Prod.snd

/-- The operation is a call of `StopProcess`. -/
def isStop : PoolOp → Bool
  | .stop => true
  | _ => false

variable {w w' w'' v v' : PoolWorld} {p q : TaskPtr} {e : ExecutorId} {a : StartArgs}
  {o : StartOutcomes} {r r' : PoolWorld.StartResult} {x : ExecuteOutcome} {op : PoolOp} {i k : ℕ}

/-! ## The flag -/

@[simp] theorem execute_isrun : (w.execute p x).isrun = w.isrun := by
  obtain ⟨acc, m, h⟩ := exists_execute_eq (w := w) (p := p) x
  rw [h]

@[simp] theorem addConnection_isrun : w.addConnection.isrun = w.isrun := by
  unfold PoolWorld.addConnection
  split <;> rfl

@[simp] theorem resetSessionpool_isrun : w.resetSessionpool.isrun = w.isrun := by
  unfold PoolWorld.resetSessionpool
  split <;> rfl

theorem submit_isrun (h : PoolWorld.submit o i k w = some (r, w')) : w'.isrun = w.isrun := by
  refine submit_rel (T := fun w w' => w'.isrun = w.isrun) (fun w => rfl) ?_ ?_ h
  · intro u v w huv hvw
    exact hvw.trans huv
  · intro i w hp
    unfold submitOne
    rw [execute_isrun]
    rfl

theorem startTasks_isrun {nsize : ℤ} (h : w.startTasks nsize o = some (r, w')) :
    w'.isrun = w.isrun := by
  simp only [PoolWorld.startTasks] at h
  split at h
  · cases h
    exact resetSessionpool_isrun
  · split at h
    · rename_i hsub
      cases h
      exact (submit_isrun hsub).trans resetSessionpool_isrun
    · exact (submit_isrun h).trans resetSessionpool_isrun

/-- `StartProcess` does not touch the flag. -/
theorem startProcess_isrun (h : w.startProcess a o = some (r, w')) : w'.isrun = w.isrun := by
  cases startPath_of_startProcess h with
  | already hne => rfl
  | refused hempty huri hr => rfl
  | unconnected hempty huri hc hr => rfl
  | unstarted hempty huri hc hs hr => rfl
  | unadded hempty huri hc hpol hs hadd hr => rfl
  | tasks hempty huri hc hpol hs hadd htasks =>
      exact (startTasks_isrun htasks).trans addConnection_isrun

theorem afterExecute_isrun (h : w.afterExecute e p q x = some w') : w'.isrun = w.isrun := by
  obtain ⟨-, ⟨-, -, -, rfl⟩ | ⟨-, rfl⟩⟩ := afterExecute_cases h
  · exact execute_isrun
  · rfl

theorem stopProcess_isrun : w.stopProcess.isrun = false := by
  unfold PoolWorld.stopProcess PoolWorld.stopExecutor
  cases he : w.pool.threadPool <;> cases hg : w.pool.resourcemgr <;> simp [he, hg]

/-- **The flag after an operation.** -/
theorem exec_isrun (h : op.exec w = some w') : w'.isrun = (w.isrun && !isStop op) := by
  cases op with
  | start a o =>
      obtain ⟨⟨r, w''⟩, hstart, rfl⟩ := Option.map_eq_some_iff.mp h
      simp [isStop, startProcess_isrun hstart]
  | stop =>
      cases h
      simp [isStop, stopProcess_isrun]
  | complete e p q x => simp [isStop, afterExecute_isrun h]

/-! ## The tasks of others -/

/-- What lives outside of the tasks of the pool is not touched, and the new tasks are where nothing
lived. -/
structure Frame (w w' : PoolWorld) : Prop where
  heap : ∀ p, Live w p → p ∉ acceptedTasks w → w'.heap p = w.heap p
  tasks : ∀ p ∈ acceptedTasks w', p ∈ acceptedTasks w ∨ ¬ Live w p

theorem Frame.refl (w : PoolWorld) : Frame w w :=
  ⟨fun _ _ _ => rfl, fun _ hp => Or.inl hp⟩

theorem Frame.trans (h : Frame w w') (h' : Frame w' w'') : Frame w w'' := by
  have hother : ∀ p, Live w p → p ∉ acceptedTasks w → Live w' p := by
    intro p hlive hp
    unfold Live
    rw [h.heap p hlive hp]
    exact hlive
  constructor
  · intro p hlive hp
    have hp' : p ∉ acceptedTasks w' := by
      intro hmem
      rcases h.tasks p hmem with hold | hnew
      · exact hp hold
      · exact hnew hlive
    rw [h'.heap p (hother p hlive hp) hp', h.heap p hlive hp]
  · intro p hp
    rcases h'.tasks p hp with hmem | hnew
    · exact h.tasks p hmem
    · by_cases hold : p ∈ acceptedTasks w
      · exact Or.inl hold
      · exact Or.inr fun hlive => hnew (hother p hlive hold)

theorem frame_of_sameTasks (h : SameTasks w w') : Frame w w' := by
  constructor
  · intro p _ _
    rw [h.heap]
  · intro p hp
    unfold acceptedTasks at hp ⊢
    rw [h.accepted] at hp
    exact Or.inl hp

theorem frame_newExecutor : Frame w w.newExecutor := ⟨fun _ _ _ => rfl, fun _ hp => Or.inl hp⟩

/-- `execute` accepts the task, or it may delete it. -/
theorem mem_acceptedTasks_execute (hp : p ∈ acceptedTasks (w.execute q x)) :
    p ∈ acceptedTasks w ∨ p = q := by
  unfold acceptedTasks at hp ⊢
  by_cases hx : x = .ok
  · subst hx
    cases he : w.pool.threadPool with
    | none =>
        simp only [PoolWorld.execute, he] at hp
        exact Or.inl hp
    | some e =>
        rw [execute_accepted_ok he, List.map_append, List.mem_append] at hp
        simpa using hp
  · rw [execute_accepted_throws hx] at hp
    exact Or.inl hp

theorem execute_heap_of_ne (hp : p ≠ q) : (w.execute q x).heap p = w.heap p := by
  cases x with
  | ok => cases he : w.pool.threadPool <;> simp [PoolWorld.execute, he]
  | nullPointer msg => rfl
  | rejected msg => exact if_neg hp

/-- `new`, `insert` and `execute` of a task at an address where nothing lives. -/
theorem frame_newTask_execute (hq : ¬ Live w q) (id : ℤ)
    (hsame : SameTasks (w.newTask q id) w') : Frame w ((w'.insertTask q).execute q x) := by
  constructor
  · intro p hlive _
    have hne : p ≠ q := fun heq => hq (heq ▸ hlive)
    rw [execute_heap_of_ne hne]
    show w'.heap p = w.heap p
    rw [hsame.heap]
    exact if_neg hne
  · intro p hp
    rcases mem_acceptedTasks_execute hp with hold | rfl
    · left
      have : p ∈ acceptedTasks w' := hold
      unfold acceptedTasks at this ⊢
      rw [hsame.accepted] at this
      exact this
    · exact Or.inr hq

theorem frame_submitOne (hp : ¬ Live w (o.address i)) : Frame w (submitOne o i w) :=
  frame_newTask_execute hp i (SameTasks.refl _)

theorem frame_startProcess (h : w.startProcess a o = some (r, w')) : Frame w w' := by
  cases startProcess_cases h with
  | already hne => exact Frame.refl w
  | failed hempty hloop hr hsame => exact frame_of_sameTasks hsame
  | loop hloop hsame₁ hsub hsame₂ =>
      have hloop := submit_rel Frame.refl (fun _ _ _ => Frame.trans)
        (fun _ _ hp => frame_submitOne hp) hsub
      exact (((frame_of_sameTasks hsame₁).trans frame_newExecutor).trans hloop).trans
        (frame_of_sameTasks hsame₂)

theorem completed_tasks_subset (hp : p ∈ acceptedTasks (completed w e q)) :
    p ∈ acceptedTasks w := by
  obtain ⟨y, hy, rfl⟩ := List.mem_map.mp hp
  exact List.mem_map_of_mem (List.mem_of_mem_erase hy)

/-- A task of the pool is deleted at the end. -/
theorem Frame.deleteTask (h : Frame w w') (hp : p ∈ acceptedTasks w) :
    Frame w (w'.deleteTask p) := by
  refine ⟨?_, h.tasks⟩
  intro q hlive hq
  have hne : q ≠ p := fun heq => hq (heq ▸ hp)
  rw [← h.heap q hlive hq]
  exact if_neg hne

theorem frame_afterExecute (h : w.afterExecute e p q x = some w') : Frame w w' := by
  obtain ⟨hp, ⟨-, -, hq, rfl⟩ | ⟨-, rfl⟩⟩ := afterExecute_cases h
  · have hdone : Frame w ((completed w e p).eraseTask p) :=
      ⟨fun _ _ _ => rfl, fun _ h => Or.inl (completed_tasks_subset h)⟩
    exact (hdone.trans (frame_newTask_execute hq _ sameTasks_respawned)).deleteTask
      (List.mem_map_of_mem hp)
  · have hdone : Frame w (completed w e p) :=
      ⟨fun _ _ _ => rfl, fun _ h => Or.inl (completed_tasks_subset h)⟩
    exact hdone.deleteTask (List.mem_map_of_mem hp)

theorem stopProcess_heap : w.stopProcess.heap = ({ w with isrun := false }).stopExecutor.heap := by
  simp only [PoolWorld.stopProcess]
  split <;> rfl

theorem stopProcess_accepted :
    w.stopProcess.accepted = ({ w with isrun := false }).stopExecutor.accepted := by
  simp only [PoolWorld.stopProcess]
  split <;> rfl

theorem frame_stopProcess : Frame w w.stopProcess := by
  constructor
  · intro p hlive hp
    rw [stopProcess_heap]
    unfold PoolWorld.stopExecutor
    cases he : w.pool.threadPool with
    | none => rfl
    | some e => exact if_neg fun hmem => hp (List.mem_map_of_mem hmem)
  · intro p hp
    left
    unfold acceptedTasks at hp
    rw [stopProcess_accepted] at hp
    unfold PoolWorld.stopExecutor at hp
    cases he : w.pool.threadPool with
    | none =>
        rw [he] at hp
        exact hp
    | some e =>
        simp only [he] at hp
        obtain ⟨y, hy, rfl⟩ := List.mem_map.mp hp
        exact List.mem_map_of_mem (List.mem_of_mem_filter hy)

/-- **An operation leaves the tasks of others alone.** -/
theorem exec_frame (h : op.exec w = some w') : Frame w w' := by
  cases op with
  | start a o =>
      obtain ⟨⟨r, w''⟩, hstart, rfl⟩ := Option.map_eq_some_iff.mp h
      exact frame_startProcess hstart
  | stop =>
      cases h
      exact frame_stopProcess
  | complete e p q x => exact frame_afterExecute h

/-! ## Two worlds that differ in the rest of the memory -/

/-- The worlds differ in the memory only, and not where the tasks of the pool are. -/
def Agree (w v : PoolWorld) : Prop :=
  ∃ h, v = { w with heap := h } ∧ ∀ p ∈ acceptedTasks w, h p = w.heap p

theorem Agree.pool (h : Agree w v) : v.pool = w.pool := by
  obtain ⟨h, rfl, -⟩ := h
  rfl

theorem Agree.setMembers (h : Agree w v) (a : StartArgs) :
    Agree (w.setMembers a) (v.setMembers a) := by
  obtain ⟨h, rfl, hheap⟩ := h
  exact ⟨h, rfl, hheap⟩

theorem Agree.createConnection (h : Agree w v) : Agree w.createConnection v.createConnection := by
  obtain ⟨h, rfl, hheap⟩ := h
  exact ⟨h, rfl, hheap⟩

theorem Agree.newResourcemgr (h : Agree w v) : Agree w.newResourcemgr v.newResourcemgr := by
  obtain ⟨h, rfl, hheap⟩ := h
  exact ⟨h, rfl, hheap⟩

theorem Agree.addConnection (h : Agree w v) : Agree w.addConnection v.addConnection := by
  obtain ⟨h, rfl, hheap⟩ := h
  cases hg : w.pool.resourcemgr <;> cases hk : w.pool.connection <;>
    simp only [PoolWorld.addConnection, hg, hk] <;> exact ⟨h, rfl, hheap⟩

theorem Agree.resetSessionpool (h : Agree w v) : Agree w.resetSessionpool v.resetSessionpool := by
  obtain ⟨h, rfl, hheap⟩ := h
  cases hg : w.pool.resourcemgr <;> cases hk : w.pool.connection <;>
    simp only [PoolWorld.resetSessionpool, hg, hk] <;> exact ⟨h, rfl, hheap⟩

theorem Agree.newExecutor (h : Agree w v) : Agree w.newExecutor v.newExecutor := by
  obtain ⟨h, rfl, hheap⟩ := h
  exact ⟨h, rfl, hheap⟩

theorem Agree.setNext (h : Agree w v) (n : ℤ) :
    Agree { w with pool.nextTaskid := n } { v with pool.nextTaskid := n } := by
  obtain ⟨h, rfl, hheap⟩ := h
  exact ⟨h, rfl, hheap⟩

theorem Agree.deleteTask (h : Agree w v) (p : TaskPtr) :
    Agree (w.deleteTask p) (v.deleteTask p) := by
  obtain ⟨h, rfl, hheap⟩ := h
  refine ⟨_, rfl, ?_⟩
  intro q hq
  by_cases hqp : q = p
  · simp [PoolWorld.deleteTask, hqp]
  · simpa [PoolWorld.deleteTask, hqp] using hheap q hq

/-- A new task is the same in both worlds. -/
theorem Agree.newTask_execute (h : Agree w v) (q : TaskPtr) (id : ℤ) (x : ExecuteOutcome) :
    Agree (((w.newTask q id).insertTask q).execute q x)
      (((v.newTask q id).insertTask q).execute q x) := by
  obtain ⟨h, rfl, hheap⟩ := h
  -- the memory agrees at the tasks of the pool and at the new one
  have hnew : ∀ p, p ∈ acceptedTasks w ∨ p = q →
      ((({ w with heap := h } : PoolWorld).newTask q id).heap p) = (w.newTask q id).heap p := by
    intro p hp
    by_cases hpq : p = q
    · simp [PoolWorld.newTask, hpq]
    · simpa [PoolWorld.newTask, hpq] using hheap p (hp.resolve_right hpq)
  cases x with
  | ok =>
      cases he : w.pool.threadPool with
      | none =>
          simp only [PoolWorld.execute, PoolWorld.insertTask, PoolWorld.newTask, he]
          exact ⟨_, rfl, fun p hp => hnew p (Or.inl hp)⟩
      | some e =>
          simp only [PoolWorld.execute, PoolWorld.insertTask, PoolWorld.newTask, he]
          refine ⟨_, rfl, fun p hp => hnew p ?_⟩
          simpa [acceptedTasks] using hp
  | nullPointer msg => exact ⟨_, rfl, fun p hp => hnew p (Or.inl hp)⟩
  | rejected msg =>
      have hagree : Agree ((w.newTask q id).insertTask q)
          ((({ w with heap := h } : PoolWorld).newTask q id).insertTask q) :=
        ⟨_, rfl, fun p hp => hnew p (Or.inl hp)⟩
      exact hagree.deleteTask q

/-- The loop of `StartProcess`. -/
theorem agree_submit (h : Agree w v) (hw : PoolWorld.submit o i k w = some (r, w'))
    (hv : PoolWorld.submit o i k v = some (r', v')) : r' = r ∧ Agree w' v' := by
  induction k generalizing i w v with
  | zero =>
      cases hw
      cases hv
      exact ⟨rfl, h⟩
  | succ k ih =>
      have hone := h.newTask_execute (o.address i) i (o.execute i)
      unfold PoolWorld.submit at hw hv
      split at hw
      · cases hw
      split at hv
      · cases hv
      cases hx : o.execute i with
      | ok =>
          simp only [hx] at hw hv hone
          exact ih hone hw hv
      | nullPointer msg =>
          simp only [hx] at hw hv hone
          cases hw
          cases hv
          exact ⟨rfl, hone⟩
      | rejected msg =>
          simp only [hx] at hw hv hone
          cases hw
          cases hv
          exact ⟨rfl, hone⟩

theorem agree_startTasks {nsize : ℤ} (h : Agree w v) (hw : w.startTasks nsize o = some (r, w'))
    (hv : v.startTasks nsize o = some (r', v')) : Agree w' v' := by
  simp only [PoolWorld.startTasks] at hw hv
  cases hill : PoolWorld.illegalArgument nsize o with
  | some msg =>
      simp only [hill] at hw hv
      cases hw
      cases hv
      exact h.resetSessionpool
  | none =>
      simp only [hill] at hw hv
      cases hsub : PoolWorld.submit o 0 nsize.toNat w.resetSessionpool.newExecutor with
      | none => simp [hsub] at hw
      | some x =>
          cases hsub' : PoolWorld.submit o 0 nsize.toNat v.resetSessionpool.newExecutor with
          | none => simp [hsub'] at hv
          | some y =>
              obtain ⟨⟨b, err⟩, w₁⟩ := x
              obtain ⟨c, v₁⟩ := y
              obtain ⟨rfl, hagree⟩ := agree_submit h.resetSessionpool.newExecutor hsub hsub'
              rw [hsub] at hw
              rw [hsub'] at hv
              cases b with
              | false =>
                  cases hw
                  cases hv
                  exact hagree
              | true =>
                  cases hw
                  cases hv
                  exact hagree.setNext nsize

theorem agree_startProcess (h : Agree w v) (hw : w.startProcess a o = some (r, w'))
    (hv : v.startProcess a o = some (r', v')) : Agree w' v' := by
  simp only [PoolWorld.startProcess] at hw hv
  rw [h.pool] at hv
  by_cases hempty : w.pool.sTask = ∅
  case neg =>
    rw [if_pos hempty] at hw hv
    cases hw
    cases hv
    exact h
  rw [if_neg (not_not.mpr hempty)] at hw hv
  by_cases huri : (a.brokerURI.isEmpty || a.destURI.isEmpty) = true
  · rw [if_pos huri] at hw hv
    cases hw
    cases hv
    exact h
  rw [if_neg huri] at hw hv
  cases hc : o.createConnection with
  | cms msg =>
      simp only [hc] at hw hv
      cases hw
      cases hv
      exact h.setMembers a
  | ok u =>
      simp only [hc] at hw hv
      have hcon := (h.setMembers a).createConnection
      by_cases hpol : o.redelivery = .nullPolicy
      · rw [if_pos hpol] at hw hv
        cases hw
        cases hv
        exact hcon
      rw [if_neg hpol] at hw hv
      cases hs : o.start with
      | cms msg =>
          simp only [hs] at hw hv
          cases hw
          cases hv
          exact hcon
      | ok u =>
          simp only [hs] at hw hv
          cases hadd : o.addConnection with
          | cms msg =>
              simp only [hadd] at hw hv
              cases hw
              cases hv
              exact hcon.newResourcemgr
          | ok u =>
              simp only [hadd] at hw hv
              exact agree_startTasks hcon.newResourcemgr.addConnection hw hv

theorem Agree.eraseTask (h : Agree w v) (p : TaskPtr) : Agree (w.eraseTask p) (v.eraseTask p) := by
  obtain ⟨h, rfl, hheap⟩ := h
  exact ⟨h, rfl, hheap⟩

theorem Agree.completed (h : Agree w v) (e : ExecutorId) (p : TaskPtr) :
    Agree (completed w e p) (completed v e p) := by
  obtain ⟨h, rfl, hheap⟩ := h
  exact ⟨h, rfl, fun q hq => hheap q (completed_tasks_subset hq)⟩

/-- The completion of a task. -/
theorem agree_afterExecute (h : Agree w v) (hw : w.afterExecute e p q x = some w')
    (hv : v.afterExecute e p q x = some v') : Agree w' v' := by
  have hdone := h.completed e p
  obtain ⟨m, rfl, -⟩ := h
  obtain ⟨-, ⟨hopen, hmem, -, rfl⟩ | ⟨hno, rfl⟩⟩ := afterExecute_cases hw
  · obtain ⟨-, ⟨-, -, -, rfl⟩ | ⟨hno, -⟩⟩ := afterExecute_cases hv
    · exact (((hdone.eraseTask p).setNext _).newTask_execute q _ x).deleteTask p
    · exact absurd ⟨hopen, hmem⟩ hno
  · obtain ⟨-, ⟨hopen, hmem, -⟩ | ⟨-, rfl⟩⟩ := afterExecute_cases hv
    · exact absurd ⟨hopen, hmem⟩ hno
    · exact hdone.deleteTask p

theorem Agree.stopExecutor (h : Agree w v) : Agree w.stopExecutor v.stopExecutor := by
  obtain ⟨h, rfl, hheap⟩ := h
  cases he : w.pool.threadPool with
  | none =>
      simp only [PoolWorld.stopExecutor, he]
      exact ⟨h, rfl, hheap⟩
  | some e =>
      simp only [PoolWorld.stopExecutor, he]
      refine ⟨_, rfl, ?_⟩
      intro p hp
      obtain ⟨y, hy, rfl⟩ := List.mem_map.mp hp
      have hmem : y.2 ∈ acceptedTasks w := List.mem_map_of_mem (List.mem_of_mem_filter hy)
      show (if (e, y.2) ∈ w.accepted then none else h y.2) =
        if (e, y.2) ∈ w.accepted then none else w.heap y.2
      rw [hheap y.2 hmem]

theorem agree_stopProcess (h : Agree w v) : Agree w.stopProcess v.stopProcess := by
  have hflag : Agree { w with isrun := false } { v with isrun := false } := by
    obtain ⟨h, rfl, hheap⟩ := h
    exact ⟨h, rfl, hheap⟩
  obtain ⟨h, heq, hheap⟩ := hflag.stopExecutor
  simp only [PoolWorld.stopProcess, heq]
  cases hg : ({ w with isrun := false } : PoolWorld).stopExecutor.pool.resourcemgr with
  | none => exact ⟨h, rfl, hheap⟩
  | some g => exact ⟨h, rfl, hheap⟩

/-- **The rest of the memory does not matter.** -/
theorem exec_agree (h : Agree w v) (hw : op.exec w = some w') (hv : op.exec v = some v') :
    Agree w' v' := by
  cases op with
  | start a o =>
      obtain ⟨⟨r, w''⟩, hstart, rfl⟩ := Option.map_eq_some_iff.mp hw
      obtain ⟨⟨r', v''⟩, hstart', rfl⟩ := Option.map_eq_some_iff.mp hv
      exact agree_startProcess h hstart hstart'
  | stop =>
      cases hw
      cases hv
      exact agree_stopProcess h
  | complete e p q x => exact agree_afterExecute h hw hv

end DsAmq.Analysis
