import DsAmq.Model.ConsumerPool
import DsAmq.Library.Registry

/-!
# The tasks of the consumer pool

`Registered w S ins out` accounts for the tasks of a pool: of the elements of `m_sTask` those in
`S` are the tasks that the executor has accepted and not completed, and the tasks `ins` that
somebody is about to hand over or to take back; the tasks `out` live but are not in `S`.  All of
them are different and live, and the executor of every accepted task is `m_threadPool`.

There is one rule for each statement on the tasks.  `StartProcess` and `afterExecute` are made of
these statements, as whole calls and step by step, and what the rest of `StartProcess` does keeps
all of it (`SameTasks`).
-/

set_option autoImplicit false

namespace DsAmq.Analysis

open DsAmq.Model DsAmq.Library

/-- A task lives at `p`. -/
def Live (w : PoolWorld) (p : TaskPtr) : Prop := (w.heap p).isSome = true

variable {w w' w'' : PoolWorld} {p q : TaskPtr} {e : ExecutorId} {S : Finset TaskPtr}
  {ins ins' out out' : List TaskPtr}

theorem live_newTask_self (id : ℤ) : Live (w.newTask p id) p := by
  simp [Live, PoolWorld.newTask]

theorem live_newTask (id : ℤ) (h : Live w q) : Live (w.newTask p id) q := by
  by_cases hq : q = p
  · rw [hq]
    exact live_newTask_self id
  · have hheap : (w.newTask p id).heap q = w.heap q := if_neg hq
    unfold Live
    rw [hheap]
    exact h

theorem live_deleteTask (hq : q ≠ p) (h : Live w q) : Live (w.deleteTask p) q := by
  simpa [Live, PoolWorld.deleteTask, hq] using h

/-- The task at `p` has completed. -/
def completed (w : PoolWorld) (e : ExecutorId) (p : TaskPtr) : PoolWorld :=
  { w with accepted := w.accepted.erase (e, p) }

/-- Only an accepted task completes. -/
theorem complete_eq_some :
    w.complete e p = some w' ↔ (e, p) ∈ w.accepted ∧ w' = completed w e p := by
  unfold PoolWorld.complete completed
  by_cases hp : (e, p) ∈ w.accepted
  · simp [hp, eq_comm]
  · simp [hp]

/-! ## What does not concern the tasks -/

/-- The set, the executor and the tasks are the same. -/
structure SameTasks (w w' : PoolWorld) : Prop where
  sTask : w'.pool.sTask = w.pool.sTask
  threadPool : w'.pool.threadPool = w.pool.threadPool
  executors : w'.executors = w.executors
  accepted : w'.accepted = w.accepted
  heap : w'.heap = w.heap

theorem SameTasks.refl (w : PoolWorld) : SameTasks w w := ⟨rfl, rfl, rfl, rfl, rfl⟩

theorem SameTasks.trans (h : SameTasks w w') (h' : SameTasks w' w'') : SameTasks w w'' :=
  ⟨h'.sTask.trans h.sTask, h'.threadPool.trans h.threadPool, h'.executors.trans h.executors,
    h'.accepted.trans h.accepted, h'.heap.trans h.heap⟩

theorem sameTasks_setMembers (a : StartArgs) : SameTasks w (w.setMembers a) :=
  ⟨rfl, rfl, rfl, rfl, rfl⟩

theorem sameTasks_createConnection : SameTasks w w.createConnection := ⟨rfl, rfl, rfl, rfl, rfl⟩

theorem sameTasks_newResourcemgr : SameTasks w w.newResourcemgr := ⟨rfl, rfl, rfl, rfl, rfl⟩

theorem sameTasks_addConnection : SameTasks w w.addConnection := by
  unfold PoolWorld.addConnection
  split
  · exact ⟨rfl, rfl, rfl, rfl, rfl⟩
  · exact SameTasks.refl w

theorem sameTasks_resetSessionpool : SameTasks w w.resetSessionpool := by
  unfold PoolWorld.resetSessionpool
  split
  · exact ⟨rfl, rfl, rfl, rfl, rfl⟩
  · exact SameTasks.refl w

theorem sameTasks_setNext (n : ℤ) : SameTasks w { w with pool.nextTaskid := n } :=
  ⟨rfl, rfl, rfl, rfl, rfl⟩

theorem SameTasks.isOpen (h : SameTasks w w') : w'.isOpen = w.isOpen := by
  unfold PoolWorld.isOpen
  rw [h.threadPool, h.executors]

/-! ## The executor -/

/-- `m_threadPool` is an executor that is not shut down. -/
def Open (w : PoolWorld) : Prop :=
  ∃ e, w.pool.threadPool = some e ∧ w.executors[e]? = some ⟨false, false⟩

theorem Open.isOpen (h : Open w) : w.isOpen = true := by
  obtain ⟨e, he, hx⟩ := h
  simp [PoolWorld.isOpen, he, hx]

theorem Open.of_eq (h : Open w) (he : w'.pool.threadPool = w.pool.threadPool)
    (hx : w'.executors = w.executors) : Open w' := by
  unfold Open
  rw [he, hx]
  exact h

theorem open_newExecutor : Open w.newExecutor :=
  ⟨w.executors.length, rfl, by simp [PoolWorld.newExecutor]⟩

/-! ## The account of the tasks -/

/-- Of `m_sTask` the elements `S` are the accepted tasks and `ins`; `out` live as well. -/
structure Registered (w : PoolWorld) (S : Finset TaskPtr) (ins out : List TaskPtr) : Prop where
  tracked : Tracked (Live w) S (ins ++ w.accepted.map Prod.snd) out
  subset : S ⊆ w.pool.sTask
  owner : ∀ x ∈ w.accepted, w.pool.threadPool = some x.1

namespace Registered

theorem perm (h : Registered w S ins out) (hin : ins.Perm ins') (hout : out.Perm out') :
    Registered w S ins' out' :=
  ⟨h.tracked.perm (hin.append_right _) hout, h.subset, h.owner⟩

theorem sameTasks (h : Registered w S ins out) (hw : SameTasks w w') :
    Registered w' S ins out := by
  have hlive : Live w' = Live w := by
    unfold Live
    rw [hw.heap]
  refine ⟨?_, ?_, ?_⟩
  · rw [hlive, hw.accepted]
    exact h.tracked
  · rw [hw.sTask]
    exact h.subset
  · rw [hw.accepted, hw.threadPool]
    exact h.owner

/-- `new` at an address where no task lives. -/
theorem newTask (h : Registered w S ins out) (hp : ¬ Live w p) (id : ℤ) :
    Registered (w.newTask p id) S ins (p :: out) :=
  ⟨h.tracked.alloc hp (live_newTask_self id) fun _ hq => live_newTask id hq, h.subset, h.owner⟩

/-- `delete`, or the loss of the last pointer to a task. -/
theorem deleteTask (h : Registered w S ins (p :: out)) : Registered (w.deleteTask p) S ins out :=
  ⟨h.tracked.free fun _ hq hlive => live_deleteTask hq hlive, h.subset, h.owner⟩

/-- `m_sTask.insert(task)` -/
theorem insertTask (h : Registered w S ins (p :: out)) :
    Registered (w.insertTask p) (insert p S) (p :: ins) out :=
  ⟨h.tracked.insert, Finset.insert_subset_insert p h.subset, h.owner⟩

/-- `m_sTask.insert(task)` of a task that is not counted in `S`. -/
theorem insertTask_uncounted (h : Registered w S ins out) :
    Registered (w.insertTask p) S ins out :=
  ⟨h.tracked, h.subset.trans (Finset.subset_insert p _), h.owner⟩

/-- A task is no longer counted in `S`. -/
theorem uncount (h : Registered w S (p :: ins) out) : Registered w (S.erase p) ins (p :: out) :=
  ⟨h.tracked.erase, (Finset.erase_subset p S).trans h.subset, h.owner⟩

/-- `m_sTask.erase(iter)` -/
theorem eraseTask (h : Registered w S (p :: ins) out) :
    Registered (w.eraseTask p) (S.erase p) ins (p :: out) :=
  ⟨h.tracked.erase, Finset.erase_subset_erase p h.subset, h.owner⟩

/-- `m_threadPool->execute(task)`, when it accepts the task. -/
theorem execute_ok (h : Registered w S (p :: ins) out) (he : w.pool.threadPool = some e) :
    Registered (w.execute p .ok) S ins out := by
  have hexec : w.execute p .ok = { w with accepted := w.accepted ++ [(e, p)] } := by
    simp [PoolWorld.execute, he]
  rw [hexec]
  refine ⟨?_, h.subset, ?_⟩
  · refine h.tracked.perm ?_ (List.Perm.refl out)
    rw [List.map_append, List.map_singleton, ← List.append_assoc]
    exact (List.perm_append_singleton p _).symm
  · intro x hx
    rcases List.mem_append.mp hx with hx | hx
    · exact h.owner x hx
    · rw [List.mem_singleton.mp hx]
      exact he

/-- `m_threadPool->execute(task)`, when it throws. -/
theorem execute_throws {o : ExecuteOutcome} (h : Registered w S ins (p :: out)) (ho : o ≠ .ok) :
    Registered (w.execute p o) S ins out := by
  cases o with
  | ok => exact absurd rfl ho
  | nullPointer msg => exact ⟨h.tracked.free fun _ _ hlive => hlive, h.subset, h.owner⟩
  | rejected msg => exact h.deleteTask

/-- A task completes. -/
theorem complete (h : Registered w S ins out) (hp : (e, p) ∈ w.accepted) :
    Registered (completed w e p) S (p :: ins) out := by
  have hperm : (w.accepted.map Prod.snd).Perm (p :: (w.accepted.erase (e, p)).map Prod.snd) :=
    (List.perm_cons_erase hp).map Prod.snd
  refine ⟨?_, h.subset, ?_⟩
  · refine h.tracked.perm ?_ (List.Perm.refl out)
    exact (hperm.append_left ins).trans List.perm_middle
  · intro x hx
    exact h.owner x (List.mem_of_mem_erase hx)

/-- A new executor takes the place of one that has no tasks. -/
theorem newExecutor (h : Registered w S ins out) (hacc : w.accepted = []) :
    Registered w.newExecutor S ins out := by
  refine ⟨h.tracked, h.subset, ?_⟩
  intro x hx
  have hmem : x ∈ w.accepted := hx
  simp [hacc] at hmem

/-- Where nothing is in the set, the executor has no tasks. -/
theorem accepted_eq_nil (h : Registered w S ins out) (hempty : w.pool.sTask = ∅) :
    w.accepted = [] := by
  rw [List.eq_nil_iff_forall_not_mem]
  intro x hx
  have hmem : x.2 ∈ ins ++ w.accepted.map Prod.snd :=
    List.mem_append_right ins (List.mem_map_of_mem hx)
  have hS : x.2 ∈ w.pool.sTask := h.subset ((h.tracked.mem x.2).mpr hmem)
  simp [hempty] at hS

end Registered

/-- A pool without tasks. -/
theorem registered_of_idle (hempty : w.pool.sTask = ∅) (hacc : w.accepted = []) :
    Registered w w.pool.sTask [] [] := by
  refine ⟨?_, subset_rfl, ?_⟩
  · rw [hempty, hacc]
    exact Tracked.empty
  · simp [hacc]

end DsAmq.Analysis
