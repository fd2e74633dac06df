import DsAmq.Model.Process
import DsAmq.Analysis.PoolFrame

/-!
# What the steps of a process can do

`process_step_cases` says what a step of a process with several consumer pools can do: it is an
operation on one pool, or a call of the `run` of one of its tasks.  The flag is cleared by
`StopProcess` and never set again (`process_run_isrun`).  After any run only tasks that have not
completed have runs, and the tasks of the pools are live and at different addresses
(`separate_of_run`).
-/

set_option autoImplicit false

namespace DsAmq.Analysis

open DsAmq.Model DsAmq.Library

variable {ι : Type} {s s' : Process ι} {A B : ι} {w : PoolWorld} {p : TaskPtr} {r : Run}
  {op : PoolOp} {x : ProcessAction ι}

/-- The action is a call of `StopProcess`, on any of the pools. -/
def stops : ProcessAction ι → Bool
  | .op _ op => isStop op
  | _ => false

/-! ## The moves of a task -/

/-- What the `run` of a task can do: it begins, it makes a call, or it tests the flag. -/
inductive RunMove (s : Process ι) (A : ι) (p : TaskPtr) : ProcessAction ι → Run → Prop
  | begin {c : Consumer} (hp : p ∈ (s.parts A).tasks) (hrun : (s.parts A).runs p = none)
      (hc : s.heap p = some c) : RunMove s A p (.begin A p) (Run.start c)
  | call {e : Event} {r r' : Run} (he : e.isTest = false) (hrun : (s.parts A).runs p = some r)
      (hr : r.step e = some r') : RunMove s A p (.call A p e) r'
  | test {r r' : Run} (hrun : (s.parts A).runs p = some r)
      (hr : r.step (.isrun s.isrun) = some r') : RunMove s A p (.test A p) r'

theorem RunMove.stops (h : RunMove s A p x r) : stops x = false := by
  cases h with
  | begin => rfl
  | call => rfl
  | test => rfl

theorem RunMove.owner (h : RunMove s A p x r) : x.owner = A := by
  cases h with
  | begin => rfl
  | call => rfl
  | test => rfl

/-- The test of the flag goes on with the loop while the flag is set, and leaves it otherwise. -/
theorem test_step {r' : Run} (h : r.step (.isrun s.isrun) = some r') :
    r'.pc = if s.isrun then .receive else .close := by
  unfold Run.step at h
  split at h <;> simp_all
  rw [← h]

/-! ## The tasks of different pools -/

/-- The tasks of every pool are registered and live, no others have runs, and the tasks of different
pools are at different addresses. -/
structure Separate (s : Process ι) : Prop where
  registered : ∀ A, ∃ S, Registered (s.world A) S [] []
  runs : ∀ A p, (s.parts A).runs p ≠ none → p ∈ (s.parts A).tasks
  disjoint : ∀ A B, A ≠ B → ∀ p ∈ (s.parts A).tasks, p ∉ (s.parts B).tasks

theorem separate_init : Separate (Process.init : Process ι) := by
  constructor
  · intro A
    exact ⟨_, registered_of_idle rfl rfl⟩
  · intro A p hp
    exact absurd rfl hp
  · intro A B _ p hp
    cases hp

/-- Only the memory at the tasks matters to the account of the tasks. -/
theorem Registered.of_heap {S : Finset TaskPtr} {m : TaskPtr → Option Consumer}
    (h : Registered w S [] []) (hm : ∀ p ∈ acceptedTasks w, m p = w.heap p) (b : Bool) :
    Registered { w with heap := m, isrun := b } S [] [] := by
  refine ⟨⟨h.tracked.mem, h.tracked.nodup, ?_⟩, h.subset, h.owner⟩
  intro p hp
  have hmem : p ∈ acceptedTasks w := by simpa [acceptedTasks] using hp
  show (m p).isSome = true
  rw [hm p hmem]
  exact h.tracked.alive p hp

/-- The tasks of a pool are live. -/
theorem Separate.live (h : Separate s) (hp : p ∈ (s.parts A).tasks) : Live (s.world A) p := by
  obtain ⟨S, hreg⟩ := h.registered A
  exact hreg.tracked.alive p (List.mem_append_left [] hp)

/-- An operation on `A` leaves the tasks of `B` as they are. -/
theorem Separate.heap_put (h : Separate s) (hw : op.exec (s.world A) = some w) (hB : B ≠ A)
    (hp : p ∈ (s.parts B).tasks) : w.heap p = s.heap p :=
  (exec_frame hw).heap p (h.live (A := B) hp) (h.disjoint B A hB p hp)

/-- The task that makes a move has not completed. -/
theorem RunMove.mem_tasks (hmove : RunMove s A p x r) (h : Separate s) :
    p ∈ (s.parts A).tasks := by
  cases hmove with
  | begin hp _ _ => exact hp
  | call _ hrun _ => exact h.runs A p (by simp [hrun])
  | test hrun _ => exact h.runs A p (by simp [hrun])

variable [DecidableEq ι]

/-! ## The parts -/

@[simp] theorem world_put_self : (s.put A w).world A = w := by
  simp [Process.world, Process.put]

theorem parts_put_of_ne (h : B ≠ A) : (s.put A w).parts B = s.parts B :=
  Function.update_of_ne h _ _

@[simp] theorem tasks_put_self : ((s.put A w).parts A).tasks = acceptedTasks w := by
  simp [Process.put, PoolPart.tasks, acceptedTasks]

theorem runs_put_self_of_notMem (hp : p ∉ acceptedTasks w) :
    ((s.put A w).parts A).runs p = none := by
  unfold acceptedTasks at hp
  simp [Process.put, hp]

@[simp] theorem runs_setRun_self : ((s.setRun A p r).parts A).runs p = some r := by
  simp [Process.setRun]

theorem runs_setRun_of_ne_or {q : TaskPtr} (hq : ¬ (q = p ∧ B = A)) :
    ((s.setRun A p r).parts B).runs q = (s.parts B).runs q := by
  by_cases hB : B = A
  · subst hB
    have hne : q ≠ p := fun heq => hq ⟨heq, rfl⟩
    simp [Process.setRun, hne]
  · simp [Process.setRun, hB]

theorem parts_setRun_of_ne (h : B ≠ A) : (s.setRun A p r).parts B = s.parts B :=
  Function.update_of_ne h _ _

/-- A call of `run` leaves what the calls on the pools work on. -/
@[simp] theorem world_setRun (B : ι) : (s.setRun A p r).world B = s.world B := by
  by_cases h : B = A
  · subst h
    simp [Process.world, Process.setRun]
  · unfold Process.world
    rw [parts_setRun_of_ne h]
    rfl

/-! ## The cases of a step -/

/-- **The cases of a step.** -/
theorem process_step_cases (h : s.step x = some s') :
    (∃ A op w, x = .op A op ∧ op.ready (s.parts A).runs = true ∧
      op.exec (s.world A) = some w ∧ s' = s.put A w) ∨
    ∃ A p r, RunMove s A p x r ∧ s' = s.setRun A p r := by
  cases x with
  | op A op =>
      left
      simp only [Process.step] at h
      split at h
      · rename_i hready
        obtain ⟨w, hw, rfl⟩ := Option.map_eq_some_iff.mp h
        exact ⟨A, op, w, rfl, hready, hw, rfl⟩
      · cases h
  | begin A p =>
      right
      simp only [Process.step] at h
      split at h
      · rename_i hp
        obtain ⟨c, hc, rfl⟩ := Option.map_eq_some_iff.mp h
        exact ⟨A, p, _, .begin hp.1 (Option.isNone_iff_eq_none.mp hp.2) hc, rfl⟩
      · cases h
  | call A p e =>
      right
      simp only [Process.step] at h
      split at h
      · cases h
      · rename_i he
        obtain ⟨r, hr, h⟩ := Option.bind_eq_some_iff.mp h
        obtain ⟨r', hr', rfl⟩ := Option.map_eq_some_iff.mp h
        exact ⟨A, p, r', .call (Bool.eq_false_iff.mpr he) hr hr', rfl⟩
  | test A p =>
      right
      obtain ⟨r, hr, h⟩ := Option.bind_eq_some_iff.mp h
      obtain ⟨r', hr', rfl⟩ := Option.map_eq_some_iff.mp h
      exact ⟨A, p, r', .test hr hr', rfl⟩

/-! ## The flag -/

/-- **The flag after a step.** -/
theorem process_step_isrun (h : s.step x = some s') : s'.isrun = (s.isrun && !stops x) := by
  obtain ⟨A, op, w, rfl, -, hw, rfl⟩ | ⟨A, p, r, hmove, rfl⟩ := process_step_cases h
  · exact exec_isrun hw
  · rw [hmove.stops, Bool.not_false, Bool.and_true]
    rfl

/-- **The flag after a run.** -/
theorem process_run_isrun {xs : List (ProcessAction ι)} (h : Process.machine.run s xs = some s') :
    s'.isrun = (s.isrun && !xs.any stops) := by
  induction xs generalizing s with
  | nil =>
      cases h
      simp
  | cons x xs ih =>
      obtain ⟨t, ht, h⟩ := Machine.run_cons_eq_some.mp h
      rw [ih h, process_step_isrun ht, List.any_cons, Bool.not_or, Bool.and_assoc]

/-! ## The tasks stay separate -/

theorem Separate.put (h : Separate s) (hw : op.exec (s.world A) = some w) :
    Separate (s.put A w) := by
  have hnew : ∀ B, B ≠ A → ∀ p ∈ (s.parts B).tasks, p ∉ acceptedTasks w := by
    intro B hB p hp hmem
    rcases (exec_frame hw).tasks p hmem with hold | hfresh
    · exact h.disjoint B A hB p hp hold
    · exact hfresh (h.live (A := B) hp)
  constructor
  · intro B
    by_cases hB : B = A
    · subst hB
      obtain ⟨S, hreg⟩ := h.registered B
      rw [world_put_self]
      exact registered_exec hreg hw
    · obtain ⟨S, hreg⟩ := h.registered B
      refine ⟨S, ?_⟩
      unfold Process.world
      rw [parts_put_of_ne hB]
      exact hreg.of_heap (fun p hp => h.heap_put hw hB hp) w.isrun
  · intro B p hp
    by_cases hB : B = A
    · subst hB
      by_contra hmem
      rw [tasks_put_self] at hmem
      exact hp (runs_put_self_of_notMem hmem)
    · rw [parts_put_of_ne hB] at hp ⊢
      exact h.runs B p hp
  · intro B C hBC p hp
    by_cases hB : B = A
    · subst hB
      rw [tasks_put_self] at hp
      rw [parts_put_of_ne (Ne.symm hBC)]
      intro hmem
      exact hnew C (Ne.symm hBC) p hmem hp
    · rw [parts_put_of_ne hB] at hp
      by_cases hC : C = A
      · subst hC
        rw [tasks_put_self]
        exact hnew B hB p hp
      · rw [parts_put_of_ne hC]
        exact h.disjoint B C hBC p hp

theorem tasks_setRun (B : ι) : ((s.setRun A p r).parts B).tasks = (s.parts B).tasks := by
  show acceptedTasks ((s.setRun A p r).world B) = acceptedTasks (s.world B)
  rw [world_setRun]

theorem Separate.setRun (h : Separate s) (hp : p ∈ (s.parts A).tasks) :
    Separate (s.setRun A p r) := by
  constructor
  · intro B
    rw [world_setRun]
    exact h.registered B
  · intro B q hq
    rw [tasks_setRun]
    by_cases hqp : q = p ∧ B = A
    · obtain ⟨rfl, rfl⟩ := hqp
      exact hp
    · apply h.runs B q
      rw [← runs_setRun_of_ne_or hqp]
      exact hq
  · intro B C hBC q hq
    rw [tasks_setRun] at hq ⊢
    exact h.disjoint B C hBC q hq

/-- **The step lemma.** -/
theorem Separate.step (h : Separate s) (hstep : s.step x = some s') : Separate s' := by
  obtain ⟨A, op, w, -, -, hw, rfl⟩ | ⟨A, p, r, hmove, rfl⟩ := process_step_cases hstep
  · exact h.put hw
  · exact h.setRun (hmove.mem_tasks h)

/-- After any run the tasks of the pools are separate. -/
theorem separate_of_run {xs : List (ProcessAction ι)}
    (h : Process.machine.run Process.init xs = some s) : Separate s :=
  Machine.run_inv (fun _ _ _ hs => hs.step) separate_init h

end DsAmq.Analysis
