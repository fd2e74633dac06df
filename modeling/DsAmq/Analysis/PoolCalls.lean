import DsAmq.Analysis.PoolTasks

/-!
# What the calls on the consumer pool can do

`startProcess_cases`, `submit_cases` and `afterExecute_cases` say what a call of `StartProcess`,
its loop and the completion of a task can do; `registered_of_run` says that after any calls and
completions, whatever the library calls do, the accepted tasks are in `m_sTask`, different and
live.
-/

set_option autoImplicit false

namespace DsAmq.Analysis

open DsAmq.Model DsAmq.Library

variable {w w' : PoolWorld} {p q : TaskPtr} {e : ExecutorId} {S : Finset TaskPtr}
  {a : StartArgs} {o : StartOutcomes} {r : PoolWorld.StartResult} {i k : ℕ}

/-- `StartProcess` gets to the loop that submits the tasks. -/
def reachesLoop (w : PoolWorld) (a : StartArgs) (o : StartOutcomes) : Bool :=
  decide (w.pool.sTask = ∅) && !(a.brokerURI.isEmpty || a.destURI.isEmpty) &&
    !o.createConnection.throws && decide (o.redelivery ≠ .nullPolicy) && !o.start.throws &&
    !o.addConnection.throws && (PoolWorld.illegalArgument a.nsize o).isNone

/-- The slots that a call asks for: the size of the pool, at most 50. -/
def slotsOf (a : StartArgs) : ℕ := min a.nPoolSize.toNat 50

/-- One of the `execute` calls of the loop throws. -/
def executeThrows (a : StartArgs) (o : StartOutcomes) : Bool :=
  (List.range (slotsOf a)).any fun i => decide (o.execute i ≠ .ok)

theorem toNat_nsize : a.nsize.toNat = slotsOf a := by
  unfold StartArgs.nsize slotsOf
  split <;> omega

theorem executeThrows_eq_false :
    executeThrows a o = false ↔ ∀ j < slotsOf a, o.execute j = .ok := by
  simp [executeThrows]

theorem sTask_of_reachesLoop (h : reachesLoop w a o = true) : w.pool.sTask = ∅ := by
  simp only [reachesLoop, Bool.and_eq_true, decide_eq_true_eq] at h
  exact h.1.1.1.1.1.1

theorem slotsOf_pos_of_reachesLoop (h : reachesLoop w a o = true) : 0 < slotsOf a := by
  simp only [reachesLoop, Bool.and_eq_true, Option.isNone_iff_eq_none] at h
  have hsize := h.2
  unfold PoolWorld.illegalArgument at hsize
  by_cases hle : a.nsize ≤ 0
  · rw [if_pos hle] at hsize
    cases hsize
  · rw [← toNat_nsize]
    omega

/-! ## The loop -/

/-- `execute` concerns the tasks that the executor has, and the memory. -/
theorem exists_execute_eq (x : ExecuteOutcome) :
    ∃ acc m, w.execute p x = { w with accepted := acc, heap := m } := by
  cases x with
  | ok =>
      cases he : w.pool.threadPool with
      | none => exact ⟨w.accepted, w.heap, by simp [PoolWorld.execute, he]⟩
      | some e => exact ⟨w.accepted ++ [(e, p)], w.heap, by simp [PoolWorld.execute, he]⟩
  | nullPointer msg => exact ⟨w.accepted, w.heap, rfl⟩
  | rejected msg => exact ⟨w.accepted, (w.deleteTask p).heap, rfl⟩

@[simp] theorem execute_threadPool (x : ExecuteOutcome) :
    (w.execute p x).pool.threadPool = w.pool.threadPool := by
  obtain ⟨acc, m, h⟩ := exists_execute_eq (w := w) (p := p) x
  rw [h]

@[simp] theorem execute_sTask (x : ExecuteOutcome) :
    (w.execute p x).pool.sTask = w.pool.sTask := by
  obtain ⟨acc, m, h⟩ := exists_execute_eq (w := w) (p := p) x
  rw [h]

@[simp] theorem execute_executors (x : ExecuteOutcome) :
    (w.execute p x).executors = w.executors := by
  obtain ⟨acc, m, h⟩ := exists_execute_eq (w := w) (p := p) x
  rw [h]

@[simp] theorem execute_nextTaskid (x : ExecuteOutcome) :
    (w.execute p x).pool.nextTaskid = w.pool.nextTaskid := by
  obtain ⟨acc, m, h⟩ := exists_execute_eq (w := w) (p := p) x
  rw [h]

theorem execute_accepted_ok (he : w.pool.threadPool = some e) :
    (w.execute p .ok).accepted = w.accepted ++ [(e, p)] := by
  simp [PoolWorld.execute, he]

theorem execute_accepted_throws {x : ExecuteOutcome} (hx : x ≠ .ok) :
    (w.execute p x).accepted = w.accepted := by
  cases x with
  | ok => exact absurd rfl hx
  | nullPointer msg => rfl
  | rejected msg => rfl

/-- How the loop ends that has `k` tasks to submit from the `i`-th on: all are accepted, or one
`execute` call throws. -/
inductive Submitted (o : StartOutcomes) (i k : ℕ) (w : PoolWorld) :
    PoolWorld.StartResult → PoolWorld → Prop
  | all {w' : PoolWorld} (hok : ∀ j, i ≤ j → j < i + k → o.execute j = .ok)
      (hreg : Registered w' w'.pool.sTask [] [])
      (hlen : w'.accepted.length = w.accepted.length + k) : Submitted o i k w ⟨true, none⟩ w'
  | thrown {r : PoolWorld.StartResult} {w' : PoolWorld} {S : Finset TaskPtr} {j : ℕ}
      (hle : i ≤ j) (hlt : j < i + k) (hj : o.execute j ≠ .ok) (hr : r.result = false)
      (hreg : Registered w' S [] []) (hne : w'.pool.sTask ≠ ∅)
      (hlen : w'.accepted.length < w.accepted.length + k) : Submitted o i k w r w'

/-- The world after the body of the loop: `new`, `insert` and `execute` of the `i`-th task. -/
def submitOne (o : StartOutcomes) (i : ℕ) (w : PoolWorld) : PoolWorld :=
  ((w.newTask (o.address i) i).insertTask (o.address i)).execute (o.address i) (o.execute i)

/-- One iteration: the loop goes on when the task is accepted, and ends when `execute` throws. -/
theorem submit_succ (hsub : PoolWorld.submit o i (k + 1) w = some (r, w')) :
    ¬ Live w (o.address i) ∧
      ((o.execute i = .ok ∧ PoolWorld.submit o (i + 1) k (submitOne o i w) = some (r, w')) ∨
        (o.execute i ≠ .ok ∧ r.result = false ∧ w' = submitOne o i w)) := by
  unfold PoolWorld.submit at hsub
  by_cases hp : (w.heap (o.address i)).isSome = true
  · rw [if_pos hp] at hsub
    cases hsub
  rw [if_neg hp] at hsub
  refine ⟨hp, ?_⟩
  unfold submitOne
  cases hx : o.execute i with
  | ok =>
      simp only [hx] at hsub
      exact Or.inl ⟨rfl, hsub⟩
  | nullPointer msg =>
      simp only [hx, Option.some.injEq, Prod.mk.injEq] at hsub
      exact Or.inr ⟨by simp, by simp [← hsub.1], hsub.2.symm⟩
  | rejected msg =>
      simp only [hx, Option.some.injEq, Prod.mk.injEq] at hsub
      exact Or.inr ⟨by simp, by simp [← hsub.1], hsub.2.symm⟩

/-- **The rule for the loop of `StartProcess`**: a relation that every iteration is in, and that
composes, holds between the worlds before and after the loop. -/
theorem submit_rel {T : PoolWorld → PoolWorld → Prop} (hrefl : ∀ w, T w w)
    (htrans : ∀ u v w, T u v → T v w → T u w)
    (hone : ∀ i w, ¬ Live w (o.address i) → T w (submitOne o i w))
    (hsub : PoolWorld.submit o i k w = some (r, w')) : T w w' := by
  induction k generalizing i w with
  | zero =>
      cases hsub
      exact hrefl _
  | succ k ih =>
      obtain ⟨hp, ⟨-, hsub⟩ | ⟨-, -, rfl⟩⟩ := submit_succ hsub
      · exact htrans _ _ _ (hone i w hp) (ih hsub)
      · exact hone i w hp

/-- An accepted task is registered. -/
theorem registered_submitOne (h : Registered w w.pool.sTask [] []) (hp : ¬ Live w (o.address i))
    (he : w.pool.threadPool = some e) (hx : o.execute i = .ok) :
    Registered (submitOne o i w) (submitOne o i w).pool.sTask [] [] := by
  unfold submitOne
  rw [hx, execute_sTask]
  exact (h.newTask hp i).insertTask.execute_ok he

/-- One `execute` call of the loop throws: its task stays in the set. -/
theorem submitted_thrown (h : Registered w w.pool.sTask [] []) (hp : ¬ Live w (o.address i))
    (hx : o.execute i ≠ .ok) (hr : r.result = false) :
    Submitted o i (k + 1) w r (submitOne o i w) := by
  have hreg := (h.newTask hp i).insertTask_uncounted (p := o.address i)
  unfold submitOne
  apply Submitted.thrown (le_refl i) (by omega) hx hr (hreg.execute_throws hx)
  · rw [execute_sTask]
    exact Finset.insert_ne_empty (o.address i) _
  · rw [execute_accepted_throws hx]
    show w.accepted.length < w.accepted.length + (k + 1)
    omega

/-- One `execute` call of the loop accepts its task, and the loop goes on. -/
theorem Submitted.cons {w₁ : PoolWorld} (h : Submitted o (i + 1) k w₁ r w')
    (hx : o.execute i = .ok) (hlen₁ : w₁.accepted.length = w.accepted.length + 1) :
    Submitted o i (k + 1) w r w' := by
  cases h with
  | all hok hreg hlen =>
      refine .all ?_ hreg (by omega)
      intro j hle hlt
      by_cases hj : j = i
      · rw [hj]
        exact hx
      · exact hok j (by omega) (by omega)
  | thrown hle hlt hj hr hreg hne hlen =>
      exact .thrown (by omega) (by omega) hj hr hreg hne (by omega)

/-- **The loop of `StartProcess`.** -/
theorem submit_cases (h : Registered w w.pool.sTask [] []) (he : w.pool.threadPool = some e)
    (hsub : PoolWorld.submit o i k w = some (r, w')) :
    w'.pool.threadPool = some e ∧ w'.executors = w.executors ∧ Submitted o i k w r w' := by
  induction k generalizing i w with
  | zero =>
      cases hsub
      exact ⟨he, rfl, .all (fun j hle hlt => by omega) h rfl⟩
  | succ k ih =>
      have he₁ : (submitOne o i w).pool.threadPool = some e := by
        unfold submitOne
        rw [execute_threadPool]
        exact he
      have hexec₁ : (submitOne o i w).executors = w.executors := by
        unfold submitOne
        rw [execute_executors]
        rfl
      obtain ⟨hp, ⟨hx, hsub⟩ | ⟨hx, hr, rfl⟩⟩ := submit_succ hsub
      · obtain ⟨he', hexec, hrest⟩ := ih (registered_submitOne h hp he hx) he₁ hsub
        refine ⟨he', hexec.trans hexec₁, hrest.cons hx ?_⟩
        have hacc : (submitOne o i w).accepted = w.accepted ++ [(e, o.address i)] := by
          unfold submitOne
          rw [hx]
          exact execute_accepted_ok he
        rw [hacc, List.length_append, List.length_singleton]
      · exact ⟨he₁, hexec₁, submitted_thrown h hp hx hr⟩

/-! ## `StartProcess` -/

/-- How a call of `StartProcess` ends: the pool is already started; the call fails before the
loop; or the loop runs, on a new executor. -/
inductive Started (w : PoolWorld) (a : StartArgs) (o : StartOutcomes) :
    PoolWorld.StartResult → PoolWorld → Prop
  | already (hne : w.pool.sTask ≠ ∅) : Started w a o ⟨true, none⟩ w
  | failed {r : PoolWorld.StartResult} {w' : PoolWorld} (hempty : w.pool.sTask = ∅)
      (hloop : reachesLoop w a o = false) (hr : r.result = false) (hsame : SameTasks w w') :
      Started w a o r w'
  | loop {r : PoolWorld.StartResult} {w₁ w₂ w' : PoolWorld} (hloop : reachesLoop w a o = true)
      (hsame₁ : SameTasks w w₁)
      (hsub : PoolWorld.submit o 0 a.nsize.toNat w₁.newExecutor = some (r, w₂))
      (hsame₂ : SameTasks w₂ w') : Started w a o r w'

/-- The part of `StartProcess` from the session pool on. -/
theorem startTasks_cases {nsize : ℤ} (h : w.startTasks nsize o = some (r, w')) :
    (PoolWorld.illegalArgument nsize o ≠ none ∧ r.result = false ∧ SameTasks w w') ∨
      (PoolWorld.illegalArgument nsize o = none ∧ ∃ w₁ w₂, SameTasks w w₁ ∧
        PoolWorld.submit o 0 nsize.toNat w₁.newExecutor = some (r, w₂) ∧ SameTasks w₂ w') := by
  simp only [PoolWorld.startTasks] at h
  cases hill : PoolWorld.illegalArgument nsize o with
  | some msg =>
      simp only [hill, Option.some.injEq, Prod.mk.injEq] at h
      refine Or.inl ⟨by simp, by simp [← h.1], ?_⟩
      rw [← h.2]
      exact sameTasks_resetSessionpool
  | none =>
      simp only [hill] at h
      refine Or.inr ⟨rfl, w.resetSessionpool, ?_⟩
      split at h
      · rename_i err w₂ hsub
        simp only [Option.some.injEq, Prod.mk.injEq] at h
        refine ⟨w₂, sameTasks_resetSessionpool, ?_, ?_⟩
        · rw [hsub, ← h.1]
        · rw [← h.2]
          exact sameTasks_setNext nsize
      · exact ⟨w', sameTasks_resetSessionpool, h, SameTasks.refl w'⟩

/-- Where a call of `StartProcess` ends: one constructor for each `return` and each library call
that throws, up to the session pool. -/
inductive StartPath (w : PoolWorld) (a : StartArgs) (o : StartOutcomes) :
    PoolWorld.StartResult → PoolWorld → Prop
  | already (hne : w.pool.sTask ≠ ∅) : StartPath w a o ⟨true, none⟩ w
  | refused {r : PoolWorld.StartResult} (hempty : w.pool.sTask = ∅)
      (huri : (a.brokerURI.isEmpty || a.destURI.isEmpty) = true) (hr : r.result = false) :
      StartPath w a o r w
  | unconnected {r : PoolWorld.StartResult} (hempty : w.pool.sTask = ∅)
      (huri : (a.brokerURI.isEmpty || a.destURI.isEmpty) = false)
      (hc : o.createConnection.throws = true) (hr : r.result = false) :
      StartPath w a o r (w.setMembers a)
  | unstarted {r : PoolWorld.StartResult} (hempty : w.pool.sTask = ∅)
      (huri : (a.brokerURI.isEmpty || a.destURI.isEmpty) = false)
      (hc : o.createConnection.throws = false)
      (hs : o.redelivery = .nullPolicy ∨ o.start.throws = true) (hr : r.result = false) :
      StartPath w a o r (w.setMembers a).createConnection
  | unadded {r : PoolWorld.StartResult} (hempty : w.pool.sTask = ∅)
      (huri : (a.brokerURI.isEmpty || a.destURI.isEmpty) = false)
      (hc : o.createConnection.throws = false) (hpol : o.redelivery ≠ .nullPolicy)
      (hs : o.start.throws = false) (hadd : o.addConnection.throws = true)
      (hr : r.result = false) :
      StartPath w a o r (w.setMembers a).createConnection.newResourcemgr
  | tasks {r : PoolWorld.StartResult} {w' : PoolWorld} (hempty : w.pool.sTask = ∅)
      (huri : (a.brokerURI.isEmpty || a.destURI.isEmpty) = false)
      (hc : o.createConnection.throws = false) (hpol : o.redelivery ≠ .nullPolicy)
      (hs : o.start.throws = false) (hadd : o.addConnection.throws = false)
      (htasks : (w.setMembers a).createConnection.newResourcemgr.addConnection.startTasks
        a.nsize o = some (r, w')) : StartPath w a o r w'

/-- **The paths through `StartProcess`.** -/
theorem startPath_of_startProcess (h : w.startProcess a o = some (r, w')) :
    StartPath w a o r w' := by
  simp only [PoolWorld.startProcess] at h
  by_cases hempty : w.pool.sTask = ∅
  case neg =>
    rw [if_pos hempty] at h
    cases h
    exact .already hempty
  rw [if_neg (not_not.mpr hempty)] at h
  by_cases huri : (a.brokerURI.isEmpty || a.destURI.isEmpty) = true
  · rw [if_pos huri] at h
    cases h
    exact .refused hempty huri rfl
  rw [if_neg huri] at h
  rw [Bool.not_eq_true] at huri
  cases hc : o.createConnection with
  | cms msg =>
      simp only [hc] at h
      cases h
      exact .unconnected hempty huri (by rw [hc]; rfl) rfl
  | ok u =>
      simp only [hc] at h
      have hc' : o.createConnection.throws = false := by rw [hc]; rfl
      by_cases hpol : o.redelivery = .nullPolicy
      · rw [if_pos hpol] at h
        cases h
        exact .unstarted hempty huri hc' (.inl hpol) rfl
      rw [if_neg hpol] at h
      cases hs : o.start with
      | cms msg =>
          simp only [hs] at h
          cases h
          exact .unstarted hempty huri hc' (.inr (by rw [hs]; rfl)) rfl
      | ok u =>
          simp only [hs] at h
          have hs' : o.start.throws = false := by rw [hs]; rfl
          cases hadd : o.addConnection with
          | cms msg =>
              simp only [hadd] at h
              cases h
              exact .unadded hempty huri hc' hpol hs' (by rw [hadd]; rfl) rfl
          | ok u =>
              simp only [hadd] at h
              exact .tasks hempty huri hc' hpol hs' (by rw [hadd]; rfl) h

/-- **The cases of `StartProcess`.** -/
theorem startProcess_cases (h : w.startProcess a o = some (r, w')) : Started w a o r w' := by
  have hset := sameTasks_setMembers (w := w) a
  have hcon := hset.trans sameTasks_createConnection
  have hmgr := hcon.trans sameTasks_newResourcemgr
  cases startPath_of_startProcess h with
  | already hne => exact .already hne
  | refused hempty huri hr =>
      exact .failed hempty (by simp only [reachesLoop, huri]; simp) hr (SameTasks.refl w)
  | unconnected hempty huri hc hr => exact .failed hempty (by simp [reachesLoop, hc]) hr hset
  | unstarted hempty huri hc hs hr =>
      refine .failed hempty ?_ hr hcon
      rcases hs with hpol | hs
      · simp [reachesLoop, hpol]
      · simp [reachesLoop, hs]
  | unadded hempty huri hc hpol hs hadd hr =>
      exact .failed hempty (by simp [reachesLoop, hadd]) hr hmgr
  | tasks hempty huri hc hpol hs hadd htasks =>
      have hown := hmgr.trans sameTasks_addConnection
      rcases startTasks_cases htasks with
        ⟨hill, hr, hsame⟩ | ⟨hill, w₁, w₂, hsame₁, hsub, hsame₂⟩
      · obtain ⟨msg, hill⟩ := Option.ne_none_iff_exists'.mp hill
        exact .failed hempty (by simp [reachesLoop, hill]) hr (hown.trans hsame)
      · refine .loop ?_ (hown.trans hsame₁) hsub hsame₂
        simp [reachesLoop, hempty, huri, hc, hpol, hs, hadd, hill]

/-- The loop is entered on a new executor, with nothing registered. -/
theorem registered_newExecutor {w₁ : PoolWorld} (h : Registered w S [] [])
    (hempty : w.pool.sTask = ∅) (hsame : SameTasks w w₁) :
    Registered w₁.newExecutor w₁.newExecutor.pool.sTask [] [] ∧
      w₁.newExecutor.accepted = [] := by
  have hacc : w₁.newExecutor.accepted = [] := hsame.accepted.trans (h.accepted_eq_nil hempty)
  exact ⟨registered_of_idle (hsame.sTask.trans hempty) hacc, hacc⟩

/-! ## Completion and `StopProcess` -/

/-- The task at `p` has completed and has been taken out of the set, and there is a new one at `q`
that is not in the set yet. -/
def respawned (w : PoolWorld) (e : ExecutorId) (p q : TaskPtr) : PoolWorld :=
  { ((completed w e p).eraseTask p).newTask q w.pool.nextTaskid with
    pool.nextTaskid := w.pool.nextTaskid + 1 }

theorem sameTasks_respawned :
    SameTasks (((completed w e p).eraseTask p).newTask q w.pool.nextTaskid)
      (respawned w e p q) :=
  sameTasks_setNext _

/-- **The cases of a completion**: the task is replaced, or only deleted. -/
theorem afterExecute_cases {x : ExecuteOutcome} (h : w.afterExecute e p q x = some w') :
    (e, p) ∈ w.accepted ∧
      ((w.isOpen = true ∧ p ∈ w.pool.sTask ∧ ¬ Live ((completed w e p).eraseTask p) q ∧
          w' = (((respawned w e p q).insertTask q).execute q x).deleteTask p) ∨
        (¬ (w.isOpen = true ∧ p ∈ w.pool.sTask) ∧ w' = (completed w e p).deleteTask p)) := by
  simp only [PoolWorld.afterExecute] at h
  cases hcomplete : w.complete e p with
  | none =>
      rw [hcomplete] at h
      cases h
  | some w₀ => ?_
  simp only [hcomplete] at h
  obtain ⟨hp, rfl⟩ := complete_eq_some.mp hcomplete
  refine ⟨hp, ?_⟩
  have hopen : (completed w e p).isOpen = w.isOpen := rfl
  have hset : (completed w e p).pool.sTask = w.pool.sTask := rfl
  rw [hopen, hset] at h
  by_cases hfound : w.isOpen = true ∧ p ∈ w.pool.sTask
  · rw [if_pos (by simpa using hfound)] at h
    by_cases hq : ((completed w e p).heap q).isSome = true
    · rw [if_pos hq] at h
      cases h
    rw [if_neg hq, Option.some.injEq] at h
    exact Or.inl ⟨hfound.1, hfound.2, hq, h.symm⟩
  · rw [if_neg (by simpa using hfound), Option.some.injEq] at h
    exact Or.inr ⟨hfound, h.symm⟩

/-- A task is replaced by a new one that the executor accepts. -/
theorem registered_replaced (h : Registered w S [] []) (he : w.pool.threadPool = some e)
    (hp : (e, p) ∈ w.accepted) (hq : ¬ Live ((completed w e p).eraseTask p) q) :
    Registered ((((respawned w e p q).insertTask q).execute q .ok).deleteTask p)
      (insert q (S.erase p)) [] [] := by
  have hnew := ((h.complete hp).eraseTask.newTask hq _).sameTasks sameTasks_respawned
  have hopen : ((respawned w e p q).insertTask q).pool.threadPool = some e := he
  exact (hnew.insertTask.execute_ok hopen).deleteTask

/-- A task completes and is deleted, and another one may be in the set that the executor has not
accepted. -/
theorem registered_afterExecute {x : ExecuteOutcome} (h : Registered w S [] [])
    (hafter : w.afterExecute e p q x = some w') : ∃ S', Registered w' S' [] [] := by
  obtain ⟨hp, ⟨-, -, hq, rfl⟩ | ⟨-, rfl⟩⟩ := afterExecute_cases hafter
  · by_cases hx : x = .ok
    · rw [hx]
      exact ⟨_, registered_replaced h (h.owner (e, p) hp) hp hq⟩
    · have hnew := ((h.complete hp).eraseTask.newTask hq _).sameTasks sameTasks_respawned
      exact ⟨_, (hnew.insertTask_uncounted.execute_throws hx).deleteTask⟩
  · exact ⟨_, (h.complete hp).uncount.deleteTask⟩

/-- After `StopProcess` there is no executor and there are no tasks. -/
theorem stopProcess_spec (h : Registered w S [] []) :
    w.stopProcess.pool.sTask = ∅ ∧ w.stopProcess.accepted = [] := by
  have hacc : ({ w with isrun := false } : PoolWorld).stopExecutor.accepted = [] := by
    unfold PoolWorld.stopExecutor
    cases he : w.pool.threadPool with
    | none =>
        rw [List.eq_nil_iff_forall_not_mem]
        intro x hx
        have := h.owner x (by simpa [he] using hx)
        simp [he] at this
    | some e =>
        simp only [List.filter_eq_nil_iff]
        intro x hx
        have := h.owner x hx
        simp only [he, Option.some.injEq] at this
        simp [this]
  simp only [PoolWorld.stopProcess]
  constructor
  · split <;> rfl
  · split <;> exact hacc

/-- **The step lemma**, whatever the library calls do. -/
theorem registered_exec {op : PoolOp} (h : Registered w S [] []) (hop : op.exec w = some w') :
    ∃ S', Registered w' S' [] [] := by
  cases op with
  | start a o =>
      obtain ⟨⟨r, w''⟩, hstart, rfl⟩ := Option.map_eq_some_iff.mp hop
      cases startProcess_cases hstart with
      | already hne => exact ⟨S, h⟩
      | failed hempty hloop hr hsame => exact ⟨S, h.sameTasks hsame⟩
      | loop hloop hsame₁ hsub hsame₂ =>
          have hreg := (registered_newExecutor h (sTask_of_reachesLoop hloop) hsame₁).1
          obtain ⟨-, -, hsubmitted⟩ := submit_cases hreg rfl hsub
          cases hsubmitted with
          | all hok hreg hlen => exact ⟨_, hreg.sameTasks hsame₂⟩
          | thrown hle hlt hj hr hreg hne hlen => exact ⟨_, hreg.sameTasks hsame₂⟩
  | stop =>
      cases hop
      obtain ⟨hempty, hacc⟩ := stopProcess_spec h
      exact ⟨_, registered_of_idle hempty hacc⟩
  | complete e p q x => exact registered_afterExecute h hop

/-- After any calls and completions the accepted tasks are in the set. -/
theorem registered_of_run {ops : List PoolOp} (hrun : PoolWorld.machine.run .new ops = some w) :
    ∃ S, Registered w S [] [] := by
  have hnew : ∃ S, Registered PoolWorld.new S [] [] := ⟨_, registered_of_idle rfl rfl⟩
  refine Machine.run_inv (I := fun w => ∃ S, Registered w S [] []) ?_ hnew hrun
  intro w op w' h hop
  obtain ⟨S, h⟩ := h
  exact registered_exec h hop

end DsAmq.Analysis
