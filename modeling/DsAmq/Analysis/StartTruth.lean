import DsAmq.Analysis.PoolCalls

/-!
# When `StartProcess` tells the truth

`StartProcess` returns true when the pool is running: `m_threadPool` is an executor that is not
shut down, and `m_sTask` has one live, accepted task for each slot of the call that started it.
This holds exactly when no call since the last `StopProcess` was ended by an exception from
`execute` (`startProcess_truth_iff`).  Such a call leaves the task it could not submit in
`m_sTask`, and the next call takes the set for that of a running pool.

`PoolLog` is the pool with what its callers know: the slots of the call that submitted the tasks,
and whether an `execute` call of it threw.
-/

set_option autoImplicit false

namespace DsAmq.Analysis

open DsAmq.Model DsAmq.Library

/-- The pool, the slots of the call that last came to the loop, and whether an `execute` call
of it threw; `StopProcess` clears both. -/
structure PoolLog where
  world : PoolWorld
  slots : ℕ
  failed : Bool

namespace PoolLog

/-- The start of the process. -/
def new : PoolLog := ⟨.new, 0, false⟩

/-- What is noted of an operation that leads to `w`. -/
def note (l : PoolLog) (w : PoolWorld) : PoolOp → PoolLog
  | .start a o =>
      if reachesLoop l.world a o then ⟨w, slotsOf a, executeThrows a o⟩
      else { l with world := w }
  | .stop => ⟨w, 0, false⟩
  | .complete _ _ _ _ => { l with world := w }

/-- Any sequence of calls and completions, with what is noted of them. -/
def machine : Machine PoolLog PoolOp := ⟨fun l op => (op.exec l.world).map fun w => l.note w op⟩

/-- The slots of the pool after a call of `StartProcess`. -/
def slotsAfter (l : PoolLog) (a : StartArgs) (o : StartOutcomes) : ℕ :=
  if reachesLoop l.world a o then slotsOf a else l.slots

end PoolLog

/-- The operation is not a completion whose new task `execute` refuses. -/
def respawns : PoolOp → Bool
  | .complete _ _ _ x => decide (x = .ok)
  | _ => true

/-- The pool is running with `n` slots. -/
def Running (w : PoolWorld) (n : ℕ) : Prop :=
  ∃ e x, w.pool.threadPool = some e ∧ w.executors[e]? = some x ∧
    x.isShutdown = false ∧ x.deleted = false ∧
    (∀ p ∈ w.pool.sTask, Live w p ∧ (e, p) ∈ w.accepted) ∧ w.pool.sTask.card = n

variable {w w' : PoolWorld} {l l' : PoolLog} {S : Finset TaskPtr} {n : ℕ}

/-! ## The invariant -/

/-- What the log says of the pool: the tasks are those of a running pool with `slots` slots, or
there are fewer of them and the set is not empty. -/
structure Logged (l : PoolLog) : Prop where
  registered : ∃ S, Registered l.world S [] [] ∧ (l.failed = false → S = l.world.pool.sTask)
  isOpen : l.world.pool.sTask ≠ ∅ → Open l.world
  full : l.failed = false → l.world.pool.sTask ≠ ∅ → l.world.accepted.length = l.slots
  short : l.failed = true →
    l.world.pool.sTask ≠ ∅ ∧ l.world.accepted.length < l.slots

theorem logged_new : Logged .new :=
  ⟨⟨_, registered_of_idle rfl rfl, fun _ => rfl⟩, fun h => absurd rfl h, fun _ h => absurd rfl h,
    by simp [PoolLog.new]⟩

theorem not_failed_of_empty (h : Logged l) (hempty : l.world.pool.sTask = ∅) :
    l.failed = false := by
  cases hf : l.failed with
  | false => rfl
  | true => exact absurd hempty (h.short hf).1

/-- A step that does not concern the tasks. -/
theorem Logged.of_sameTasks (h : Logged l) (hsame : SameTasks l.world w) :
    Logged { l with world := w } := by
  obtain ⟨S, hreg, hS⟩ := h.registered
  refine ⟨⟨S, hreg.sameTasks hsame, ?_⟩, ?_, ?_, ?_⟩
  · rw [hsame.sTask]
    exact hS
  · intro hne
    rw [hsame.sTask] at hne
    exact (h.isOpen hne).of_eq hsame.threadPool hsame.executors
  · rw [hsame.sTask, hsame.accepted]
    exact h.full
  · rw [hsame.sTask, hsame.accepted]
    exact h.short

/-- The loop fills the pool, or leaves it short of tasks. -/
theorem logged_loop {a : StartArgs} {o : StartOutcomes} {r : PoolWorld.StartResult}
    {w₁ w₂ : PoolWorld} (h : Logged l) (hloop : reachesLoop l.world a o = true)
    (hsame₁ : SameTasks l.world w₁)
    (hsub : PoolWorld.submit o 0 a.nsize.toNat w₁.newExecutor = some (r, w₂)) :
    Logged ⟨w₂, slotsOf a, executeThrows a o⟩ ∧ w₂.pool.sTask ≠ ∅ ∧
      r.result = !executeThrows a o := by
  obtain ⟨S, hreg, -⟩ := h.registered
  obtain ⟨hnew, hacc⟩ := registered_newExecutor hreg (sTask_of_reachesLoop hloop) hsame₁
  obtain ⟨he, hexec, hsubmitted⟩ := submit_cases hnew rfl hsub
  have hopen : Open w₂ := open_newExecutor.of_eq he hexec
  rw [toNat_nsize] at hsubmitted
  cases hsubmitted with
  | all hok hreg hlen =>
      have hthrows : executeThrows a o = false := by
        rw [executeThrows_eq_false]
        intro j hj
        exact hok j (Nat.zero_le j) (by omega)
      have hfull : w₂.accepted.length = slotsOf a := by
        rw [hlen, hacc, List.length_nil, Nat.zero_add]
      have hne : w₂.pool.sTask ≠ ∅ := by
        intro hempty
        have hpos := slotsOf_pos_of_reachesLoop hloop
        rw [hreg.accepted_eq_nil hempty, List.length_nil] at hfull
        omega
      rw [hthrows]
      exact ⟨⟨⟨_, hreg, fun _ => rfl⟩, fun _ => hopen, fun _ _ => hfull, by simp⟩, hne, rfl⟩
  | @thrown _ _ S j hle hlt hj hr hreg hne hlen =>
      have hthrows : executeThrows a o = true := by
        by_contra hnone
        rw [Bool.not_eq_true, executeThrows_eq_false] at hnone
        exact hj (hnone j (by omega))
      rw [hacc, List.length_nil, Nat.zero_add] at hlen
      rw [hthrows]
      exact ⟨⟨⟨S, hreg, by simp⟩, fun _ => hopen, by simp, fun _ => ⟨hne, hlen⟩⟩, hne, hr⟩

/-- A completion keeps the number of tasks. -/
theorem logged_complete {e : ExecutorId} {p q : TaskPtr} (h : Logged l)
    (hafter : l.world.afterExecute e p q .ok = some w) : Logged { l with world := w } := by
  obtain ⟨S, hreg, hS⟩ := h.registered
  obtain ⟨hp, hcases⟩ := afterExecute_cases hafter
  have hmem : p ∈ l.world.pool.sTask :=
    hreg.subset ((hreg.tracked.mem p).mpr (List.mem_map_of_mem hp))
  have hopen := h.isOpen (Finset.ne_empty_of_mem hmem)
  rcases hcases with ⟨-, -, hq, rfl⟩ | ⟨hno, -⟩
  case inr => exact absurd ⟨hopen.isOpen, hmem⟩ hno
  have hreg' := registered_replaced hreg (hreg.owner (e, p) hp) hp hq
  have hsame := sameTasks_respawned (w := l.world) (e := e) (p := p) (q := q)
  generalize respawned l.world e p q = w₁ at hreg' hsame ⊢
  have he : w₁.pool.threadPool = some e := hsame.threadPool.trans (hreg.owner (e, p) hp)
  have hset : ((w₁.insertTask q).execute q .ok).pool.sTask =
      insert q (l.world.pool.sTask.erase p) := by
    rw [execute_sTask]
    show insert q w₁.pool.sTask = _
    rw [hsame.sTask]
    rfl
  have hlen : ((w₁.insertTask q).execute q .ok).accepted.length = l.world.accepted.length := by
    have hacc : ((w₁.insertTask q).execute q .ok).accepted = w₁.accepted ++ [(e, q)] :=
      execute_accepted_ok he
    rw [hacc, hsame.accepted, List.length_append, List.length_singleton]
    exact List.length_erase_add_one hp
  have hne : insert q (l.world.pool.sTask.erase p) ≠ ∅ := Finset.insert_ne_empty q _
  refine ⟨⟨_, hreg', ?_⟩, ?_, ?_, ?_⟩
  · intro hfailed
    rw [hS hfailed]
    exact hset.symm
  · intro _
    refine hopen.of_eq ?_ ?_
    · show ((w₁.insertTask q).execute q .ok).pool.threadPool = _
      rw [execute_threadPool]
      exact hsame.threadPool
    · show ((w₁.insertTask q).execute q .ok).executors = _
      rw [execute_executors]
      exact hsame.executors
  · intro hfailed _
    exact hlen.trans (h.full hfailed (Finset.ne_empty_of_mem hmem))
  · intro hfailed
    constructor
    · show ((w₁.insertTask q).execute q .ok).pool.sTask ≠ ∅
      rw [hset]
      exact hne
    · exact lt_of_eq_of_lt hlen (h.short hfailed).2

/-- **The step lemma.** -/
theorem logged_step {op : PoolOp} (h : Logged l) (hop : respawns op = true)
    (hstep : PoolLog.machine.step l op = some l') : Logged l' := by
  obtain ⟨w', hexec, rfl⟩ := Option.map_eq_some_iff.mp hstep
  cases op with
  | start a o =>
      obtain ⟨⟨r, w''⟩, hstart, rfl⟩ := Option.map_eq_some_iff.mp hexec
      simp only [PoolLog.note]
      cases startProcess_cases hstart with
      | already hne =>
          rw [if_neg fun hloop => hne (sTask_of_reachesLoop hloop)]
          exact h
      | failed hempty hloop hr hsame =>
          rw [hloop]
          exact h.of_sameTasks hsame
      | loop hloop hsame₁ hsub hsame₂ =>
          rw [if_pos hloop]
          exact (logged_loop h hloop hsame₁ hsub).1.of_sameTasks hsame₂
  | stop =>
      cases hexec
      obtain ⟨S, hreg, -⟩ := h.registered
      obtain ⟨hempty, hacc⟩ := stopProcess_spec hreg
      exact ⟨⟨_, registered_of_idle hempty hacc, fun _ => rfl⟩, fun hne => absurd hempty hne,
        fun _ hne => absurd hempty hne, by simp [PoolLog.note]⟩
  | complete e p q x =>
      obtain rfl : x = .ok := by simpa [respawns] using hop
      exact logged_complete h hexec

/-- The invariant holds after any calls and completions. -/
theorem logged_of_run {ops : List PoolOp} (hops : ∀ op ∈ ops, respawns op = true)
    (hrun : PoolLog.machine.run .new ops = some l) : Logged l := by
  have hmeets : PoolLog.machine.Meets (fun _ op => respawns op = true) .new ops :=
    Machine.meets_of_forall _ fun op hop _ => hops op hop
  refine Machine.run_inv_of_meets ?_ logged_new hmeets hrun
  intro l op l' h hop hstep
  exact logged_step h hop hstep

/-! ## The truth -/

/-- A pool with tasks is running exactly when no `execute` call threw. -/
theorem running_iff (h : Logged l) (hne : l.world.pool.sTask ≠ ∅) :
    Running l.world l.slots ↔ l.failed = false := by
  obtain ⟨S, hreg, hS⟩ := h.registered
  constructor
  · rintro ⟨e, x, -, -, -, -, hall, hcard⟩
    by_contra hfailed
    rw [Bool.not_eq_false] at hfailed
    -- every element of the set is accepted, but too few tasks are
    have hsub : l.world.pool.sTask ⊆ (l.world.accepted.map Prod.snd).toFinset := by
      intro p hp
      rw [List.mem_toFinset]
      exact List.mem_map_of_mem (hall p hp).2
    have hle : l.slots ≤ l.world.accepted.length := by
      calc l.slots = l.world.pool.sTask.card := hcard.symm
        _ ≤ (l.world.accepted.map Prod.snd).toFinset.card := Finset.card_le_card hsub
        _ ≤ (l.world.accepted.map Prod.snd).length := List.toFinset_card_le _
        _ = l.world.accepted.length := List.length_map _
    have hlt := (h.short hfailed).2
    omega
  · intro hfailed
    obtain ⟨e, he, hx⟩ := h.isOpen hne
    obtain rfl := hS hfailed
    refine ⟨e, _, he, hx, rfl, rfl, ?_, ?_⟩
    · intro p hp
      have hmem : p ∈ l.world.accepted.map Prod.snd := (hreg.tracked.mem p).mp hp
      refine ⟨hreg.tracked.alive p (List.mem_append_left [] hmem), ?_⟩
      obtain ⟨x, hx, rfl⟩ := List.mem_map.mp hmem
      have howner := hreg.owner x hx
      rw [he, Option.some.injEq] at howner
      rw [howner]
      exact hx
    · rw [hreg.tracked.card_eq, List.nil_append, List.length_map]
      exact h.full hfailed hne

/-- A call on a pool with tasks returns true at once. -/
theorem startProcess_of_ne {a : StartArgs} {o : StartOutcomes} (hne : w.pool.sTask ≠ ∅) :
    w.startProcess a o = some (⟨true, none⟩, w) := by
  unfold PoolWorld.startProcess
  rw [if_pos hne]

theorem slotsAfter_of_ne {a : StartArgs} {o : StartOutcomes} (hne : l.world.pool.sTask ≠ ∅) :
    l.slotsAfter a o = l.slots :=
  if_neg fun hloop => hne (sTask_of_reachesLoop hloop)

/-- **What `StartProcess` returns.**  After any calls of `StartProcess` and `StopProcess`, with
any arguments and any outcomes of the library calls of `StartProcess`, and with completions of
tasks in between: that a call which returns true leaves the pool running, with one live accepted
task for each of the slots, holds if and only if no `execute` call of `StartProcess` has thrown
since the last `StopProcess`. -/
theorem startProcess_truth_iff {ops : List PoolOp} (hops : ∀ op ∈ ops, respawns op = true)
    (hrun : PoolLog.machine.run .new ops = some l) (a : StartArgs) (o : StartOutcomes) :
    (∀ r w', l.world.startProcess a o = some (r, w') → r.result = true →
      Running w' (l.slotsAfter a o)) ↔ l.failed = false := by
  have h := logged_of_run hops hrun
  constructor
  · intro htruth
    by_cases hempty : l.world.pool.sTask = ∅
    · exact not_failed_of_empty h hempty
    · have hrunning := htruth _ _ (startProcess_of_ne hempty) rfl
      rw [slotsAfter_of_ne hempty] at hrunning
      exact (running_iff h hempty).mp hrunning
  · intro hfailed r w' hstart hr
    cases startProcess_cases hstart with
    | already hne =>
        rw [slotsAfter_of_ne hne]
        exact (running_iff h hne).mpr hfailed
    | failed hempty hloop hr' hsame =>
        rw [hr'] at hr
        cases hr
    | loop hloop hsame₁ hsub hsame₂ =>
        obtain ⟨hlogged, hne, hresult⟩ := logged_loop h hloop hsame₁ hsub
        have hthrows : executeThrows a o = false := by simpa [hr] using hresult
        have hslots : l.slotsAfter a o = slotsOf a := if_pos hloop
        rw [hslots]
        exact (running_iff (hlogged.of_sameTasks hsame₂) (by rwa [hsame₂.sTask])).mpr hthrows

/-- Two slots are asked for. -/
def twoSlots : StartArgs := ⟨"broker", "orders", false, true, 3000, 2⟩

/-- All library calls return; the `i`-th task is at the address `i`, and `execute` ends with
`x i`. -/
def allReturn (x : ℕ → ExecuteOutcome) : StartOutcomes :=
  ⟨.ok (), .policy, .ok (), .ok (), none, id, x⟩

/-- The second of two tasks is rejected; the pool is stopped and started again. -/
def restarted : List PoolOp :=
  [.start twoSlots (allReturn fun i => if i = 1 then .rejected "full" else .ok), .stop,
    .start twoSlots (allReturn fun _ => .ok)]

theorem startProcess_truth_iff_restarted :
    ∃ l, PoolLog.machine.run .new restarted = some l ∧ l.failed = false ∧ l.slots = 2 ∧
      l.world.startProcess twoSlots (allReturn fun _ => .ok) = some (⟨true, none⟩, l.world) ∧
      Running l.world 2 := by
  have hrun : (PoolLog.machine.run .new restarted).map
      (fun l => (l.failed, l.slots, l.world.pool.sTask)) = some (false, 2, {0, 1}) := by
    decide +kernel
  obtain ⟨l, hrun, hl⟩ := Option.map_eq_some_iff.mp hrun
  simp only [Prod.mk.injEq] at hl
  obtain ⟨hfailed, hslots, hset⟩ := hl
  have hne : l.world.pool.sTask ≠ ∅ := by
    rw [hset]
    decide
  have htruth := (startProcess_truth_iff (by simp [restarted, respawns]) hrun twoSlots
    (allReturn fun _ => .ok)).mpr hfailed
  have hrunning := htruth _ _ (startProcess_of_ne hne) rfl
  rw [slotsAfter_of_ne hne, hslots] at hrunning
  exact ⟨l, hrun, hfailed, hslots, startProcess_of_ne hne, hrunning⟩

/-- The first of two tasks is rejected and deleted, and the call returns false.  The next call
returns true: its executor has no task, and the only element of the set is not live. -/
theorem rejected_task_taken_for_running_pool :
    ∃ l, PoolLog.machine.run .new
        [.start twoSlots (allReturn fun _ => .rejected "full")] = some l ∧
      l.world.startProcess twoSlots (allReturn fun _ => .ok) = some (⟨true, none⟩, l.world) ∧
      l.world.pool.sTask = {0} ∧ ¬ Live l.world 0 ∧ l.world.accepted = [] ∧
      ¬ Running l.world (l.slotsAfter twoSlots (allReturn fun _ => .ok)) := by
  have hrun : (PoolLog.machine.run .new
      [.start twoSlots (allReturn fun _ => .rejected "full")]).map
      (fun l => (l.world.pool.sTask, (l.world.heap 0).isSome, l.world.accepted)) =
      some ({0}, false, []) := by
    decide +kernel
  obtain ⟨l, hrun, hl⟩ := Option.map_eq_some_iff.mp hrun
  simp only [Prod.mk.injEq] at hl
  obtain ⟨hset, hlive, hacc⟩ := hl
  have hne : l.world.pool.sTask ≠ ∅ := by
    rw [hset]
    decide
  have hdead : ¬ Live l.world 0 := by simp [Live, hlive]
  refine ⟨l, hrun, startProcess_of_ne hne, hset, hdead, hacc, ?_⟩
  rintro ⟨e, x, -, -, -, -, hall, -⟩
  exact hdead (hall 0 (by simp [hset])).1

end DsAmq.Analysis
