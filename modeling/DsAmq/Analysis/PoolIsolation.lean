import DsAmq.Analysis.ProcessSteps
import DsAmq.Analysis.StartTruth
import DsAmq.Library.Unwinding

/-!
# Pools of different task classes

The static data members of a pool are its own, and so are its tasks, which live in the memory that
all pools share; what the pools share besides is the flag of `CDSAMQStopper`.  An operation on one
pool leaves another one undisturbed unless it is the `StopProcess` that clears the flag, and without
such a call the tasks of the other pool decide the same at the head of their loops, whatever is done
on the one pool (`pools_isolated_iff`).
-/

set_option autoImplicit false

namespace DsAmq.Analysis

open DsAmq.Model DsAmq.Library

section Relation

variable {ι : Type}

/-- All that decides the behaviour of the tasks of `B` is the same: the static data members, the
executors, the tasks and their runs, and the flag that they test. -/
structure Undisturbed (B : ι) (s s' : Process ι) : Prop where
  part : s'.parts B = s.parts B
  heap : ∀ p ∈ (s.parts B).tasks, s'.heap p = s.heap p
  isrun : s'.isrun = s.isrun

/-- If the action is a call of `StopProcess` on `A`, the flag is cleared already. -/
def SparesFlag (A : ι) (s : Process ι) (x : ProcessAction ι) : Prop :=
  x.owner = A → stops x = true → s.isrun = false

variable {A B C : ι} {s t u : Process ι} {x : ProcessAction ι} {p : TaskPtr}

theorem Undisturbed.symm (h : Undisturbed B s t) : Undisturbed B t s := by
  refine ⟨h.part.symm, ?_, h.isrun.symm⟩
  intro p hp
  rw [h.part] at hp
  exact (h.heap p hp).symm

theorem Undisturbed.trans (h : Undisturbed B s t) (h' : Undisturbed B t u) :
    Undisturbed B s u := by
  refine ⟨h'.part.trans h.part, ?_, h'.isrun.trans h.isrun⟩
  intro p hp
  have hp' : p ∈ (t.parts B).tasks := by
    rw [h.part]
    exact hp
  rw [h'.heap p hp', h.heap p hp]

/-- What the operations on the pool work on is the same, up to the rest of the memory. -/
theorem Undisturbed.agree (h : Undisturbed B s t) : Agree (s.world B) (t.world B) := by
  refine ⟨t.heap, ?_, h.heap⟩
  unfold Process.world
  rw [h.part, h.isrun]

/-- A task makes the same move in both states. -/
theorem RunMove.eq {q : TaskPtr} {r r' : Run} (hothers : Undisturbed C s t)
    (hmove : RunMove s C p x r) (hmove' : RunMove t C q x r') : q = p ∧ r' = r := by
  cases hmove with
  | begin hp hrun hc =>
      cases hmove' with
      | begin hp' hrun' hc' =>
          rw [hothers.heap p hp, hc] at hc'
          cases hc'
          exact ⟨rfl, rfl⟩
  | call he hrun hr =>
      cases hmove' with
      | call he' hrun' hr' =>
          rw [hothers.part, hrun] at hrun'
          cases hrun'
          rw [hr] at hr'
          cases hr'
          exact ⟨rfl, rfl⟩
  | test hrun hr =>
      cases hmove' with
      | test hrun' hr' =>
          rw [hothers.part, hrun] at hrun'
          cases hrun'
          rw [hothers.isrun, hr] at hr'
          cases hr'
          exact ⟨rfl, rfl⟩

/-- The states differ in what belongs to `A` only. -/
structure OnlyIn (A : ι) (s t : Process ι) : Prop where
  left : Separate s
  right : Separate t
  others : ∀ C, C ≠ A → Undisturbed C s t

theorem OnlyIn.symm (h : OnlyIn A s t) : OnlyIn A t s :=
  ⟨h.right, h.left, fun C hC => (h.others C hC).symm⟩

variable [DecidableEq ι]

/-- The action does not belong to `A`. -/
def offPool (A : ι) (x : ProcessAction ι) : Bool := decide (x.owner ≠ A)

/-- The decision that a task of `B` takes at the head of its loop. -/
def decision (B : ι) (s : Process ι) : ProcessAction ι → Option (TaskPtr × Bool)
  | .test C p => if C = B then some (p, s.isrun) else none
  | _ => none

variable {w v : PoolWorld} {op : PoolOp} {r : Run} {s' t' : Process ι}

/-! ## Actions of the pool itself -/

theorem undisturbed_put (h : Separate s) (hw : op.exec (s.world A) = some w) (hB : B ≠ A)
    (hflag : w.isrun = s.isrun) : Undisturbed B s (s.put A w) :=
  ⟨parts_put_of_ne hB, fun _ hp => h.heap_put hw hB hp, hflag⟩

theorem undisturbed_setRun (hB : B ≠ A) : Undisturbed B s (s.setRun A p r) :=
  ⟨parts_setRun_of_ne hB, fun _ _ => rfl, rfl⟩

/-- **An action of `A` disturbs `B` exactly when it clears the flag.** -/
theorem undisturbed_iff (h : Separate s) (hx : x.owner = A) (hB : B ≠ A)
    (hstep : s.step x = some s') : Undisturbed B s s' ↔ SparesFlag A s x := by
  have hflag : SparesFlag A s x ↔ s'.isrun = s.isrun := by
    unfold SparesFlag
    rw [process_step_isrun hstep]
    cases hstop : stops x <;> cases s.isrun <;> simp [hx]
  rw [hflag]
  constructor
  · intro hsame
    exact hsame.isrun
  · intro hsame
    obtain ⟨C, op, w, rfl, -, hw, rfl⟩ | ⟨C, p, r, hmove, rfl⟩ := process_step_cases hstep
    · obtain rfl : C = A := hx
      exact undisturbed_put h hw hB hsame
    · obtain rfl : C = A := hmove.owner.symm.trans hx
      exact undisturbed_setRun hB

/-! ## The same action in two states -/

theorem onlyIn_put (h : OnlyIn A s t) (hC : C ≠ A) (hw : op.exec (s.world C) = some w)
    (hv : op.exec (t.world C) = some v) : OnlyIn A (s.put C w) (t.put C v) := by
  obtain ⟨m, rfl, hheap⟩ := exec_agree (h.others C hC).agree hw hv
  refine ⟨h.left.put hw, h.right.put hv, ?_⟩
  intro D hD
  by_cases hDC : D = C
  · subst hDC
    refine ⟨?_, ?_, rfl⟩
    · simp [Process.put, (h.others D hD).part]
    · intro p hp
      rw [tasks_put_self] at hp
      exact hheap p hp
  · refine ⟨?_, ?_, rfl⟩
    · rw [parts_put_of_ne hDC, parts_put_of_ne hDC, (h.others D hD).part]
    · intro p hp
      rw [parts_put_of_ne hDC] at hp
      have hp' : p ∈ (t.parts D).tasks := by
        rw [(h.others D hD).part]
        exact hp
      calc m p = t.heap p := h.right.heap_put hv hDC hp'
        _ = s.heap p := (h.others D hD).heap p hp
        _ = w.heap p := (h.left.heap_put hw hDC hp).symm

theorem onlyIn_setRun (h : OnlyIn A s t) (hC : C ≠ A) (hp : p ∈ (s.parts C).tasks) :
    OnlyIn A (s.setRun C p r) (t.setRun C p r) := by
  have hp' : p ∈ (t.parts C).tasks := by
    rw [(h.others C hC).part]
    exact hp
  refine ⟨h.left.setRun hp, h.right.setRun hp', ?_⟩
  intro D hD
  refine ⟨?_, ?_, (h.others D hD).isrun⟩
  · by_cases hDC : D = C
    · subst hDC
      simp [Process.setRun, (h.others D hD).part]
    · rw [parts_setRun_of_ne hDC, parts_setRun_of_ne hDC, (h.others D hD).part]
  · intro q hq
    rw [tasks_setRun] at hq
    exact (h.others D hD).heap q hq

/-- **An action of another pool does the same in both states.** -/
theorem onlyIn_step (h : OnlyIn A s t) (hx : x.owner ≠ A) (hs : s.step x = some s')
    (ht : t.step x = some t') : OnlyIn A s' t' := by
  obtain ⟨C, op, w, rfl, -, hw, rfl⟩ | ⟨C, p, r, hmove, rfl⟩ := process_step_cases hs
  · obtain ⟨D, op', v, heq, -, hv, rfl⟩ | ⟨D, p, r, hmove, rfl⟩ := process_step_cases ht
    · cases heq
      exact onlyIn_put h hx hw hv
    · cases hmove
  · obtain ⟨D, op', v, rfl, -, hv, rfl⟩ | ⟨D, q, r', hmove', rfl⟩ := process_step_cases ht
    · cases hmove
    · obtain rfl : D = C := hmove'.owner.symm.trans hmove.owner
      have hD : D ≠ A := hmove.owner ▸ hx
      obtain ⟨rfl, rfl⟩ := RunMove.eq (h.others D hD) hmove hmove'
      exact onlyIn_setRun h hD (hmove.mem_tasks h.left)

/-! ## Whole runs -/

/-- The actions of `A` that spare the flag are hidden from the tasks of `B`. -/
theorem unwinding_offPool (hAB : A ≠ B) :
    Process.machine.Unwinding (OnlyIn A) (offPool A) (SparesFlag A) (decision B) where
  symm s t h := h.symm
  hidden s t x s' h hx hspare hstep := by
    have hx : x.owner = A := by simpa [offPool] using hx
    refine ⟨h.left.step hstep, h.right, ?_⟩
    intro C hC
    have hsame : Undisturbed C s s' := (undisturbed_iff h.left hx hC hstep).mpr hspare
    exact hsame.symm.trans (h.others C hC)
  silent s x hx := by
    have hx : x.owner = A := by simpa [offPool] using hx
    cases x with
    | test C p =>
        obtain rfl : C = A := hx
        exact if_neg hAB
    | op | begin | call => rfl
  matched s t x s' t' h hx hs ht := by
    have hx : x.owner ≠ A := by simpa [offPool] using hx
    refine ⟨onlyIn_step h hx hs ht, ?_⟩
    cases x with
    | test C p =>
        simp only [decision]
        rw [(h.others C hx).isrun]
    | op | begin | call => rfl

/-- **When pools of different task classes do not interfere.**  In every state that a process with
any pools can get to: an operation on `A` leaves all that decides the behaviour of the tasks of `B`
unchanged if and only if it is not a `StopProcess` that clears the flag; and two runs from there
that differ in actions of `A` only, without such a `StopProcess`, give the tasks of `B` the same
sequence of decisions at the heads of their loops. -/
theorem pools_isolated_iff {xs : List (ProcessAction ι)}
    (hrun : Process.machine.run Process.init xs = some s) (hAB : A ≠ B) :
    (∀ op s', s.step (.op A op) = some s' →
      (Undisturbed B s s' ↔ SparesFlag A s (.op A op))) ∧
    ∀ ys zs s₁ s₂, Process.machine.run s ys = some s₁ → Process.machine.run s zs = some s₂ →
      ys.filter (offPool A) = zs.filter (offPool A) →
      Process.machine.Meets (SparesFlag A) s ys → Process.machine.Meets (SparesFlag A) s zs →
      Process.machine.collect (decision B) s ys = Process.machine.collect (decision B) s zs := by
  have hsep : Separate s := separate_of_run hrun
  constructor
  · intro op s' hstep
    exact undisturbed_iff hsep rfl (Ne.symm hAB) hstep
  · intro ys zs s₁ s₂ hys hzs heq hspare hspare'
    have hself : OnlyIn A s s := ⟨hsep, hsep, fun C _ => ⟨rfl, fun _ _ => rfl, rfl⟩⟩
    exact ((unwinding_offPool hAB).two_runs hself heq hspare hspare' hys hzs).2

end Relation

/-- The pools of two task classes are started; the tasks of `true` are at the addresses from 10
on. -/
def bothStarted : List (ProcessAction Bool) :=
  [.op false (.start twoSlots (allReturn fun _ => .ok)),
    .op true (.start twoSlots { allReturn fun _ => .ok with address := fun i => i + 10 })]

/-- A task of `true` gets to its loop and tests the flag. -/
def firstDecision : List (ProcessAction Bool) :=
  [.begin true 10, .call true 10 (.takeSession (.ok 0)),
    .call true 10 (.createDestination (Destination.select false "orders") (.ok ())),
    .call true 10 (.createCachedConsumer (.ok ())), .test true 10]

/-- A task of `false` gets no session and is replaced by another one. -/
def otherReplaced : List (ProcessAction Bool) :=
  [.begin false 0, .call false 0 (.takeSession (.cms "closed")), .op false (.complete 0 0 2 .ok)]

theorem pools_isolated_task_replaced :
    ∃ s s₁ s₂, Process.machine.run Process.init bothStarted = some s ∧
      Process.machine.run s (otherReplaced ++ firstDecision) = some s₁ ∧
      Process.machine.run s firstDecision = some s₂ ∧
      Process.machine.collect (decision true) s (otherReplaced ++ firstDecision) =
        Process.machine.collect (decision true) s firstDecision ∧
      Process.machine.collect (decision true) s firstDecision = [(10, true)] := by
  have hruns : ((Process.machine.run Process.init bothStarted).bind fun s =>
      (Process.machine.run s (otherReplaced ++ firstDecision)).bind fun _ =>
        (Process.machine.run s firstDecision).map fun _ =>
          Process.machine.collect (decision true) s firstDecision) = some [(10, true)] := by
    decide +kernel
  obtain ⟨s, hrun, hruns⟩ := Option.bind_eq_some_iff.mp hruns
  obtain ⟨s₁, hrun₁, hruns⟩ := Option.bind_eq_some_iff.mp hruns
  obtain ⟨s₂, hrun₂, hdecisions⟩ := Option.map_eq_some_iff.mp hruns
  have hspares : ∀ ys : List (ProcessAction Bool), ys.any stops = false →
      Process.machine.Meets (SparesFlag false) s ys := by
    intro ys hys
    apply Machine.meets_of_forall
    intro x hx t _ hstop
    rw [List.any_eq_false] at hys
    exact absurd hstop (hys x hx)
  refine ⟨s, s₁, s₂, hrun, hrun₁, hrun₂, ?_, hdecisions⟩
  exact (pools_isolated_iff hrun (by decide : false ≠ true)).2 _ _ s₁ s₂ hrun₁ hrun₂ rfl
    (hspares _ rfl) (hspares _ rfl)

/-- Both pools are running and `StopProcess` is called on `false`: the flag that the tasks of `true`
test is cleared, and a task that would have gone on with its loop leaves it. -/
theorem stop_disturbs_other_pool :
    ∃ s s', Process.machine.run Process.init bothStarted = some s ∧
      (s.parts true).tasks = [10, 11] ∧ s.step (.op false .stop) = some s' ∧
      ¬ Undisturbed true s s' ∧
      Process.machine.collect (decision true) s firstDecision = [(10, true)] ∧
      Process.machine.collect (decision true) s (.op false .stop :: firstDecision) =
        [(10, false)] := by
  have hruns : ((Process.machine.run Process.init bothStarted).bind fun s =>
      (s.step (.op false .stop)).map fun s' => ((s.parts true).tasks, s.isrun, s'.isrun)) =
      some ([10, 11], true, false) := by
    decide +kernel
  have hdecisions : ((Process.machine.run Process.init bothStarted).map fun s =>
      (Process.machine.collect (decision true) s firstDecision,
        Process.machine.collect (decision true) s (.op false .stop :: firstDecision))) =
      some ([(10, true)], [(10, false)]) := by
    decide +kernel
  obtain ⟨s, hrun, hruns⟩ := Option.bind_eq_some_iff.mp hruns
  obtain ⟨s', hstep, hvalues⟩ := Option.map_eq_some_iff.mp hruns
  rw [hrun, Option.map_some, Option.some.injEq, Prod.mk.injEq] at hdecisions
  simp only [Prod.mk.injEq] at hvalues
  obtain ⟨htasks, hset, hcleared⟩ := hvalues
  refine ⟨s, s', hrun, htasks, hstep, ?_, hdecisions⟩
  intro hsame
  rw [hsame.isrun, hset] at hcleared
  cases hcleared

end DsAmq.Analysis
