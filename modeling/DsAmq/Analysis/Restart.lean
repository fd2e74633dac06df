import DsAmq.Analysis.ProcessSteps
import DsAmq.Analysis.StartTruth

/-!
# A pool that is started again

`StopProcess` clears the members of the pool so that a later `StartProcess` starts it anew, but the
flag of `CDSAMQStopper`, which it clears as well, is set by the constructor only.  The tasks of a
pool that was started run until the next `StopProcess` if and only if there has been none before
(`started_pool_runs_iff`).
-/

set_option autoImplicit false

namespace DsAmq.Analysis

open DsAmq.Model DsAmq.Library

/-! ## From the run of a task to the process -/

section Calls

variable {ι : Type} [DecidableEq ι] {s : Process ι} {A : ι} {p : TaskPtr} {r r' : Run}

/-- The calls of the `run` of a task are steps of the process. -/
theorem run_calls {es : List Event} (hes : ∀ e ∈ es, e.isTest = false)
    (hr : (s.parts A).runs p = some r) (hrun : Run.machine.run r es = some r') :
    ∃ s', Process.machine.run s (es.map (.call A p)) = some s' ∧ (s'.parts A).runs p = some r' := by
  induction es generalizing s r with
  | nil =>
      cases hrun
      exact ⟨s, rfl, hr⟩
  | cons e es ih =>
      obtain ⟨r₁, hr₁, hrun⟩ := Machine.run_cons_eq_some.mp hrun
      have hstep : Process.machine.step s (.call A p e) = some (s.setRun A p r₁) := by
        have hcall : r.step e = some r₁ := hr₁
        simp [Process.machine, Process.step, hes e List.mem_cons_self, hr, hcall]
      obtain ⟨s', hs', hr'⟩ := ih (fun e he => hes e (List.mem_cons_of_mem _ he))
        runs_setRun_self hrun
      exact ⟨s', Machine.run_cons_eq_some.mpr ⟨_, hstep, hs'⟩, hr'⟩

/-- When the library calls return, the `run` of a task comes to the head of its loop. -/
theorem run_reaches_loop (c : Consumer) :
    ∃ es, (∀ e ∈ es, e.isTest = false) ∧
      (Run.machine.run (Run.start c) es).map Run.pc = some .isrun := by
  cases hd : c.destination with
  | none =>
      refine ⟨[.takeSession (.ok 0),
        .createDestination (Destination.select c.busetopic c.strDestURI) (.ok ()),
        .createCachedConsumer (.ok ())], ?_, ?_⟩
      · simp [Event.isTest]
      · simp [Run.machine, Machine.run, Run.start, Run.step, Run.afterTakeSession, hd]
  | some d =>
      refine ⟨[.takeSession (.ok 0), .createCachedConsumer (.ok ())], ?_, ?_⟩
      · simp [Event.isTest]
      · simp [Run.machine, Machine.run, Run.start, Run.step, Run.afterTakeSession, hd]

/-- A task that has not begun can come to the head of its loop. -/
theorem reaches_test (hp : p ∈ (s.parts A).tasks) (hnone : (s.parts A).runs p = none)
    {c : Consumer} (hc : s.heap p = some c) :
    ∃ ys s' r, ys.any stops = false ∧ Process.machine.run s ys = some s' ∧
      (s'.parts A).runs p = some r ∧ r.pc = .isrun := by
  obtain ⟨es, hes, hloop⟩ := run_reaches_loop c
  obtain ⟨r, hrun, hpc⟩ := Option.map_eq_some_iff.mp hloop
  have hbegin : Process.machine.step s (.begin A p) = some (s.setRun A p (Run.start c)) := by
    simp [Process.machine, Process.step, hp, hnone, hc]
  obtain ⟨s', hs', hr⟩ := run_calls hes (s := s.setRun A p (Run.start c)) runs_setRun_self hrun
  refine ⟨.begin A p :: es.map (.call A p), s', r, ?_, ?_, hr, hpc⟩
  · simp [stops]
  · exact Machine.run_cons_eq_some.mpr ⟨_, hbegin, hs'⟩

end Calls

/-! ## The pool that was started -/

/-- Where the `run` of the task at `p` stands. -/
def runPc (s : Process Unit) (p : TaskPtr) : Option RunPc := ((s.parts ()).runs p).map Run.pc

/-- Until the next `StopProcess` the flag is set in every state. -/
def FlagUntilStop (s : Process Unit) : Prop :=
  ∀ ys s', ys.any stops = false → Process.machine.run s ys = some s' → s'.isrun = true

/-- Until the next `StopProcess` every test at the head of the loop of a task goes on to
`receive`. -/
def LoopsUntilStop (s : Process Unit) : Prop :=
  ∀ ys s' p s'', ys.any stops = false → Process.machine.run s ys = some s' →
    s'.step (.test () p) = some s'' → runPc s'' p = some .receive

/-- The call starts the pool: there are no tasks before, and it returns true. -/
def startsPool (s : Process Unit) (a : StartArgs) (o : StartOutcomes) : Bool :=
  decide ((s.parts ()).pool.sTask = ∅) &&
    ((s.world ()).startProcess a o).any fun x => x.1.result

variable {s s' s₁ : Process Unit} {a : StartArgs} {o : StartOutcomes} {p : TaskPtr}

/-- Where a test of the flag leads. -/
theorem runPc_test (h : s.step (.test () p) = some s') :
    runPc s' p = some (if s.isrun then .receive else .close) := by
  obtain ⟨r, hr, h⟩ := Option.bind_eq_some_iff.mp h
  obtain ⟨r', hr', rfl⟩ := Option.map_eq_some_iff.mp h
  unfold runPc
  rw [runs_setRun_self, Option.map_some, test_step hr']

theorem flagUntilStop_iff : FlagUntilStop s ↔ s.isrun = true := by
  constructor
  · intro h
    exact h [] s rfl rfl
  · intro h ys s' hys hrun
    rw [process_run_isrun hrun, h, hys]
    rfl

/-- A call that starts the pool leaves tasks that were accepted. -/
theorem accepted_ne_nil_of_started {w w' : PoolWorld} {S : Finset TaskPtr}
    {r : PoolWorld.StartResult} (h : Registered w S [] []) (hempty : w.pool.sTask = ∅)
    (hstart : w.startProcess a o = some (r, w')) (hr : r.result = true) : w'.accepted ≠ [] := by
  cases startProcess_cases hstart with
  | already hne => exact absurd hempty hne
  | failed _ _ hfalse _ =>
      rw [hr] at hfalse
      cases hfalse
  | loop hloop hsame₁ hsub hsame₂ =>
      have hpos := slotsOf_pos_of_reachesLoop hloop
      obtain ⟨hreg, hnil⟩ := registered_newExecutor h hempty hsame₁
      obtain ⟨-, -, hsubmitted⟩ := submit_cases hreg rfl hsub
      cases hsubmitted with
      | all _ _ hlen =>
          intro hnone
          rw [← hsame₂.accepted, hnone, hnil, toNat_nsize, List.length_nil] at hlen
          omega
      | thrown _ _ _ hfalse _ _ _ =>
          rw [hr] at hfalse
          cases hfalse

/-- They have not begun. -/
theorem exists_task_of_startsPool (h : Separate s) (hstarts : startsPool s a o = true)
    (hstep : s.step (.op () (.start a o)) = some s₁) :
    ∃ p c, p ∈ (s₁.parts ()).tasks ∧ (s₁.parts ()).runs p = none ∧ s₁.heap p = some c := by
  obtain ⟨hempty, hresult⟩ : (s.parts ()).pool.sTask = ∅ ∧
      ((s.world ()).startProcess a o).any (fun x => x.1.result) = true := by
    simpa [startsPool] using hstarts
  obtain ⟨⟨r, w⟩, hstart, hr⟩ := (Option.any_eq_true _ _).mp hresult
  obtain ⟨S, hreg⟩ := h.registered ()
  have hs₁ : s₁ = s.put () w := by
    simpa [Process.step, PoolOp.ready, PoolOp.exec, hstart, eq_comm] using hstep
  subst hs₁
  obtain ⟨y, hy⟩ := List.exists_mem_of_ne_nil _ (accepted_ne_nil_of_started hreg hempty hstart hr)
  have hp : y.2 ∈ ((s.put () w).parts ()).tasks := by
    rw [tasks_put_self]
    exact List.mem_map_of_mem hy
  have hlive : Live w y.2 := by
    have hexec : (PoolOp.start a o).exec (s.world ()) = some w := by
      simp [PoolOp.exec, hstart]
    have hthere := (h.put hexec).live hp
    rwa [world_put_self] at hthere
  obtain ⟨c, hc⟩ := Option.isSome_iff_exists.mp hlive
  refine ⟨y.2, c, hp, ?_, hc⟩
  have hbefore : (s.parts ()).runs y.2 = none := by
    by_contra hsome
    have hmem := h.runs () y.2 hsome
    have hnil : (s.parts ()).accepted = [] := hreg.accepted_eq_nil hempty
    simp [PoolPart.tasks, hnil] at hmem
  simp [Process.put, hbefore]

/-- Where there is a task that has not begun, the loops depend on the flag. -/
theorem loopsUntilStop_iff {c : Consumer} (hp : p ∈ (s.parts ()).tasks)
    (hnone : (s.parts ()).runs p = none) (hc : s.heap p = some c) :
    LoopsUntilStop s ↔ s.isrun = true := by
  constructor
  · intro h
    obtain ⟨ys, s', r, hys, hrun, hr, hpc⟩ := reaches_test hp hnone hc
    have hflag : s'.isrun = s.isrun := by
      rw [process_run_isrun hrun, hys, Bool.not_false, Bool.and_true]
    have hstep : ∃ s'', s'.step (.test () p) = some s'' := by
      simp [Process.step, hr, Run.step, hpc]
    obtain ⟨s'', hstep⟩ := hstep
    have hreceive := h ys s' p s'' hys hrun hstep
    rw [runPc_test hstep, hflag] at hreceive
    by_contra hfalse
    simp [hfalse] at hreceive
  · intro h ys s' p s'' hys hrun hstep
    have hflag : s'.isrun = true := flagUntilStop_iff.mpr h ys s' hys hrun
    rw [runPc_test hstep, hflag]
    rfl

/-- **When a started pool runs.**  In a process with one task class, after any calls of
`StartProcess` and `StopProcess` with any outcomes, and any steps of the tasks, let a `StartProcess`
start the pool and return true.  That the flag is set in every state until the next `StopProcess`,
and that every task goes on with its loop until then, hold if and only if `StopProcess` has not been
called before. -/
theorem started_pool_runs_iff {xs : List (ProcessAction Unit)}
    (hrun : Process.machine.run Process.init xs = some s) (hstarts : startsPool s a o = true)
    (hstep : s.step (.op () (.start a o)) = some s₁) :
    (FlagUntilStop s₁ ↔ xs.any stops = false) ∧ (LoopsUntilStop s₁ ↔ xs.any stops = false) := by
  have hflag : s₁.isrun = !xs.any stops := by
    rw [process_step_isrun hstep, process_run_isrun hrun]
    simp [stops, isStop, Process.init]
  have hiff : s₁.isrun = true ↔ xs.any stops = false := by
    rw [hflag, Bool.not_eq_true']
  obtain ⟨p, c, hp, hnone, hc⟩ :=
    exists_task_of_startsPool (separate_of_run hrun) hstarts hstep
  exact ⟨flagUntilStop_iff.trans hiff, (loopsUntilStop_iff hp hnone hc).trans hiff⟩

/-- The first start fails at `Connection::start`, the second one starts the pool. -/
theorem started_pool_runs_after_refused :
    ∃ s s₁, Process.machine.run Process.init [.op ()
        (.start twoSlots { allReturn fun _ => .ok with start := .cms "refused" })] = some s ∧
      startsPool s twoSlots (allReturn fun _ => .ok) = true ∧
      s.step (.op () (.start twoSlots (allReturn fun _ => .ok))) = some s₁ ∧
      FlagUntilStop s₁ ∧ LoopsUntilStop s₁ := by
  have hruns : ((Process.machine.run Process.init [.op ()
      (.start twoSlots { allReturn fun _ => .ok with start := .cms "refused" })]).bind fun s =>
        (s.step (.op () (.start twoSlots (allReturn fun _ => .ok)))).map fun _ =>
          startsPool s twoSlots (allReturn fun _ => .ok)) = some true := by
    decide +kernel
  obtain ⟨s, hrun, hnext⟩ := Option.bind_eq_some_iff.mp hruns
  obtain ⟨s₁, hstep, hstarts⟩ := Option.map_eq_some_iff.mp hnext
  obtain ⟨hflag, hloops⟩ := started_pool_runs_iff hrun hstarts hstep
  exact ⟨s, s₁, hrun, hstarts, hstep, hflag.mpr rfl, hloops.mpr rfl⟩

/-- The task at the address 0 of the pool takes a session, makes its consumer and tests the flag. -/
def toFirstTest : List (ProcessAction Unit) :=
  [.begin () 0, .call () 0 (.takeSession (.ok 0)),
    .call () 0 (.createDestination (Destination.select false "orders") (.ok ())),
    .call () 0 (.createCachedConsumer (.ok ())), .test () 0]

/-- The task closes its session and ends, and `afterExecute` puts another one in its place. -/
def toNextTask : List (ProcessAction Unit) :=
  [.call () 0 (.close (.ok ())), .op () (.complete 1 0 2 .ok)]

/-- A pool is started, stopped and started again: the second start returns true, but the flag stays
cleared, and a task leaves its loop without a call of `receive` and is replaced. -/
theorem restarted_pool_does_not_run :
    ∃ s s₁ s₂ s₃, Process.machine.run Process.init
        [.op () (.start twoSlots (allReturn fun _ => .ok)), .op () .stop] = some s ∧
      startsPool s twoSlots (allReturn fun _ => .ok) = true ∧
      s.step (.op () (.start twoSlots (allReturn fun _ => .ok))) = some s₁ ∧
      s₁.isrun = false ∧ ¬ FlagUntilStop s₁ ∧
      Process.machine.run s₁ toFirstTest = some s₂ ∧ runPc s₂ 0 = some .close ∧
      Process.machine.run s₂ toNextTask = some s₃ ∧ (s₃.parts ()).tasks = [1, 2] := by
  have hruns : ((Process.machine.run Process.init
      [.op () (.start twoSlots (allReturn fun _ => .ok)), .op () .stop]).bind fun s =>
        (s.step (.op () (.start twoSlots (allReturn fun _ => .ok)))).bind fun s₁ =>
          (Process.machine.run s₁ toFirstTest).bind fun s₂ =>
            (Process.machine.run s₂ toNextTask).map fun s₃ =>
              (startsPool s twoSlots (allReturn fun _ => .ok), s₁.isrun, runPc s₂ 0,
                (s₃.parts ()).tasks)) = some (true, false, some .close, [1, 2]) := by
    decide +kernel
  obtain ⟨s, hrun, hruns⟩ := Option.bind_eq_some_iff.mp hruns
  obtain ⟨s₁, hstep, hruns⟩ := Option.bind_eq_some_iff.mp hruns
  obtain ⟨s₂, hrun₂, hruns⟩ := Option.bind_eq_some_iff.mp hruns
  obtain ⟨s₃, hrun₃, hvalues⟩ := Option.map_eq_some_iff.mp hruns
  simp only [Prod.mk.injEq] at hvalues
  obtain ⟨hstarts, hflag, hpc, htasks⟩ := hvalues
  refine ⟨s, s₁, s₂, s₃, hrun, hstarts, hstep, hflag, ?_, hrun₂, hpc, hrun₃, htasks⟩
  rw [flagUntilStop_iff, hflag]
  simp

end DsAmq.Analysis
