import DsAmq.Analysis.PoolSize
import DsAmq.Analysis.StartTruth

/-!
# A second `StartProcess` on a running pool

`StartProcess` takes a pool for running when `m_sTask` is not empty, and `afterExecute` takes the
completed task out of the set some steps before it puts the new one in.  So a call of `StartProcess`
leaves a running pool alone exactly when it looks at the set while some task is in it
(`one_pool_iff`); as long as the executor accepts every task, the set is empty exactly when the
`afterExecute` calls of all `n` slots are between `erase` and `insert`.
-/

set_option autoImplicit false

namespace DsAmq.Analysis

open DsAmq.Model DsAmq.Library

/-- The `afterExecute` call is between its `erase` and its `insert`. -/
def inGap (c : AfterCall) : Bool :=
  match c.pc with
  | .new | .insert _ => true
  | _ => false

/-- The executor is not shut down. -/
def noShutdown : PoolAction → Bool
  | .shutdown _ => false
  | _ => true

/-- The action is not an `execute` call that throws. -/
def accepts : PoolAction → Bool
  | .start _ (.execute x) | .after _ (.execute x) => decide (x = .ok)
  | _ => true

/-- The action is the test `m_sTask.empty()` of a `StartProcess` call. -/
def testsEmpty (s : PoolSystem) : PoolAction → Bool
  | .start t _ => s.starts[t]?.any fun c => decide (c.pc = .testEmpty)
  | _ => false

/-- `StartProcess` does not look at the set while it is empty. -/
def SeesTask (s : PoolSystem) (x : PoolAction) : Prop :=
  testsEmpty s x = true → s.world.pool.sTask ≠ ∅

/-- `StartProcess` does not look at the set while the `afterExecute` calls of `n` slots are between
`erase` and `insert`. -/
def LeavesTask (n : ℕ) (s : PoolSystem) (x : PoolAction) : Prop :=
  testsEmpty s x = true → s.afters.countP inGap < n

instance (n : ℕ) (s : PoolSystem) (x : PoolAction) : Decidable (LeavesTask n s x) :=
  inferInstanceAs (Decidable (testsEmpty s x = true → s.afters.countP inGap < n))

/-- The pool that is running in `w` is the only one: every `StartProcess` call is about to look at
the set or has returned true, and a step of one changes nothing; no connection, no resource manager
and no executor has been made or released, and of the static members only `m_sTask` and
`m_next_taskid` are written, by `afterExecute`. -/
structure OnePool (w : PoolWorld) (s : PoolSystem) : Prop where
  calls : ∀ c ∈ s.starts, c.pc = .testEmpty ∨ c.pc = .returned ⟨true, none⟩
  unchanged : ∀ t r s', s.step (.start t r) = some s' → s'.world = s.world
  members : s.world.pool =
    { w.pool with sTask := s.world.pool.sTask, nextTaskid := s.world.pool.nextTaskid }
  cms : s.world.cms = w.cms
  executors : s.world.executors = w.executors

variable {w w' : PoolWorld} {s s' : PoolSystem} {x : PoolAction} {n j : ℕ}

/-! ## The steps -/

/-- What a step beside `StartProcess` leaves as it is. -/
structure SamePool (w w' : PoolWorld) : Prop where
  members : w'.pool = { w.pool with sTask := w'.pool.sTask, nextTaskid := w'.pool.nextTaskid }
  cms : w'.cms = w.cms
  executors : w'.executors = w.executors

theorem samePool_execute (p : TaskPtr) (o : ExecuteOutcome) : SamePool w (w.execute p o) := by
  cases o with
  | ok =>
      cases he : w.pool.threadPool with
      | none =>
          simp only [PoolWorld.execute, he]
          exact ⟨rfl, rfl, rfl⟩
      | some e =>
          simp only [PoolWorld.execute, he]
          exact ⟨rfl, rfl, rfl⟩
  | nullPointer msg => exact ⟨rfl, rfl, rfl⟩
  | rejected msg => exact ⟨rfl, rfl, rfl⟩

/-- A step of `afterExecute`, whatever `execute` does. -/
theorem samePool_after {p : TaskPtr} {pc pc' : AfterPc} {r : PoolReply}
    (h : pc.step p w r = some (w', pc')) : SamePool w w' := by
  cases pc with
  | new =>
      cases r with
      | address q =>
          simp only [AfterPc.step] at h
          split at h
          · cases h
            exact ⟨rfl, rfl, rfl⟩
          · cases h
      | _ => cases h
  | execute q =>
      cases r with
      | execute o =>
          cases h
          exact samePool_execute q o
      | _ => cases h
  | ended => cases r <;> cases h
  | testOpen | find | erase | insert q | delete =>
      cases r with
      | tau =>
          cases h
          exact ⟨rfl, rfl, rfl⟩
      | _ => cases h

/-- While every `StartProcess` call is about to look at the set or has returned, a step of one
changes nothing. -/
theorem unchanged_of_calls
    (h : ∀ c ∈ s.starts, c.pc = .testEmpty ∨ c.pc = .returned ⟨true, none⟩) {t : ℕ}
    {r : PoolReply} (hstep : s.step (.start t r) = some s') :
    ∃ c, s.starts[t]? = some c ∧ c.pc = .testEmpty ∧
      s' = { s with starts := s.starts.set t { c with
        pc := if s.world.pool.sTask ≠ ∅ then .returned ⟨true, none⟩ else .testURI } } := by
  simp only [PoolSystem.step] at hstep
  cases hc : s.starts[t]? with
  | none => simp [hc] at hstep
  | some c =>
      simp only [hc] at hstep
      obtain ⟨⟨w', pc'⟩, hpc, rfl⟩ := Option.map_eq_some_iff.mp hstep
      rcases h c (List.mem_of_getElem? hc) with htest | hreturned
      · rw [htest] at hpc
        cases r <;> simp only [StartPc.step, Option.some.injEq, Prod.mk.injEq, reduceCtorEq] at hpc
        obtain ⟨rfl, rfl⟩ := hpc
        exact ⟨c, rfl, htest, rfl⟩
      · rw [hreturned] at hpc
        cases r <;> cases hpc

/-- A state whose calls are as they should be. -/
theorem OnePool.mk' (hcalls : ∀ c ∈ s.starts, c.pc = .testEmpty ∨ c.pc = .returned ⟨true, none⟩)
    (hsame : SamePool w s.world) : OnePool w s := by
  refine ⟨hcalls, ?_, hsame.members, hsame.cms, hsame.executors⟩
  intro t r s' hstep
  obtain ⟨c, -, -, rfl⟩ := unchanged_of_calls hcalls hstep
  rfl

theorem OnePool.samePool (h : OnePool w s) (hsame : SamePool s.world w') : SamePool w w' := by
  refine ⟨?_, hsame.cms.trans h.cms, hsame.executors.trans h.executors⟩
  rw [hsame.members, h.members]

/-- **The step lemma**: the pool stays the only one exactly when no call looks at an empty set. -/
theorem onePool_step_iff (h : OnePool w s) (hx : noShutdown x = true)
    (hstep : s.step x = some s') : OnePool w s' ↔ SeesTask s x := by
  cases x with
  | shutdown e => cases hx
  | begin a =>
      cases hstep
      have hsees : SeesTask s (.begin a) := by
        intro htests
        cases htests
      simp only [hsees, iff_true]
      refine OnePool.mk' ?_ ⟨h.members, h.cms, h.executors⟩
      intro c hc
      rcases List.mem_append.mp hc with hc | hc
      · exact h.calls c hc
      · rw [List.mem_singleton.mp hc]
        exact .inl rfl
  | complete e p =>
      obtain ⟨w', hcomplete, rfl⟩ := Option.map_eq_some_iff.mp hstep
      obtain ⟨-, rfl⟩ := complete_eq_some.mp hcomplete
      have hsees : SeesTask s (.complete e p) := by
        intro htests
        cases htests
      simp only [hsees, iff_true]
      exact OnePool.mk' h.calls (h.samePool ⟨rfl, rfl, rfl⟩)
  | after j r =>
      have hsees : SeesTask s (.after j r) := by
        intro htests
        cases htests
      simp only [hsees, iff_true]
      obtain ⟨c, w', pc', hc, hpc, rfl⟩ := step_after_eq_some hstep
      exact OnePool.mk' h.calls (h.samePool (samePool_after hpc))
  | start t r =>
      obtain ⟨c, hc, htest, rfl⟩ := unchanged_of_calls h.calls hstep
      have htests : testsEmpty s (.start t r) = true := by
        simp [testsEmpty, hc, htest]
      simp only [SeesTask, htests, true_imp_iff]
      by_cases hne : s.world.pool.sTask ≠ ∅
      · rw [if_pos hne]
        refine iff_of_true (OnePool.mk' ?_ ⟨h.members, h.cms, h.executors⟩) hne
        intro d hd
        rcases List.mem_or_eq_of_mem_set hd with hd | rfl
        · exact h.calls d hd
        · exact .inr rfl
      · rw [if_neg hne]
        refine iff_of_false ?_ hne
        intro h'
        -- the call is past the test, and will not return true at once
        have hlt : t < s.starts.length := (List.getElem?_eq_some_iff.mp hc).1
        rcases h'.calls _ (List.mem_set hlt _) with hpc | hpc
        · cases hpc
        · cases hpc

/-! ## The gap -/

/-- A call in progress has a task in the set, unless it is between `erase` and `insert`. -/
theorem length_afterIn_add_gap (cs : List AfterCall) :
    (cs.flatMap afterIn).length + cs.countP inGap = cs.countP inProgress := by
  induction cs with
  | nil => rfl
  | cons c cs ih =>
      have hone : (afterIn c).length + (if inGap c then 1 else 0) =
          if inProgress c then 1 else 0 := by
        obtain ⟨p, pc⟩ := c
        cases pc <;> rfl
      rw [List.flatMap_cons, List.length_append, List.countP_cons, List.countP_cons]
      omega

/-- Each slot has its task in the set, or its `afterExecute` call is between `erase` and
`insert`. -/
theorem Staffed.card_add_gap {cs : List AfterCall} (h : Staffed n [] [] w cs) :
    w.pool.sTask.card + cs.countP inGap = n := by
  have hcard := h.registered.tracked.card_eq
  have hcount := h.count
  have hgap := length_afterIn_add_gap cs
  rw [List.nil_append, List.length_append, List.length_map] at hcard
  omega

/-- A step of the system keeps the account, while the executor accepts every task and no
`StartProcess` call gets past its test. -/
theorem staffed_step (h : OnePool w s) (hstaff : Staffed n [] [] s.world s.afters)
    (hx : noShutdown x = true) (haccepts : accepts x = true) (hstep : s.step x = some s') :
    Staffed n [] [] s'.world s'.afters := by
  cases x with
  | shutdown e => cases hx
  | begin a =>
      cases hstep
      exact hstaff
  | start t r =>
      obtain ⟨c, -, -, rfl⟩ := unchanged_of_calls h.calls hstep
      exact hstaff
  | complete e p =>
      obtain ⟨w', hcomplete, rfl⟩ := Option.map_eq_some_iff.mp hstep
      obtain ⟨hp, rfl⟩ := complete_eq_some.mp hcomplete
      exact hstaff.complete hp
  | after j r =>
      obtain ⟨c, w', pc', hc, hpc, rfl⟩ := step_after_eq_some hstep
      have hmove := afterMove_of_step (t := j) (by cases r <;> exact haccepts) hpc
      exact hstaff.after hc hmove

/-- A running pool is fully staffed. -/
theorem staffed_of_running {S : Finset TaskPtr} (hreg : Registered w S [] [])
    (hrunning : Running w n) : Staffed n [] [] w [] := by
  obtain ⟨e, x, he, hx, hshutdown, hdeleted, hall, hcard⟩ := hrunning
  have hset : S = w.pool.sTask := by
    apply Finset.Subset.antisymm hreg.subset
    intro p hp
    exact (hreg.tracked.mem p).mpr (List.mem_map_of_mem (hall p hp).2)
  rw [hset] at hreg
  refine ⟨hreg, ?_, ?_⟩
  · have hlen := hreg.tracked.card_eq
    rw [List.nil_append, List.length_map] at hlen
    rw [List.countP_nil, Nat.add_zero, ← hlen]
    exact hcard
  · intro _
    refine ⟨e, he, ?_⟩
    obtain ⟨isShutdown, deleted⟩ := x
    dsimp only at hshutdown hdeleted
    rw [hx, hshutdown, hdeleted]

/-! ## Whole runs -/

/-- **At most one running pool.**  On a pool that is running with `n` slots, after any earlier
calls, let `StartProcess` calls begin at any time and run interleaved with completions and the
steps of `afterExecute`.  In every state of such a run every `StartProcess` call that got past its
test has returned true without changing anything, and no connection or executor has been made, if
and only if no call evaluates `m_sTask.empty()` while the set is empty.  If every `execute` call
returns, this is the case exactly when no call evaluates it while the `afterExecute` calls of all
`n` slots are between `erase` and `insert`. -/
theorem one_pool_iff {ops : List PoolOp} {as : List PoolAction}
    (hw : PoolWorld.machine.run .new ops = some w) (hrunning : Running w n)
    (has : ∀ x ∈ as, noShutdown x = true)
    (hrun : PoolSystem.machine.run ⟨w, [], []⟩ as = some s) :
    (PoolSystem.machine.Always (OnePool w) ⟨w, [], []⟩ as ↔
        PoolSystem.machine.Meets SeesTask ⟨w, [], []⟩ as) ∧
      ((∀ x ∈ as, accepts x = true) →
        (PoolSystem.machine.Always (OnePool w) ⟨w, [], []⟩ as ↔
          PoolSystem.machine.Meets (LeavesTask n) ⟨w, [], []⟩ as)) := by
  have hinit : OnePool w ⟨w, [], []⟩ := by
    refine OnePool.mk' ?_ ⟨rfl, rfl, rfl⟩
    intro c hc
    cases hc
  constructor
  · refine Machine.always_iff_meets_of_full (F := OnePool w)
      (C := fun _ x => noShutdown x = true) (fun s h => h) ?_ hinit
      (Machine.meets_of_forall _ fun x hx _ => has x hx) hrun
    intro s x s' h hx hstep
    exact ⟨onePool_step_iff h hx hstep, fun h' => h'⟩
  · intro haccepts
    obtain ⟨S, hreg⟩ := registered_of_run hw
    refine Machine.always_iff_meets_of_full
      (F := fun s => OnePool w s ∧ Staffed n [] [] s.world s.afters)
      (C := fun _ x => noShutdown x = true ∧ accepts x = true) (fun s h => h.1) ?_
      ⟨hinit, staffed_of_running hreg hrunning⟩
      (Machine.meets_of_forall _ fun x hx _ => ⟨has x hx, haccepts x hx⟩) hrun
    intro s x s' h hx hstep
    refine ⟨?_, fun h' => ⟨h', staffed_step h.1 h.2 hx.1 hx.2 hstep⟩⟩
    rw [onePool_step_iff h.1 hx.1 hstep]
    have hcard := h.2.card_add_gap
    unfold SeesTask LeavesTask
    rw [← Finset.card_pos.trans Finset.nonempty_iff_ne_empty]
    constructor
    · intro hsees htests
      have := hsees htests
      omega
    · intro hleaves htests
      have := hleaves htests
      omega

/-- Of two tasks one completes; between its `erase` and its `insert` a `StartProcess` call is
made, and the task is replaced. -/
def startedInGap : List PoolAction :=
  [.complete 0 0, .after 0 .tau, .after 0 .tau, .after 0 .tau, .begin twoSlots, .start 0 .tau,
    .after 0 (.address 7), .after 0 .tau, .after 0 (.execute .ok)]

theorem one_pool_started_in_gap :
    ∃ w s, PoolWorld.machine.run .new [.start twoSlots (allReturn fun _ => .ok)] = some w ∧
      PoolSystem.machine.run ⟨w, [], []⟩ startedInGap = some s ∧
      s.starts = [⟨twoSlots, .returned ⟨true, none⟩⟩] ∧
      PoolSystem.machine.Always (OnePool w) ⟨w, [], []⟩ startedInGap := by
  have hpool : ∃ w, PoolWorld.machine.run .new [.start twoSlots (allReturn fun _ => .ok)] = some w ∧
      Running w 2 ∧ PoolSystem.machine.Meets (LeavesTask 2) ⟨w, [], []⟩ startedInGap ∧
      (PoolSystem.machine.run ⟨w, [], []⟩ startedInGap).map PoolSystem.starts =
        some [⟨twoSlots, .returned ⟨true, none⟩⟩] := by
    refine ⟨_, rfl, ⟨0, ⟨false, false⟩, rfl, rfl, rfl, rfl, ?_, by decide +kernel⟩,
      by decide +kernel, by decide +kernel⟩
    intro p hp
    have hmem : p ∈ ({1, 0} : Finset TaskPtr) := hp
    have hcases : p = 1 ∨ p = 0 := by simpa using hmem
    rcases hcases with rfl | rfl
    · exact ⟨rfl, by decide +kernel⟩
    · exact ⟨rfl, by decide +kernel⟩
  obtain ⟨w, hw, hrunning, hmeets, hstarts⟩ := hpool
  obtain ⟨s, hrun, hs⟩ := Option.map_eq_some_iff.mp hstarts
  exact ⟨w, s, hw, hrun, hs,
    ((one_pool_iff hw hrunning (by decide) hrun).2 (by decide)).mpr hmeets⟩

/-- The only task of a pool of one slot has been erased when a `StartProcess` call is made. -/
def startedOnEmpty : List PoolAction :=
  [.complete 0 0, .after 0 .tau, .after 0 .tau, .after 0 .tau,
    .begin ⟨"b", "q", false, true, 3000, 1⟩, .start 0 .tau, .start 0 .tau, .start 0 .tau,
    .start 0 (.call (.ok ())), .start 0 (.redelivery .policy), .start 0 (.call (.ok ())),
    .start 0 .tau, .start 0 (.call (.ok ())), .start 0 .tau, .start 0 (.executor none)]

/-- The call takes the running pool for a stopped one: there are two live connections and two
executors. -/
theorem second_pool_started :
    ∃ w s, PoolWorld.machine.run .new
        [.start ⟨"b", "q", false, true, 3000, 1⟩ (allReturn fun _ => .ok)] = some w ∧
      Running w 1 ∧ PoolSystem.machine.run ⟨w, [], []⟩ startedOnEmpty = some s ∧
      s.world.cms.Live 0 ∧ s.world.cms.Live 1 ∧
      s.world.executors = [⟨false, false⟩, ⟨false, false⟩] ∧ ¬ OnePool w s := by
  have hpool : ∃ w, PoolWorld.machine.run .new
        [.start ⟨"b", "q", false, true, 3000, 1⟩ (allReturn fun _ => .ok)] = some w ∧
      Running w 1 ∧ w.executors.length = 1 ∧
      (PoolSystem.machine.run ⟨w, [], []⟩ startedOnEmpty).map
        (fun s => (s.world.cms.connections, s.world.cms.destroyed, s.world.executors)) =
        some (2, [], [⟨false, false⟩, ⟨false, false⟩]) := by
    refine ⟨_, rfl, ⟨0, ⟨false, false⟩, rfl, rfl, rfl, rfl, ?_, by decide +kernel⟩, rfl,
      by decide +kernel⟩
    intro p hp
    have hmem : p ∈ ({0} : Finset TaskPtr) := hp
    obtain rfl : p = 0 := by simpa using hmem
    exact ⟨rfl, by decide +kernel⟩
  obtain ⟨w, hw, hrunning, hone, hs⟩ := hpool
  obtain ⟨s, hrun, hs⟩ := Option.map_eq_some_iff.mp hs
  simp only [Prod.mk.injEq] at hs
  obtain ⟨hconnections, hdestroyed, hexecutors⟩ := hs
  refine ⟨w, s, hw, hrunning, hrun, ?_, ?_, hexecutors, ?_⟩
  · simp [Cms.Live, hconnections, hdestroyed]
  · simp [Cms.Live, hconnections, hdestroyed]
  · intro h
    have hlen := congrArg List.length h.executors
    rw [hexecutors, hone] at hlen
    cases hlen

end DsAmq.Analysis
