import DsAmq.Analysis.DeliverySteps
import DsAmq.Analysis.StopSteps
import DsAmq.Model.Deployment

/-!
# The tasks of a deployed pool

From the first statement of `StartProcess` to the last of `StopProcess`, and whatever the executor
does with the tasks in between: every task that it accepts was made with the arguments of the
`StartProcess` call, and every `run` that is not over belongs to a task that it has accepted.  The
invariant is `Deployed`.  Every task of the pool is at the executor, in the hands of a call, or among
those that `shutdownNow` returned, and its object is not touched by anybody else (`OwnedHeap`).
-/

set_option autoImplicit false

namespace DsAmq.Analysis

open DsAmq.Model DsAmq.Library

/-! ## The tasks that are made -/

/-- A task for the arguments of a `StartProcess` call. -/
def taskOf (a : StartArgs) (id : ℤ) : Consumer :=
  Consumer.new a.destURI id a.useTopic a.clientAck a.nTimeout

/-- The members that a task is made from are those of the call. -/
structure SetTo (a : StartArgs) (w : PoolWorld) : Prop where
  strDestURI : w.pool.strDestURI = a.destURI
  bUseTopic : w.pool.bUseTopic = a.useTopic
  bClientAck : w.pool.bClientAck = a.clientAck
  nTimeout : w.pool.nTimeout = a.nTimeout

/-- The objects that are new since `old` are tasks for these arguments. -/
def MadeFor (a : StartArgs) (old heap : TaskPtr → Option Consumer) : Prop :=
  ∀ p c, heap p = some c → old p = none → ∃ id, c = taskOf a id

variable {a : StartArgs} {w w' v : PoolWorld} {p q : TaskPtr} {pc pc' : StartPc} {r : PoolReply}
  {old heap heap' : TaskPtr → Option Consumer} {others : List TaskPtr}

theorem SetTo.samePool (h : SetTo a w) (hsame : SamePool w w') : SetTo a w' := by
  constructor <;> rw [hsame.members]
  · exact h.strDestURI
  · exact h.bUseTopic
  · exact h.bClientAck
  · exact h.nTimeout

theorem setTo_setMembers : SetTo a (w.setMembers a) := ⟨rfl, rfl, rfl, rfl⟩

theorem SetTo.of_pool (h : SetTo a w) (hpool : w'.pool = w.pool) : SetTo a w' := by
  constructor <;> rw [hpool]
  · exact h.strDestURI
  · exact h.bUseTopic
  · exact h.bClientAck
  · exact h.nTimeout

theorem SetTo.resetSessionpool (h : SetTo a w) : SetTo a w.resetSessionpool := by
  unfold PoolWorld.resetSessionpool
  split
  · exact ⟨h.strDestURI, h.bUseTopic, h.bClientAck, h.nTimeout⟩
  · exact h

theorem addConnection_pool : w.addConnection.pool = w.pool := by
  unfold PoolWorld.addConnection
  split <;> rfl

/-- Fewer objects. -/
theorem MadeFor.mono (h : MadeFor a old heap) (hsub : ∀ p c, heap' p = some c → heap p = some c) :
    MadeFor a old heap' := by
  intro p c hc
  exact h p c (hsub p c hc)

theorem MadeFor.newTask (h : MadeFor a old w.heap) (hset : SetTo a w) (p : TaskPtr) (id : ℤ) :
    MadeFor a old (w.newTask p id).heap := by
  intro q c hc hq
  by_cases hqp : q = p
  · have hnew : (w.newTask p id).heap q = some c := hc
    simp only [PoolWorld.newTask, hqp, if_true, Option.some.injEq] at hnew
    refine ⟨id, ?_⟩
    rw [← hnew, hset.strDestURI, hset.bUseTopic, hset.bClientAck, hset.nTimeout]
    rfl
  · have hsame : (w.newTask p id).heap q = w.heap q := if_neg hqp
    rw [hsame] at hc
    exact h q c hc hq

theorem MadeFor.deleteTask (h : MadeFor a old w.heap) (p : TaskPtr) :
    MadeFor a old (w.deleteTask p).heap := by
  apply h.mono
  intro q c hc
  by_cases hqp : q = p
  · simp [PoolWorld.deleteTask, hqp] at hc
  · simpa [PoolWorld.deleteTask, hqp] using hc

theorem MadeFor.execute (h : MadeFor a old w.heap) (p : TaskPtr) (x : ExecuteOutcome) :
    MadeFor a old (w.execute p x).heap := by
  cases x with
  | ok =>
      cases he : w.pool.threadPool with
      | none => simpa [PoolWorld.execute, he] using h
      | some e => simpa [PoolWorld.execute, he] using h
  | nullPointer msg => exact h
  | rejected msg => exact h.deleteTask p

/-- `afterExecute` makes tasks from the members. -/
theorem MadeFor.after {apc apc' : AfterPc} (h : MadeFor a old w.heap) (hset : SetTo a w)
    (hstep : apc.step p w r = some (w', apc')) : MadeFor a old w'.heap := by
  cases apc with
  | new =>
      cases r with
      | address q =>
          simp only [AfterPc.step] at hstep
          split at hstep
          · cases hstep
            exact h.newTask hset q _
          · cases hstep
      | _ => cases hstep
  | execute q =>
      cases r with
      | execute x =>
          cases hstep
          exact h.execute q x
      | _ => cases hstep
  | delete =>
      cases r with
      | tau =>
          cases hstep
          exact h.deleteTask p
      | _ => cases hstep
  | ended => cases r <;> cases hstep
  | testOpen | find | erase | insert =>
      cases r with
      | tau =>
          cases hstep
          exact h
      | _ => cases hstep

/-! ## The steps of `StartProcess` -/

/-- The task that `StartProcess` has made and not yet handed over. -/
def startHands (pc : StartPc) : List TaskPtr := startOut pc ++ startIn pc

/-- `StartProcess` is in its loop, or behind it. -/
def inLoop : StartPc → Bool
  | .loop _ | .insert _ _ | .execute _ _ | .setNext => true
  | _ => false

/-- `StartProcess` has written the members and has not returned. -/
def hasSetMembers : StartPc → Bool
  | .testEmpty | .testURI | .setMembers | .returned _ => false
  | _ => true

theorem hasSetMembers_of_inLoop (h : inLoop pc = true) : hasSetMembers pc = true := by
  cases pc <;> first | rfl | cases h

/-- What a step of `StartProcess` does, when `execute` may refuse the task. -/
inductive LaunchMove (a : StartArgs) (w : PoolWorld) : StartPc → PoolWorld → StartPc → Prop
  | same {pc pc' : StartPc} {w' : PoolWorld} (hpc : startHands pc = [])
      (hpc' : startHands pc' = []) (hloop : inLoop pc' = true → inLoop pc = true)
      (hbefore : beforeLoop pc' = true → pc'.hasReturned = false → beforeLoop pc = true)
      (hsame : SameTasks w w') : LaunchMove a w pc w' pc'
  | newExecutor : LaunchMove a w .newExecutor w.newExecutor (.loop 0)
  | new {i : ℕ} {p : TaskPtr} (hp : ¬ Live w p) :
      LaunchMove a w (.loop i) (w.newTask p i) (.insert i p)
  | insert (i : ℕ) (p : TaskPtr) : LaunchMove a w (.insert i p) (w.insertTask p) (.execute i p)
  | accepted (i : ℕ) (p : TaskPtr) :
      LaunchMove a w (.execute i p) (w.execute p .ok) (.loop (i + 1))
  | rejected (i : ℕ) (p : TaskPtr) (e : String) :
      LaunchMove a w (.execute i p) (w.deleteTask p) (.fail e)

theorem startHands_of_beforeLoop (h : beforeLoop pc = true) : startHands pc = [] := by
  unfold startHands
  rw [startIn_of_beforeLoop h, startOut_of_beforeLoop h]
  rfl

theorem inLoop_of_beforeLoop (h : beforeLoop pc = true) : inLoop pc = false := by
  cases pc <;> first | rfl | cases h

/-- **The step of `StartProcess`.** -/
theorem launchMove_of_step (hnull : r.nullTask = false)
    (hstep : pc.step a w r = some (w', pc')) : LaunchMove a w pc w' pc' := by
  by_cases hr : beforeShutdown (.start 0 r) = true
  · cases startMove_of_step hr hstep with
    | before hpc hpc' hsame =>
        refine .same (startHands_of_beforeLoop hpc) (startHands_of_beforeLoop hpc') ?_
          (fun _ _ => hpc) hsame
        rw [inLoop_of_beforeLoop hpc']
        nofun
    | already hne => exact .same rfl rfl nofun nofun (SameTasks.refl w)
    | newExecutor => exact .newExecutor
    | new hi hp => exact .new hp
    | insert i p => exact .insert i p
    | execute i p => exact .accepted i p
    | leave hi => exact .same rfl rfl (fun _ => rfl) nofun (SameTasks.refl w)
    | next => exact .same rfl rfl nofun nofun (sameTasks_setNext _)
  · -- only `execute` can be refused
    cases r with
    | execute x =>
        cases x with
        | ok => exact absurd rfl hr
        | nullPointer msg => cases hnull
        | rejected msg =>
            cases pc with
            | execute i p =>
                cases hstep
                exact .rejected i p _
            | _ => cases hstep
    | tau | call _ | redelivery _ | executor _ | address _ => exact absurd rfl hr

/-- A step of `StartProcess` keeps the members, or writes those of the call. -/
theorem setTo_start (h : SetTo a w ∨ pc = .setMembers) (hstep : pc.step a w r = some (w', pc')) :
    SetTo a w' := by
  by_cases hpc : pc = .setMembers
  · subst hpc
    cases r <;> cases hstep
    exact setTo_setMembers
  have hset := h.resolve_right hpc
  cases pc with
  | setMembers => exact absurd rfl hpc
  | returned x => cases r <;> cases hstep
  | execute i p =>
      cases r with
      | execute x =>
          cases x <;> cases hstep <;> exact hset.samePool (samePool_execute p _)
      | _ => cases hstep
  | newExecutor =>
      cases r with
      | executor x =>
          simp only [StartPc.step] at hstep
          split at hstep
          · cases hstep
            exact hset
          · cases x <;> cases hstep <;> exact ⟨hset.1, hset.2, hset.3, hset.4⟩
      | _ => cases hstep
  | loop i =>
      cases r with
      | tau =>
          simp only [StartPc.step] at hstep
          split at hstep <;> cases hstep
          exact hset
      | address q =>
          simp only [StartPc.step] at hstep
          split at hstep <;> cases hstep
          exact ⟨hset.1, hset.2, hset.3, hset.4⟩
      | _ => cases hstep
  | createConnection | start =>
      cases r with
      | call x => cases x <;> cases hstep <;> exact ⟨hset.1, hset.2, hset.3, hset.4⟩
      | _ => cases hstep
  | addConnection =>
      cases r with
      | call x =>
          cases x with
          | ok u =>
              cases hstep
              exact hset.of_pool addConnection_pool
          | cms msg =>
              cases hstep
              exact hset
      | _ => cases hstep
  | resetSessionpool =>
      cases r <;> cases hstep
      exact hset.resetSessionpool
  | testEmpty | testURI | redelivery | newResourcemgr | insert | setNext =>
      cases r <;> cases hstep
      exact ⟨hset.1, hset.2, hset.3, hset.4⟩

theorem hasReturned_of_step (hstep : pc.step a w r = some (w', pc')) : pc.hasReturned = false := by
  cases pc with
  | returned x => cases r <;> cases hstep
  | _ => rfl

/-- The members are written before they are used. -/
theorem hasSetMembers_of_step (hstep : pc.step a w r = some (w', pc'))
    (h : hasSetMembers pc' = true) : hasSetMembers pc = true ∨ pc = .setMembers := by
  cases pc with
  | testEmpty =>
      cases r <;> cases hstep
      split at h <;> cases h
  | testURI =>
      cases r <;> cases hstep
      split at h <;> cases h
  | setMembers => exact .inr rfl
  | returned x => cases r <;> cases hstep
  | _ => exact .inl rfl

/-- What a step of `StartProcess` does with the tasks: `l` are the tasks it hands over. -/
structure Launched (old : TaskPtr → Option Consumer) (others : List TaskPtr) (w w' : PoolWorld)
    (pc' : StartPc) (l : List TaskPtr) : Prop where
  accepted : acceptedTasks w' = acceptedTasks w ++ l
  owned : OwnedHeap old w'.heap (l ++ (startHands pc' ++ others))
  owner : ∀ x ∈ w'.accepted, x ∈ w.accepted ∨ w'.pool.threadPool = some x.1

theorem launched_of_move (h : OwnedHeap old w.heap (startHands pc ++ others))
    (hpool : inLoop pc = true → w.pool.threadPool.isSome = true)
    (hmove : LaunchMove a w pc w' pc') : ∃ l, Launched old others w w' pc' l := by
  cases hmove with
  | same hpc hpc' hloop hbefore hsame =>
      refine ⟨[], ?_, ?_, ?_⟩
      · unfold acceptedTasks
        rw [hsame.accepted, List.append_nil]
      · rw [hpc] at h
        rw [hpc', hsame.heap]
        exact h
      · intro x hx
        rw [hsame.accepted] at hx
        exact .inl hx
  | newExecutor => exact ⟨[], (List.append_nil _).symm, h, fun x hx => .inl hx⟩
  | @new i p hp =>
      refine ⟨[], (List.append_nil _).symm, ?_, fun x hx => .inl hx⟩
      apply h.alloc
      · simpa [Live] using hp
      · exact live_newTask_self _
      · intro q hq
        exact if_neg hq
  | insert i p => exact ⟨[], (List.append_nil _).symm, h, fun x hx => .inl hx⟩
  | accepted i p =>
      obtain ⟨e, he⟩ := Option.isSome_iff_exists.mp (hpool rfl)
      have hexec : w.execute p .ok = { w with accepted := w.accepted ++ [(e, p)] } := by
        simp [PoolWorld.execute, he]
      rw [hexec]
      refine ⟨[p], by simp [acceptedTasks], h, ?_⟩
      intro x hx
      rcases List.mem_append.mp hx with hx | hx
      · exact .inl hx
      · rw [List.mem_singleton.mp hx]
        exact .inr he
  | rejected i p e =>
      exact ⟨[], (List.append_nil _).symm, owned_deleteTask h, fun x hx => .inl hx⟩

/-- Only the statement that makes the executor writes `m_threadPool`. -/
theorem LaunchMove.threadPool (h : LaunchMove a w pc w' pc') :
    w'.pool.threadPool = w.pool.threadPool ∨ pc = .newExecutor := by
  cases h with
  | same _ _ _ _ hsame => exact .inl hsame.threadPool
  | newExecutor => exact .inr rfl
  | accepted i p => exact .inl (execute_threadPool .ok)
  | new | insert | rejected => exact .inl rfl

/-- In the loop there is an executor. -/
theorem LaunchMove.hasPool (h : LaunchMove a w pc w' pc')
    (hpool : inLoop pc = true → w.pool.threadPool.isSome = true) (hloop : inLoop pc' = true) :
    w'.pool.threadPool.isSome = true := by
  cases h with
  | same _ _ hloop' _ hsame =>
      rw [hsame.threadPool]
      exact hpool (hloop' hloop)
  | newExecutor => rfl
  | new | insert => exact hpool rfl
  | accepted i p =>
      rw [execute_threadPool]
      exact hpool rfl
  | rejected => cases hloop

theorem LaunchMove.made (h : LaunchMove a w pc w' pc') (hmade : MadeFor a old w.heap)
    (hset : hasSetMembers pc = true → SetTo a w) : MadeFor a old w'.heap := by
  cases h with
  | same _ _ _ _ hsame =>
      rw [hsame.heap]
      exact hmade
  | new hp => exact hmade.newTask (hset rfl) _ _
  | accepted i p => exact hmade.execute p .ok
  | rejected i p e => exact hmade.deleteTask p
  | newExecutor | insert => exact hmade

/-- Up to the executor, and after the return, nothing is done with the tasks. -/
theorem LaunchMove.sameTasks (h : LaunchMove a w pc w' pc') (hset : hasSetMembers pc = false) :
    SameTasks w w' := by
  cases h with
  | same _ _ _ _ hsame => exact hsame
  | newExecutor | new | insert | accepted | rejected => cases hset

theorem LaunchMove.before (h : LaunchMove a w pc w' pc') (hpc' : beforeLoop pc' = true)
    (hnot : pc'.hasReturned = false) : beforeLoop pc = true ∧ w'.accepted = w.accepted := by
  cases h with
  | same _ _ _ hbefore hsame => exact ⟨hbefore hpc' hnot, hsame.accepted⟩
  | newExecutor | new | insert | accepted => cases hpc'
  | rejected => cases hnot

/-! ## The steps of the program -/

variable {uri : String} {s s' : Deployment} {x : DeploymentAction}

/-- What a step can be. -/
inductive DeployMove (uri : String) (a : StartArgs) (s : Deployment) :
    DeploymentAction → Deployment → Prop
  | send {x : SendAction} {q : Pipeline} (hsend : s.pipeline.step uri (.send x) = some q) :
      DeployMove uri a s (.send x) { s with pipeline := q }
  | start {r : PoolReply} {w' : PoolWorld} {pc' : StartPc} (hnull : r.nullTask = false)
      (hstep : s.starting.step a s.pool.world r = some (w', pc')) :
      DeployMove uri a s (.start r) { s with starting := pc', pool := { s.pool with world := w' } }
  | complete {e : ExecutorId} {p : TaskPtr} {t : ℕ} {y : Run}
      (hp : (e, p) ∈ s.pool.world.accepted) (ht : s.runs p = some t)
      (hy : s.pipeline.world.tasks[t]? = some y) (hended : y.ended = true) :
      DeployMove uri a s (.pool (.complete e p))
        { s with
          pool := { s.pool with
            world := completed s.pool.world e p, afters := s.pool.afters ++ [⟨p, .testOpen⟩] }
          runs := fun q => if q = p then none else s.runs q }
  | after {j : ℕ} {r : PoolReply} {c : AfterCall} {w' : PoolWorld} {pc' : AfterPc}
      (hc : s.pool.afters[j]? = some c) (hok : r = .execute .ok → s.pool.world.isOpen = true)
      (hnull : ∀ msg, r ≠ .execute (.nullPointer msg))
      (hstep : c.pc.step c.task s.pool.world r = some (w', pc')) :
      DeployMove uri a s (.pool (.after j r))
        { s with pool := { s.pool with
            world := w', afters := s.pool.afters.set j { c with pc := pc' } } }
  | stop {r : StopReply} {w' : PoolWorld} {pc' : StopPc}
      (hreturned : s.starting.hasReturned = true) (hwaiting : ∀ p ∈ r.tasks, s.runs p = none)
      (hterm : r = .awaited .terminated → s.pool.isTerminated = true)
      (hstep : s.pool.stop.step s.pool.world r = some (w', pc')) :
      DeployMove uri a s (.pool (.stop r))
        { s with pool := { s.pool with
            world := w', stop := pc', dropped := s.pool.dropped ++ r.tasks } }
  | begin {e : ExecutorId} {p : TaskPtr} {c : Consumer} (hp : (e, p) ∈ s.pool.world.accepted)
      (hnone : s.runs p = none) (hc : s.pool.world.heap p = some c) :
      DeployMove uri a s (.begin e p)
        { s with
          pipeline := { s.pipeline with world :=
            { s.pipeline.world with tasks := s.pipeline.world.tasks ++ [Run.start c] } }
          runs := fun q => if q = p then some s.pipeline.world.tasks.length else s.runs q }
  | call {p : TaskPtr} {e : Event} {t : ℕ} {world : World} (ht : s.runs p = some t)
      (hworld : s.pipeline.world.step (.act t e) = some world) :
      DeployMove uri a s (.call p e) { s with pipeline := { s.pipeline with world := world } }

/-- **The inversion of a step.** -/
theorem deployMove_of_step (h : s.step uri a x = some s') : DeployMove uri a s x s' := by
  cases x with
  | send x =>
      obtain ⟨q, hsend, rfl⟩ := Option.map_eq_some_iff.mp h
      exact .send hsend
  | start r =>
      simp only [Deployment.step] at h
      split at h
      · cases h
      · rename_i hnull
        obtain ⟨⟨w', pc'⟩, hstep, rfl⟩ := Option.map_eq_some_iff.mp h
        exact .start (by simpa using hnull) hstep
  | pool x =>
      simp only [Deployment.step] at h
      split at h
      case isFalse => cases h
      rename_i hpermits
      obtain ⟨pool, hpool, rfl⟩ := Option.map_eq_some_iff.mp h
      cases stopMove_of_step hpool with
      | @complete e p hp =>
          simp only [Deployment.permits, Deployment.isOver] at hpermits
          cases ht : s.runs p with
          | none => simp [ht] at hpermits
          | some t =>
              simp only [ht] at hpermits
              obtain ⟨y, hy, hended⟩ := (Option.any_eq_true _ _).mp hpermits
              exact .complete hp ht hy hended
      | after hc hok hnull hstep => exact .after hc hok hnull hstep
      | stop hterm hstep =>
          simp only [Deployment.permits, Bool.and_eq_true, List.all_eq_true,
            Option.isNone_iff_eq_none] at hpermits
          exact .stop hpermits.1 hpermits.2 hterm hstep
  | begin e p =>
      simp only [Deployment.step] at h
      split at h
      case isFalse => cases h
      rename_i hready
      rw [Bool.and_eq_true, Option.isNone_iff_eq_none, List.contains_iff_mem] at hready
      obtain ⟨c, hc, h⟩ := Option.bind_eq_some_iff.mp h
      obtain ⟨world, hworld, rfl⟩ := Option.map_eq_some_iff.mp h
      cases hworld
      exact .begin hready.1 hready.2 hc
  | call p e =>
      simp only [Deployment.step] at h
      split at h
      · cases h
      · obtain ⟨t, ht, h⟩ := Option.bind_eq_some_iff.mp h
        obtain ⟨world, hworld, rfl⟩ := Option.map_eq_some_iff.mp h
        exact .call ht hworld

/-! ## The invariant -/

/-- `StartProcess` has written the members and has not returned, or the pool has tasks. -/
def NeedsMembers (s : Deployment) : Prop :=
  hasSetMembers s.starting = true ∨ s.pool.world.accepted ≠ [] ∨ s.pool.afters ≠ []

/-- The pool was `v` before the call of `StartProcess`, which had no tasks. -/
structure Deployed (a : StartArgs) (v : PoolWorld) (s : Deployment) : Prop where
  owned : OwnedHeap v.heap s.pool.world.heap (startHands s.starting ++ inUse s.pool)
  made : MadeFor a v.heap s.pool.world.heap
  owner : ∀ x ∈ s.pool.world.accepted, s.pool.world.pool.threadPool = some x.1
  hasPool : inLoop s.starting = true ∨ s.pool.afters ≠ [] → hasWaited s.pool.stop = false →
    s.pool.world.pool.threadPool.isSome = true
  members : NeedsMembers s → SetTo a s.pool.world
  idle : beforeLoop s.starting = true → s.starting.hasReturned = false →
    s.pool.world.accepted = [] ∧ s.pool.afters = []
  begun : ∀ p t, s.runs p = some t → p ∈ acceptedTasks s.pool.world
  active : ∀ (t : ℕ) y, s.pipeline.world.tasks[t]? = some y → y.ended = false →
    ∃ p, s.runs p = some t
  main : s.starting.hasReturned = false → s.pool.stop = .stop
  quiet : hasWaited s.pool.stop = true → Drained s.pool

/-- A step of `StartProcess`. -/
theorem Deployed.start (h : Deployed a v s) (hnull : r.nullTask = false)
    (hstep : s.starting.step a s.pool.world r = some (w', pc')) :
    Deployed a v { s with starting := pc', pool := { s.pool with world := w' } } := by
  have hmove := launchMove_of_step hnull hstep
  have hnot := hasReturned_of_step hstep
  have hstop := h.main hnot
  have hpool : inLoop s.starting = true → s.pool.world.pool.threadPool.isSome = true := by
    intro hloop
    apply h.hasPool (.inl hloop)
    rw [hstop]
    rfl
  obtain ⟨l, hl⟩ := launched_of_move h.owned hpool hmove
  refine ⟨?_, ?_, ?_, ?_, ?_, ?_, ?_, h.active, fun _ => hstop, ?_⟩
  · apply hl.owned.perm
    unfold inUse
    rw [show acceptedTasks w' = _ from hl.accepted]
    simp only [List.append_assoc]
    exact (List.perm_append_comm_assoc _ _ _).trans
      ((List.perm_append_comm_assoc _ _ _).append_left _)
  · apply hmove.made h.made
    intro hset
    exact h.members (.inl hset)
  · intro x hx
    rcases hl.owner x hx with hx | hx
    · rcases hmove.threadPool with hsame | hpc
      · rw [hsame]
        exact h.owner x hx
      · rw [(h.idle (by rw [hpc]; rfl) hnot).1] at hx
        cases hx
    · exact hx
  · intro hneed hwaited
    rcases hneed with hloop | hafters
    · exact hmove.hasPool hpool hloop
    · rcases hmove.threadPool with hsame | hpc
      · rw [hsame]
        exact h.hasPool (.inr hafters) hwaited
      · exact absurd (h.idle (by rw [hpc]; rfl) hnot).2 hafters
  · intro hneed
    apply setTo_start _ hstep
    by_cases hbefore : NeedsMembers s
    · exact .inl (h.members hbefore)
    · right
      have hset : hasSetMembers s.starting = false := by
        rw [← Bool.not_eq_true]
        exact fun hset => hbefore (.inl hset)
      rcases hneed with hset' | hacc | hafters
      · rcases hasSetMembers_of_step hstep hset' with hold | hpc
        · exact absurd (.inl hold) hbefore
        · exact hpc
      · rw [(hmove.sameTasks hset).accepted] at hacc
        exact absurd (.inr (.inl hacc)) hbefore
      · exact absurd (.inr (.inr hafters)) hbefore
  · intro hpc' hreturned
    obtain ⟨hpc, hacc⟩ := hmove.before hpc' hreturned
    rw [hacc]
    exact h.idle hpc hnot
  · intro p t ht
    show p ∈ acceptedTasks w'
    rw [hl.accepted]
    exact List.mem_append_left _ (h.begun p t ht)
  · rw [hstop]
    nofun

/-- A task completes. -/
theorem Deployed.complete {e : ExecutorId} {t : ℕ} {y : Run} (h : Deployed a v s)
    (hp : (e, p) ∈ s.pool.world.accepted) (ht : s.runs p = some t)
    (hy : s.pipeline.world.tasks[t]? = some y) (hended : y.ended = true) :
    Deployed a v
      { s with
        pool := { s.pool with
          world := completed s.pool.world e p, afters := s.pool.afters ++ [⟨p, .testOpen⟩] }
        runs := fun q => if q = p then none else s.runs q } := by
  have hbusy : s.pool.world.accepted ≠ [] := List.ne_nil_of_mem hp
  refine ⟨?_, h.made, ?_, ?_, ?_, ?_, ?_, ?_, h.main, ?_⟩
  · exact h.owned.perm ((inUse_complete hp).append_left _)
  · intro x hx
    exact h.owner x (List.mem_of_mem_erase hx)
  · intro _ _
    show s.pool.world.pool.threadPool.isSome = true
    rw [h.owner (e, p) hp]
    rfl
  · intro _
    exact (h.members (.inr (.inl hbusy))).of_pool rfl
  · intro hpc hnot
    exact absurd (h.idle hpc hnot).1 hbusy
  · intro q u hq
    have hqp : q ≠ p := by
      rintro rfl
      simp at hq
    have hrun : s.runs q = some u := by simpa [hqp] using hq
    obtain ⟨z, hz, rfl⟩ := List.mem_map.mp (h.begun q u hrun)
    apply List.mem_map_of_mem
    apply (List.mem_erase_of_ne _).mpr hz
    rintro rfl
    exact hqp rfl
  · intro u z hz hnot
    obtain ⟨q, hq⟩ := h.active u z hz hnot
    refine ⟨q, ?_⟩
    -- the run of the task that completes is over
    have hqp : q ≠ p := by
      rintro rfl
      rw [ht, Option.some.injEq] at hq
      rw [← hq, hy, Option.some.injEq] at hz
      rw [← hz, hended] at hnot
      cases hnot
    simpa [hqp] using hq
  · intro hwaited
    exact absurd (h.quiet hwaited).1 hbusy

/-- An `afterExecute` call makes a step. -/
theorem Deployed.after {j : ℕ} {c : AfterCall} {apc' : AfterPc} (h : Deployed a v s)
    (hc : s.pool.afters[j]? = some c) (hok : r = .execute .ok → s.pool.world.isOpen = true)
    (hnull : ∀ msg, r ≠ .execute (.nullPointer msg))
    (hstep : c.pc.step c.task s.pool.world r = some (w', apc')) :
    Deployed a v
      { s with pool := { s.pool with
          world := w', afters := s.pool.afters.set j { c with pc := apc' } } } := by
  have hbusy : s.pool.afters ≠ [] := List.ne_nil_of_mem (List.mem_of_getElem? hc)
  have hsame := samePool_after hstep
  have hset := h.members (.inr (.inr hbusy))
  obtain ⟨rest, huse, hnext⟩ := exists_inUse_perm hc
  have howned : OwnedHeap v.heap s.pool.world.heap
      (inHands ⟨c.task, c.pc⟩ ++ (startHands s.starting ++ rest)) := by
    apply h.owned.perm
    exact (huse.append_left _).trans (List.perm_append_comm_assoc _ _ _)
  obtain ⟨l, hl⟩ := afterStep_of_step howned hok hnull hstep
  refine ⟨?_, h.made.after hset hstep, ?_, ?_, ?_, ?_, ?_, h.active, h.main, ?_⟩
  · apply hl.owned.perm
    refine List.Perm.trans ?_ ((hnext w' _ l hl.accepted).symm.append_left _)
    exact ((List.perm_append_comm_assoc _ _ _).append_left _).trans
      (List.perm_append_comm_assoc _ _ _)
  · intro x hx
    show w'.pool.threadPool = some x.1
    rw [hsame.threadPool]
    rcases hl.owner x hx with hx | hx
    · exact h.owner x hx
    · exact hx
  · intro _ hwaited
    show w'.pool.threadPool.isSome = true
    rw [hsame.threadPool]
    exact h.hasPool (.inr hbusy) hwaited
  · intro _
    exact hset.samePool hsame
  · intro hpc hnot
    exact absurd (h.idle hpc hnot).2 hbusy
  · intro q t ht
    show q ∈ acceptedTasks w'
    rw [hl.accepted]
    exact List.mem_append_left _ (h.begun q t ht)
  · intro hwaited
    rw [(h.quiet hwaited).2 c (List.mem_of_getElem? hc)] at hstep
    cases r <;> cases hstep

/-! ### The steps of `StopProcess` -/

variable {spc spc' : StopPc} {sr : StopReply}

/-- A step of `StopProcess` does nothing with the tasks, or it is `shutdownNow`. -/
theorem stopStep_cases (hstep : spc.step w sr = some (w', spc')) :
    (sr.tasks = [] ∧ w'.accepted = w.accepted ∧ w'.heap = w.heap) ∨
      ∃ ps, sr = .notExecuted ps ∧ ps.Nodup ∧ (∀ p ∈ ps, p ∈ w.running) ∧
        w' = w.shutdownNow ps ∧ spc' = .awaitAgain := by
  cases spc with
  | shutdownNow =>
      cases sr with
      | notExecuted ps =>
          simp only [StopPc.step] at hstep
          split at hstep
          · rename_i hps
            cases hstep
            exact .inr ⟨ps, rfl, hps.1, hps.2, rfl, rfl⟩
          · cases hstep
      | _ => cases hstep
  | awaitTermination | awaitAgain =>
      cases sr with
      | awaited o => cases o <;> cases hstep <;> exact .inl ⟨rfl, rfl, rfl⟩
      | _ => cases hstep
  | shutdown =>
      cases sr <;> cases hstep
      exact .inl ⟨rfl, shutdown_frame.2.1, shutdown_frame.1⟩
  | deletePool =>
      cases sr <;> cases hstep
      exact .inl ⟨rfl, deletePool_frame.2.1, deletePool_frame.1⟩
  | deleteResourcemgr =>
      cases sr <;> cases hstep
      exact .inl ⟨rfl, deleteResourcemgr_frame.2.1, deleteResourcemgr_frame.1⟩
  | returned => cases sr <;> cases hstep
  | _ =>
      cases sr <;> cases hstep
      exact .inl ⟨rfl, rfl, rfl⟩

/-- `StopProcess` keeps the members that tasks are made from. -/
theorem SetTo.stop (h : SetTo a w) (hstep : spc.step w sr = some (w', spc')) : SetTo a w' := by
  cases spc with
  | shutdownNow =>
      cases sr with
      | notExecuted ps =>
          simp only [StopPc.step] at hstep
          split at hstep
          · cases hstep
            exact h.of_pool shutdown_pool
          · cases hstep
      | _ => cases hstep
  | awaitTermination | awaitAgain =>
      cases sr with
      | awaited o => cases o <;> cases hstep <;> exact h
      | _ => cases hstep
  | shutdown =>
      cases sr <;> cases hstep
      exact h.of_pool shutdown_pool
  | deletePool =>
      cases sr <;> cases hstep
      exact h.of_pool deletePool_pool
  | deleteResourcemgr =>
      cases sr <;> cases hstep
      exact h.of_pool deleteResourcemgr_pool
  | returned => cases sr <;> cases hstep
  | _ =>
      cases sr <;> cases hstep
      exact ⟨h.strDestURI, h.bUseTopic, h.bClientAck, h.nTimeout⟩

/-- `StopProcess` keeps `m_threadPool` until it has waited. -/
theorem threadPool_stop (hstep : spc.step w sr = some (w', spc')) (hnot : hasWaited spc = false) :
    w'.pool.threadPool = w.pool.threadPool := by
  cases spc with
  | shutdownNow =>
      cases sr with
      | notExecuted ps =>
          simp only [StopPc.step] at hstep
          split at hstep
          · cases hstep
            exact congrArg _ shutdown_pool
          · cases hstep
      | _ => cases hstep
  | awaitTermination | awaitAgain =>
      cases sr with
      | awaited o => cases o <;> cases hstep <;> rfl
      | _ => cases hstep
  | shutdown =>
      cases sr <;> cases hstep
      exact congrArg _ shutdown_pool
  | stop | testPool | stopAgain =>
      cases sr <;> cases hstep
      rfl
  | deletePool | nullPool | clear | testResourcemgr | deleteResourcemgr | resetSessionpool
  | returned => cases hnot

/-- The wait is not taken back. -/
theorem hasWaited_step (hstep : spc.step w sr = some (w', spc')) (hwaited : hasWaited spc = true) :
    hasWaited spc' = true := by
  cases spc with
  | stop | testPool | shutdown | stopAgain | awaitTermination | shutdownNow | awaitAgain =>
      cases hwaited
  | testResourcemgr =>
      cases sr <;> cases hstep
      split <;> rfl
  | returned => cases sr <;> cases hstep
  | deletePool | nullPool | clear | deleteResourcemgr | resetSessionpool =>
      cases sr <;> cases hstep
      rfl

/-- How `StopProcess` comes to have waited. -/
theorem hasWaited_of_step {z : StopSystem} (hseen : TerminationSeen z (.stop sr))
    (hstep : z.stop.step z.world sr = some (w', spc')) (hwaited : hasWaited spc' = true) :
    hasWaited z.stop = true ∨ sr = .awaited .terminated ∨ z.world.pool.threadPool = none := by
  cases hpc : z.stop <;> rw [hpc] at hstep
  case stop | shutdown | stopAgain =>
      cases sr <;> cases hstep
      cases hwaited
  case testPool =>
      cases sr <;> cases hstep
      cases he : z.world.pool.threadPool with
      | none => exact .inr (.inr rfl)
      | some e =>
          simp [he, hasWaited] at hwaited
  case awaitTermination =>
      cases sr with
      | awaited o =>
          cases o with
          | terminated => exact .inr (.inl rfl)
          | timedOut =>
              cases hstep
              cases hwaited
          | interrupted msg => exact hseen.elim
      | _ => cases hstep
  case shutdownNow =>
      cases sr with
      | notExecuted ps =>
          simp only [StopPc.step] at hstep
          split at hstep
          · cases hstep
            cases hwaited
          · cases hstep
      | _ => cases hstep
  case awaitAgain =>
      cases sr with
      | awaited o =>
          cases o with
          | terminated => exact .inr (.inl rfl)
          | timedOut => exact absurd hpc hseen
          | interrupted msg => exact hseen.elim
      | _ => cases hstep
  all_goals exact .inl rfl

/-- `StopProcess` makes a step, and does not give a wait up. -/
theorem Deployed.stop (h : Deployed a v s) (hreturned : s.starting.hasReturned = true)
    (hwaiting : ∀ p ∈ sr.tasks, s.runs p = none) (hseen : TerminationSeen s.pool (.stop sr))
    (hterm : sr = .awaited .terminated → s.pool.isTerminated = true)
    (hstep : s.pool.stop.step s.pool.world sr = some (w', spc')) :
    Deployed a v
      { s with pool := { s.pool with
          world := w', stop := spc', dropped := s.pool.dropped ++ sr.tasks } } := by
  have hnoLoop : inLoop s.starting = false := by
    cases hpc : s.starting with
    | returned x => rfl
    | _ =>
        rw [hpc] at hreturned
        cases hreturned
  have hsub : ∀ x ∈ w'.accepted, x ∈ s.pool.world.accepted := by
    intro x hx
    rcases stopStep_cases hstep with ⟨-, hacc, -⟩ | ⟨ps, -, -, -, rfl, -⟩
    · exact hacc ▸ hx
    · exact List.mem_of_mem_filter hx
  have hpool : w'.accepted ≠ [] → w'.pool.threadPool = s.pool.world.pool.threadPool := by
    intro hne
    apply threadPool_stop hstep
    rw [← Bool.not_eq_true]
    intro hwaited
    obtain ⟨x, hx⟩ := List.exists_mem_of_ne_nil _ hne
    have hmem := hsub x hx
    rw [(h.quiet hwaited).1] at hmem
    cases hmem
  refine ⟨?_, ?_, ?_, ?_, ?_, ?_, ?_, h.active, ?_, ?_⟩
  · rcases stopStep_cases hstep with ⟨htasks, hacc, hheap⟩ | ⟨ps, rfl, hps, hrunning, rfl, rfl⟩
    · rw [htasks, List.append_nil]
      show OwnedHeap v.heap w'.heap (startHands s.starting ++
        (acceptedTasks w' ++ s.pool.afters.flatMap inHands ++ s.pool.dropped))
      unfold acceptedTasks
      rw [hacc, hheap]
      exact h.owned
    · show OwnedHeap v.heap (s.pool.world.shutdownNow ps).heap _
      have hheap : (s.pool.world.shutdownNow ps).heap = s.pool.world.heap := shutdown_frame.1
      rw [hheap]
      apply h.owned.perm
      apply List.Perm.append_left
      apply inUse_shutdownNow _ h.owner hps hrunning
      have hnodup := (List.nodup_append.mp h.owned.nodup).2.1
      exact (List.nodup_append.mp (List.nodup_append.mp hnodup).1).1
  · rcases stopStep_cases hstep with ⟨-, -, hheap⟩ | ⟨ps, -, -, -, rfl, -⟩
    · show MadeFor a v.heap w'.heap
      rw [hheap]
      exact h.made
    · show MadeFor a v.heap (s.pool.world.shutdown).heap
      rw [shutdown_frame.1]
      exact h.made
  · intro x hx
    show w'.pool.threadPool = some x.1
    rw [hpool (List.ne_nil_of_mem hx)]
    exact h.owner x (hsub x hx)
  · intro hneed hwaited
    show w'.pool.threadPool.isSome = true
    have hafters : s.pool.afters ≠ [] := by
      rcases hneed with hloop | hafters
      · have hfalse : inLoop s.starting = true := hloop
        rw [hnoLoop] at hfalse
        cases hfalse
      · exact hafters
    by_cases hbefore : hasWaited s.pool.stop = true
    · have hstays : hasWaited spc' = true := hasWaited_step hstep hbefore
      have hnot : hasWaited spc' = false := hwaited
      rw [hnot] at hstays
      cases hstays
    · rw [Bool.not_eq_true] at hbefore
      rw [threadPool_stop hstep hbefore]
      exact h.hasPool (.inr hafters) hbefore
  · intro hneed
    refine (h.members ?_).stop hstep
    rcases hneed with hset | hacc | hafters
    · exact .inl hset
    · obtain ⟨x, hx⟩ := List.exists_mem_of_ne_nil _ hacc
      exact .inr (.inl (List.ne_nil_of_mem (hsub x hx)))
    · exact .inr (.inr hafters)
  · intro _ hnot
    have hfalse : s.starting.hasReturned = false := hnot
    rw [hreturned] at hfalse
    cases hfalse
  · intro p t ht
    have hp := h.begun p t ht
    show p ∈ acceptedTasks w'
    rcases stopStep_cases hstep with ⟨-, hacc, -⟩ | ⟨ps, rfl, -, -, rfl, -⟩
    · unfold acceptedTasks
      rw [hacc]
      exact hp
    · obtain ⟨x, hx, rfl⟩ := List.mem_map.mp hp
      apply List.mem_map_of_mem
      apply List.mem_filter.mpr
      refine ⟨hx, ?_⟩
      rw [decide_eq_true_eq]
      rintro ⟨-, hmem⟩
      rw [hwaiting x.2 hmem] at ht
      cases ht
  · intro hnot
    have hfalse : s.starting.hasReturned = false := hnot
    rw [hreturned] at hfalse
    cases hfalse
  · intro hwaited
    have hdrained : Drained s.pool := by
      rcases hasWaited_of_step hseen hstep hwaited with hbefore | hr | hnone
      · exact h.quiet hbefore
      · exact drained_of_isTerminated h.owner (hterm hr)
      · by_cases hbefore : hasWaited s.pool.stop = true
        · exact h.quiet hbefore
        · rw [Bool.not_eq_true] at hbefore
          constructor
          · rw [List.eq_nil_iff_forall_not_mem]
            intro x hx
            have howner := h.owner x hx
            rw [hnone] at howner
            cases howner
          · intro c hc
            have hsome := h.hasPool (.inr (List.ne_nil_of_mem hc)) hbefore
            rw [hnone] at hsome
            cases hsome
    refine ⟨?_, hdrained.2⟩
    rw [List.eq_nil_iff_forall_not_mem]
    intro x hx
    have hmem := hsub x hx
    rw [hdrained.1] at hmem
    cases hmem

/-! ### The steps of the runs -/

/-- The executor calls `run` on a task. -/
theorem Deployed.begin {e : ExecutorId} {c : Consumer} (h : Deployed a v s)
    (hp : (e, p) ∈ s.pool.world.accepted) (hnone : s.runs p = none) :
    Deployed a v
      { s with
        pipeline := { s.pipeline with world :=
          { s.pipeline.world with tasks := s.pipeline.world.tasks ++ [Run.start c] } }
        runs := fun q => if q = p then some s.pipeline.world.tasks.length else s.runs q } := by
  refine ⟨h.owned, h.made, h.owner, h.hasPool, h.members, h.idle, ?_, ?_, h.main, h.quiet⟩
  · intro q t ht
    by_cases hqp : q = p
    · rw [hqp]
      exact List.mem_map_of_mem hp
    · exact h.begun q t (by simpa [hqp] using ht)
  · intro t y hy hnot
    rcases Threads.getElem?_append_eq_some.mp hy with hy | ⟨rfl, -⟩
    · obtain ⟨q, hq⟩ := h.active t y hy hnot
      have hqp : q ≠ p := by
        rintro rfl
        rw [hnone] at hq
        cases hq
      exact ⟨q, by simpa [hqp] using hq⟩
    · exact ⟨p, if_pos rfl⟩

/-- A `run` makes a call. -/
theorem Deployed.call {e : Event} {t : ℕ} {world : World} (h : Deployed a v s)
    (ht : s.runs p = some t) (hworld : s.pipeline.world.step (.act t e) = some world) :
    Deployed a v { s with pipeline := { s.pipeline with world := world } } := by
  obtain ⟨y, y', w₁, hy, -, hkind, rfl⟩ := step_act hworld
  refine ⟨h.owned, h.made, h.owner, h.hasPool, h.members, h.idle, h.begun, ?_, h.main, h.quiet⟩
  intro u z hz hnot
  rcases (Threads.getElem?_set_eq_some hy).mp hz with ⟨rfl, -⟩ | ⟨-, hz⟩
  · exact ⟨p, ht⟩
  · exact h.active u z hz hnot

/-- The producers make a step. -/
theorem Deployed.send {x : SendAction} {q : Pipeline} (h : Deployed a v s)
    (hsend : s.pipeline.step uri (.send x) = some q) : Deployed a v { s with pipeline := q } := by
  obtain ⟨send, -, rfl⟩ := Option.map_eq_some_iff.mp hsend
  exact ⟨h.owned, h.made, h.owner, h.hasPool, h.members, h.idle, h.begun, h.active, h.main,
    h.quiet⟩

/-! ### The invariant -/

/-- No wait of `StopProcess` is given up. -/
def WaitsSeen (s : Deployment) : DeploymentAction → Prop
  | .pool x => TerminationSeen s.pool x
  | _ => True

instance decidableWaitsSeen (s : Deployment) : (x : DeploymentAction) → Decidable (WaitsSeen s x)
  | .pool x => inferInstanceAs (Decidable (TerminationSeen s.pool x))
  | .send _ | .start _ | .begin _ _ | .call _ _ => isTrue trivial

/-- **The step lemma.** -/
theorem deployed_step (h : Deployed a v s) (hseen : WaitsSeen s x)
    (hstep : s.step uri a x = some s') : Deployed a v s' := by
  cases deployMove_of_step hstep with
  | send hsend => exact h.send hsend
  | start hnull hstart => exact h.start hnull hstart
  | complete hp ht hy hended => exact h.complete hp ht hy hended
  | after hc hok hnull hafter => exact h.after hc hok hnull hafter
  | stop hreturned hwaiting hterm hstop => exact h.stop hreturned hwaiting hseen hterm hstop
  | begin hp hnone hc => exact h.begin hp hnone
  | call ht hworld => exact h.call ht hworld

/-- `StartProcess` is about to be called on a pool without tasks. -/
theorem deployed_init {m : MgrWorld} {modes : SessionId → Destination → DeliveryMode}
    (hacc : v.accepted = []) : Deployed a v (.init m modes v) := by
  have huse : startHands StartPc.testEmpty ++ inUse (.init v) = [] := by
    simp [startHands, startOut, startIn, inUse, acceptedTasks, StopSystem.init, hacc]
  refine ⟨?_, ?_, ?_, ?_, ?_, ?_, ?_, ?_, fun _ => rfl, ?_⟩
  · show OwnedHeap v.heap v.heap (startHands StartPc.testEmpty ++ inUse (.init v))
    rw [huse]
    exact ⟨List.nodup_nil, by simp, by simp, fun _ _ => rfl⟩
  · intro p c hc hnone
    have hold : v.heap p = some c := hc
    rw [hnone] at hold
    cases hold
  · intro x hx
    have hmem : x ∈ v.accepted := hx
    rw [hacc] at hmem
    cases hmem
  · intro hneed _
    rcases hneed with hloop | hafters
    · cases hloop
    · exact absurd rfl hafters
  · intro hneed
    rcases hneed with hset | hne | hafters
    · cases hset
    · exact absurd hacc hne
    · exact absurd rfl hafters
  · intro _ _
    exact ⟨hacc, rfl⟩
  · simp [Deployment.init]
  · simp [Deployment.init, Pipeline.init, World.init]
  · intro hwaited
    cases hwaited

/-- **Every accepted task was made for the call of `StartProcess`.** -/
theorem Deployed.task {e : ExecutorId} {c : Consumer} (h : Deployed a v s)
    (hp : (e, p) ∈ s.pool.world.accepted) (hc : s.pool.world.heap p = some c) :
    ∃ id, c = taskOf a id := by
  apply h.made p c hc
  apply h.owned.apart
  apply List.mem_append_right
  unfold inUse
  rw [List.append_assoc]
  exact List.mem_append_left _ (List.mem_map_of_mem hp)

/-- **When `StopProcess` has waited, every `run` is over.** -/
theorem Deployed.ended (h : Deployed a v s) (hwaited : hasWaited s.pool.stop = true) :
    ∀ y ∈ s.pipeline.world.tasks, y.ended = true := by
  intro y hy
  obtain ⟨t, ht⟩ := List.getElem?_of_mem hy
  rw [← Bool.not_eq_false]
  intro hnot
  obtain ⟨p, hp⟩ := h.active t y ht hnot
  have hmem := h.begun p t hp
  unfold acceptedTasks at hmem
  rw [(h.quiet hwaited).1] at hmem
  cases hmem

end DsAmq.Analysis
