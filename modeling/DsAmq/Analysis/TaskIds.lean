import Mathlib
import DsAmq.Analysis.PoolSize
import DsAmq.Library.FreshIds

/-!
# Task ids identify tasks

The first tasks get the loop index of `StartProcess` as their id, the later ones the counter
`m_next_taskid`, which `StartProcess` sets after the loop.  While no `afterExecute` call takes an id
before that, all ids given since the start are different, and so are those of the tasks in `m_sTask`
(`task_ids_distinct`).  The invariant is `Numbered`: the ids are below the loop index, and later
below the counter.
-/

set_option autoImplicit false

namespace DsAmq.Analysis

open DsAmq.Model DsAmq.Library

/-- There is one `StartProcess` call only, and the executor is not shut down. -/
def ofOneStart : PoolAction → Bool
  | .begin _ | .shutdown _ => false
  | _ => true

/-- The id that the action gives to a new task. -/
def givenId (s : PoolSystem) : PoolAction → Option ℤ
  | .start t (.address _) =>
      s.starts[t]?.bind fun c =>
        match c.pc with
        | .loop i => some i
        | _ => none
  | .after _ (.address _) => some s.world.pool.nextTaskid
  | _ => none

/-- `afterExecute` makes a new task only after `StartProcess` has returned true, which it does
after `m_next_taskid = nsize`. -/
def RespawnsAfterStart (s : PoolSystem) : PoolAction → Prop
  | .after _ (.address _) => ∀ c ∈ s.starts, c.pc = .returned ⟨true, none⟩
  | _ => True

instance (s : PoolSystem) : (x : PoolAction) → Decidable (RespawnsAfterStart s x)
  | .after _ r =>
      match r with
      | .address _ => inferInstanceAs (Decidable (∀ c ∈ s.starts, c.pc = .returned ⟨true, none⟩))
      | .tau | .call _ | .redelivery _ | .executor _ | .execute _ => isTrue trivial
  | .begin _ | .start _ _ | .complete _ _ | .shutdown _ => isTrue trivial

/-- The task at `p` is in the set, or about to be inserted. -/
def InView (s : PoolSystem) (p : TaskPtr) : Prop :=
  p ∈ s.world.pool.sTask ∨ (∃ c ∈ s.starts, ∃ i, c.pc = .insert i p) ∨
    ∃ c ∈ s.afters, c.pc = .insert p

/-- The task at `p` has this id. -/
def HasId (s : PoolSystem) (p : TaskPtr) (id : ℤ) : Prop :=
  InView s p ∧ ∃ c, s.world.heap p = some c ∧ c.nTaskID = id

/-- The next id that `StartProcess`, and after it `afterExecute`, will give is not below the
bound; before the loop there are no tasks. -/
def Bounded (a : StartArgs) (bound : ℤ) (s : PoolSystem) : StartPc → Prop
  | .loop i => bound ≤ i ∧ (i : ℤ) ≤ a.nsize
  | .insert i _ | .execute i _ => bound ≤ i + 1 ∧ (i : ℤ) + 1 ≤ a.nsize
  | .setNext => bound ≤ a.nsize
  | .returned r => r.result = true → bound ≤ s.world.pool.nextTaskid
  | _ => bound ≤ 0 ∧ s.world.pool.sTask = ∅ ∧ s.world.accepted = [] ∧ s.afters = []

/-- `StartProcess` is at `pc`, and the ids `given` so far are different and those of the tasks in
view are among them. -/
structure Numbered (a : StartArgs) (pc : StartPc) (given : List ℤ) (s : PoolSystem) : Prop where
  starts : s.starts = [⟨a, pc⟩]
  ids : ∃ bound, Identified given bound (HasId s) ∧ Bounded a bound s pc

variable {a : StartArgs} {pc pc' : StartPc} {w w' : PoolWorld} {s s' : PoolSystem}
  {given : List ℤ} {bound : ℤ} {p q : TaskPtr} {i j : ℕ} {x : PoolAction}

/-! ## Before the loop -/

theorem bounded_of_beforeLoop (hpc : beforeLoop pc = true) (hbound : bound ≤ 0)
    (hempty : s.world.pool.sTask = ∅) (hacc : s.world.accepted = []) (hafters : s.afters = []) :
    Bounded a bound s pc := by
  cases pc with
  | loop | insert | execute | setNext => cases hpc
  | returned r =>
      intro hr
      have hfalse : r.result = false := by simpa [beforeLoop] using hpc
      rw [hfalse] at hr
      cases hr
  | _ => exact ⟨hbound, hempty, hacc, hafters⟩

theorem Bounded.idle (h : Bounded a bound s pc) (hpc : beforeLoop pc = true)
    (hreturned : ∀ r, pc ≠ .returned r) :
    bound ≤ 0 ∧ s.world.pool.sTask = ∅ ∧ s.world.accepted = [] ∧ s.afters = [] := by
  cases pc with
  | loop | insert | execute | setNext => cases hpc
  | returned r => exact absurd rfl (hreturned r)
  | _ => exact h

/-! ## The steps of `StartProcess` -/

/-- The tasks in view after a step of `StartProcess`. -/
theorem inView_start (hstarts : s.starts = [⟨a, pc⟩])
    (hset : ∀ p ∈ w'.pool.sTask, p ∈ s.world.pool.sTask ∨ ∃ i, pc = .insert i p)
    (h : InView { s with world := w', starts := [⟨a, pc'⟩] } p) :
    InView s p ∨ ∃ i, pc' = .insert i p := by
  rcases h with hp | ⟨c, hc, i, hpc⟩ | hafter
  · rcases hset p hp with hp | ⟨i, hpc⟩
    · exact .inl (.inl hp)
    · refine .inl (.inr (.inl ⟨⟨a, pc⟩, ?_, i, hpc⟩))
      rw [hstarts]
      exact List.mem_cons_self
  · rw [List.mem_singleton.mp hc] at hpc
    exact .inr ⟨i, hpc⟩
  · exact .inl (.inr (.inr hafter))

/-- A step of `StartProcess` that makes no task. -/
theorem Numbered.of_start (h : Numbered a pc given s)
    (hset : ∀ p ∈ w'.pool.sTask, p ∈ s.world.pool.sTask ∨ ∃ i, pc = .insert i p)
    (hheap : ∀ p c, w'.heap p = some c → s.world.heap p = some c)
    (hpc' : ∀ i p, pc' ≠ .insert i p)
    (hbound : ∀ bound, Bounded a bound s pc →
      Bounded a bound { s with world := w', starts := [⟨a, pc'⟩] } pc') :
    Numbered a pc' given { s with world := w', starts := [⟨a, pc'⟩] } := by
  obtain ⟨bound, hids, hb⟩ := h.ids
  refine ⟨rfl, bound, ?_, hbound bound hb⟩
  apply hids.mono (le_refl bound)
  rintro p id ⟨hview, c, hc, hid⟩
  rcases inView_start h.starts hset hview with hview | ⟨i, hpc⟩
  · exact ⟨hview, c, hheap p c hc, hid⟩
  · exact absurd hpc (hpc' i p)

/-- `StartProcess` makes the task with the id `i`. -/
theorem numbered_new (h : Numbered a (.loop i) given s) (hi : i < slotsOf a) :
    Numbered a (.insert i p) (given ++ [(i : ℤ)])
      { s with world := s.world.newTask p i, starts := [⟨a, .insert i p⟩] } := by
  obtain ⟨bound, hids, hb, hle⟩ := h.ids
  have hlt := lt_nsize_iff.mpr hi
  refine ⟨rfl, (i : ℤ) + 1, ?_, le_refl _, hlt⟩
  refine hids.fresh (q := p) hb (Int.lt_succ i) ?_
  rintro r id ⟨hview, c, hc, hid⟩
  by_cases hr : r = p
  · left
    have hnew : (s.world.newTask p i).heap r = some c := hc
    simp only [PoolWorld.newTask, hr, if_true, Option.some.injEq] at hnew
    refine ⟨hr, ?_⟩
    rw [← hid, ← hnew]
    rfl
  · right
    have hold : (s.world.newTask p i).heap r = s.world.heap r := if_neg hr
    have hc' : (s.world.newTask p i).heap r = some c := hc
    have hset : ∀ r ∈ (s.world.newTask p i).pool.sTask,
        r ∈ s.world.pool.sTask ∨ ∃ k, StartPc.loop i = .insert k r := fun r hr => .inl hr
    rcases inView_start h.starts hset hview with hview | ⟨k, hpc⟩
    · exact ⟨hview, c, hold ▸ hc', hid⟩
    · cases hpc
      exact absurd rfl hr

/-- What `execute` leaves of the tasks. -/
theorem heap_execute {o : ExecuteOutcome} {c : Consumer} (h : (w.execute p o).heap q = some c) :
    w.heap q = some c := by
  cases o with
  | ok =>
      cases he : w.pool.threadPool with
      | none =>
          simp only [PoolWorld.execute, he] at h
          exact h
      | some e =>
          simp only [PoolWorld.execute, he] at h
          exact h
  | nullPointer msg => exact h
  | rejected msg =>
      by_cases hq : q = p
      · simp [PoolWorld.execute, PoolWorld.deleteTask, hq] at h
      · simpa [PoolWorld.execute, PoolWorld.deleteTask, hq] using h

/-- The loop is entered with a positive size. -/
theorem nsize_pos_of_newExecutor {r : PoolReply}
    (h : StartPc.newExecutor.step a w r = some (w', .loop i)) : 0 < a.nsize := by
  cases r with
  | executor x =>
      simp only [StartPc.step] at h
      split at h
      · cases h
      · omega
  | _ => cases h

/-- Only `new` leads to `insert`. -/
theorem ne_insert_of_step {r : PoolReply} {t : ℕ} (hr : beforeShutdown (.start t r) = true)
    (hnew : ∀ p, r ≠ .address p) (hstep : pc.step a w r = some (w', pc')) (i : ℕ) (p : TaskPtr) :
    pc' ≠ .insert i p := by
  rintro rfl
  cases startMove_of_step hr hstep with
  | before _ hpc' _ => cases hpc'
  | new hi hp =>
      cases r with
      | address q => exact hnew q rfl
      | tau =>
          simp only [StartPc.step] at hstep
          split at hstep
          · cases hstep
          · simp at hstep
      | _ => cases hstep

/-- `new` in the loop. -/
theorem loop_address (h : (StartPc.loop i).step a w (.address p) = some (w', pc')) :
    i < slotsOf a ∧ w' = w.newTask p i ∧ pc' = .insert i p := by
  simp only [StartPc.step] at h
  split at h
  · rename_i hi
    simp only [Option.some.injEq, Prod.mk.injEq] at h
    exact ⟨lt_nsize_iff.mp hi.1, h.1.symm, h.2.symm⟩
  · cases h

/-- A step of `StartProcess` that makes no task, while the executor accepts every task. -/
theorem numbered_move {r : PoolReply} {t : ℕ} (h : Numbered a pc given s)
    (hr : beforeShutdown (.start t r) = true) (hnew : ∀ p, r ≠ .address p)
    (hstep : pc.step a s.world r = some (w', pc')) :
    Numbered a pc' given { s with world := w', starts := [⟨a, pc'⟩] } := by
  have hinsert := ne_insert_of_step hr hnew hstep
  have hreturned : ∀ r, pc ≠ .returned r := by
    rintro r' rfl
    cases r <;> cases hstep
  cases startMove_of_step hr hstep with
  | before hpc hpc' hsame =>
      refine h.of_start ?_ ?_ hinsert ?_
      · intro p hp
        rw [hsame.sTask] at hp
        exact .inl hp
      · intro p c hc
        rw [hsame.heap] at hc
        exact hc
      · intro bound hb
        obtain ⟨hzero, hempty, hacc, hafters⟩ := hb.idle hpc hreturned
        exact bounded_of_beforeLoop hpc' hzero (hsame.sTask.trans hempty)
          (hsame.accepted.trans hacc) hafters
  | already hne =>
      obtain ⟨bound, -, hb⟩ := h.ids
      exact absurd hb.2.1 hne
  | newExecutor =>
      refine h.of_start (fun p hp => .inl hp) (fun p c hc => hc) hinsert ?_
      intro bound hb
      exact ⟨hb.1, le_of_lt (nsize_pos_of_newExecutor hstep)⟩
  | new hi hp => exact absurd rfl (hinsert _ _)
  | insert i p =>
      refine h.of_start ?_ (fun p c hc => hc) hinsert (fun bound hb => hb)
      intro r hr
      rcases Finset.mem_insert.mp hr with rfl | hr
      · exact .inr ⟨i, rfl⟩
      · exact .inl hr
  | execute i p =>
      refine h.of_start ?_ (fun r c hc => heap_execute hc) hinsert ?_
      · intro r hr
        rw [execute_sTask] at hr
        exact .inl hr
      · intro bound hb
        obtain ⟨hbound, hle⟩ := hb
        exact ⟨by simpa using hbound, by simpa using hle⟩
  | leave hi =>
      refine h.of_start (fun p hp => .inl hp) (fun p c hc => hc) hinsert ?_
      intro bound hb
      exact le_trans hb.1 hb.2
  | next =>
      refine h.of_start (fun p hp => .inl hp) (fun p c hc => hc) hinsert ?_
      intro bound hb _
      exact hb

/-- `execute` throws, and `StartProcess` returns false. -/
theorem numbered_thrown {o : ExecuteOutcome} (h : Numbered a pc given s) (ho : o ≠ .ok)
    (hstep : pc.step a s.world (.execute o) = some (w', pc')) :
    Numbered a pc' given { s with world := w', starts := [⟨a, pc'⟩] } := by
  cases pc with
  | execute i p =>
      have hw : w' = s.world.execute p o ∧ ∃ msg, pc' = .fail msg := by
        cases o with
        | ok => exact absurd rfl ho
        | nullPointer msg =>
            cases hstep
            exact ⟨rfl, _, rfl⟩
        | rejected msg =>
            cases hstep
            exact ⟨rfl, _, rfl⟩
      obtain ⟨rfl, msg, rfl⟩ := hw
      refine h.of_start ?_ (fun r c hc => heap_execute hc) (fun i p hpc => by cases hpc) ?_
      · intro r hr
        rw [execute_sTask] at hr
        exact .inl hr
      · intro bound _ hr
        cases hr
  | _ => cases hstep

/-- **A step of `StartProcess`.** -/
theorem numbered_start {r : PoolReply} (h : Numbered a pc given s)
    (hstep : pc.step a s.world r = some (w', pc')) :
    Numbered a pc' (given ++ (givenId s (.start 0 r)).toList)
      { s with world := w', starts := [⟨a, pc'⟩] } := by
  cases r with
  | address p =>
      cases pc with
      | loop i =>
          obtain ⟨hi, rfl, rfl⟩ := loop_address hstep
          have hid : givenId s (.start 0 (.address p)) = some (i : ℤ) := by
            simp only [givenId, h.starts, List.getElem?_cons_zero, Option.bind_some]
          rw [hid]
          exact numbered_new h hi
      | _ => cases hstep
  | execute o =>
      have hid : givenId s (.start 0 (.execute o)) = none := rfl
      rw [hid, Option.toList_none, List.append_nil]
      by_cases ho : o = .ok
      · rw [ho] at hstep
        exact numbered_move (t := 0) h (by decide) (by simp) hstep
      · exact numbered_thrown h ho hstep
  | tau | call _ | redelivery _ | executor _ =>
      have hmove := numbered_move (t := 0) h rfl (by simp) hstep
      simpa [givenId] using hmove

/-! ## The steps of `afterExecute` -/

/-- Where there are tasks, the bound is about the loop or the counter. -/
theorem Bounded.of_busy (h : Bounded a bound s pc)
    (hbusy : s.world.accepted ≠ [] ∨ s.afters ≠ [])
    (hnext : s'.world.pool.nextTaskid = s.world.pool.nextTaskid) : Bounded a bound s' pc := by
  cases pc with
  | loop i => exact h
  | insert i p => exact h
  | execute i p => exact h
  | setNext => exact h
  | returned r =>
      intro hr
      rw [hnext]
      exact h hr
  | _ =>
      obtain ⟨-, -, hacc, hafters⟩ := h
      rcases hbusy with hbusy | hbusy
      · exact absurd hacc hbusy
      · exact absurd hafters hbusy

/-- What a step of `afterExecute` that makes no task does. -/
theorem after_quiet {apc apc' : AfterPc} {r : PoolReply} (hnew : ∀ q, r ≠ .address q)
    (h : apc.step p w r = some (w', apc')) :
    (∀ q ∈ w'.pool.sTask, q ∈ w.pool.sTask ∨ apc = .insert q) ∧
      (∀ q c, w'.heap q = some c → w.heap q = some c) ∧
      w'.pool.nextTaskid = w.pool.nextTaskid ∧ ∀ q, apc' ≠ .insert q := by
  cases apc with
  | new =>
      cases r with
      | address q => exact absurd rfl (hnew q)
      | _ => cases h
  | execute q =>
      cases r with
      | execute o =>
          cases h
          refine ⟨?_, fun r c hc => heap_execute hc, ?_, by simp⟩
          · intro r hr
            rw [execute_sTask] at hr
            exact .inl hr
          · rw [execute_nextTaskid]
      | _ => cases h
  | erase =>
      cases r <;> cases h
      refine ⟨?_, fun q c hc => hc, rfl, by simp⟩
      intro q hq
      exact .inl (Finset.mem_of_mem_erase hq)
  | insert q =>
      cases r <;> cases h
      refine ⟨?_, fun q c hc => hc, rfl, by simp⟩
      intro x hx
      rcases Finset.mem_insert.mp hx with rfl | hx
      · exact .inr rfl
      · exact .inl hx
  | delete =>
      cases r <;> cases h
      refine ⟨fun q hq => .inl hq, ?_, rfl, by simp⟩
      intro q c hc
      by_cases hq : q = p
      · simp [PoolWorld.deleteTask, hq] at hc
      · simpa [PoolWorld.deleteTask, hq] using hc
  | testOpen =>
      cases r <;> cases h
      refine ⟨fun q hq => .inl hq, fun q c hc => hc, rfl, ?_⟩
      intro q
      split <;> simp
  | find =>
      cases r <;> cases h
      refine ⟨fun q hq => .inl hq, fun q c hc => hc, rfl, ?_⟩
      intro q
      split <;> simp
  | ended => cases r <;> cases h

/-- The tasks in view after a step of `afterExecute`. -/
theorem inView_after {c : AfterCall} {apc' : AfterPc} (hc : s.afters[j]? = some c)
    (hset : ∀ q ∈ w'.pool.sTask, q ∈ s.world.pool.sTask ∨ c.pc = .insert q)
    (h : InView { s with world := w', afters := s.afters.set j { c with pc := apc' } } p) :
    InView s p ∨ apc' = .insert p := by
  rcases h with hp | hstart | ⟨d, hd, hpc⟩
  · rcases hset p hp with hp | hpc
    · exact .inl (.inl hp)
    · exact .inl (.inr (.inr ⟨c, List.mem_of_getElem? hc, hpc⟩))
  · exact .inl (.inr (.inl hstart))
  · rcases List.mem_or_eq_of_mem_set hd with hd | rfl
    · exact .inl (.inr (.inr ⟨d, hd, hpc⟩))
    · exact .inr hpc

/-- `afterExecute` makes a task, with the counter as its id. -/
theorem numbered_respawn {c : AfterCall} (h : Numbered a (.returned ⟨true, none⟩) given s)
    (hc : s.afters[j]? = some c) :
    Numbered a (.returned ⟨true, none⟩) (given ++ [s.world.pool.nextTaskid])
      { s with
        world := { s.world.newTask q s.world.pool.nextTaskid with
          pool.nextTaskid := s.world.pool.nextTaskid + 1 }
        afters := s.afters.set j { c with pc := .insert q } } := by
  obtain ⟨bound, hids, hb⟩ := h.ids
  refine ⟨h.starts, s.world.pool.nextTaskid + 1, ?_, fun _ => le_refl _⟩
  refine hids.fresh (q := q) (hb rfl) (Int.lt_succ _) ?_
  rintro r id ⟨hview, d, hd, hid⟩
  by_cases hr : r = q
  · left
    have hnew : (s.world.newTask q s.world.pool.nextTaskid).heap r = some d := hd
    simp only [PoolWorld.newTask, hr, if_true, Option.some.injEq] at hnew
    refine ⟨hr, ?_⟩
    rw [← hid, ← hnew]
    rfl
  · right
    have hold : (s.world.newTask q s.world.pool.nextTaskid).heap r = s.world.heap r := if_neg hr
    have hd' : (s.world.newTask q s.world.pool.nextTaskid).heap r = some d := hd
    rcases inView_after hc (fun x hx => .inl hx) hview with hview | hpc
    · exact ⟨hview, d, hold ▸ hd', hid⟩
    · cases hpc
      exact absurd rfl hr

/-- **A step of `afterExecute`.** -/
theorem numbered_after {c : AfterCall} {apc' : AfterPc} {r : PoolReply}
    (h : Numbered a pc given s) (hc : s.afters[j]? = some c)
    (hafter : RespawnsAfterStart s (.after j r))
    (hstep : c.pc.step c.task s.world r = some (w', apc')) :
    Numbered a pc (given ++ (givenId s (.after j r)).toList)
      { s with world := w', afters := s.afters.set j { c with pc := apc' } } := by
  by_cases hnew : ∃ q, r = .address q
  · obtain ⟨q, rfl⟩ := hnew
    obtain rfl : pc = .returned ⟨true, none⟩ := by
      apply hafter ⟨a, pc⟩
      rw [h.starts]
      exact List.mem_cons_self
    have hmade : w' = { s.world.newTask q s.world.pool.nextTaskid with
        pool.nextTaskid := s.world.pool.nextTaskid + 1 } ∧ apc' = .insert q := by
      cases hpc : c.pc with
      | new =>
          rw [hpc] at hstep
          simp only [AfterPc.step] at hstep
          split at hstep
          · simp only [Option.some.injEq, Prod.mk.injEq] at hstep
            exact ⟨hstep.1.symm, hstep.2.symm⟩
          · cases hstep
      | _ =>
          rw [hpc] at hstep
          cases hstep
    obtain ⟨rfl, rfl⟩ := hmade
    exact numbered_respawn h hc
  · have hquiet : ∀ q, r ≠ .address q := fun q hq => hnew ⟨q, hq⟩
    have hid : givenId s (.after j r) = none := by
      cases r with
      | address q => exact absurd rfl (hquiet q)
      | _ => rfl
    rw [hid, Option.toList_none, List.append_nil]
    obtain ⟨hset, hheap, hnext, hinsert⟩ := after_quiet hquiet hstep
    obtain ⟨bound, hids, hb⟩ := h.ids
    refine ⟨h.starts, bound, ?_, ?_⟩
    · apply hids.mono (le_refl bound)
      rintro p id ⟨hview, d, hd, hid⟩
      rcases inView_after hc hset hview with hview | hpc
      · exact ⟨hview, d, hheap p d hd, hid⟩
      · exact absurd hpc (hinsert p)
    · refine hb.of_busy (.inr ?_) hnext
      intro hnil
      rw [hnil] at hc
      cases hc

/-! ## Whole runs -/

/-- **The step lemma.** -/
theorem numbered_step (h : Numbered a pc given s) (hx : ofOneStart x = true)
    (hafter : RespawnsAfterStart s x) (hstep : s.step x = some s') :
    ∃ pc', Numbered a pc' (given ++ (givenId s x).toList) s' := by
  cases x with
  | begin a => cases hx
  | shutdown e => cases hx
  | start t r =>
      simp only [PoolSystem.step, h.starts] at hstep
      cases t with
      | succ t => simp at hstep
      | zero =>
          simp only [List.getElem?_cons_zero] at hstep
          obtain ⟨⟨w', pc'⟩, hpc, rfl⟩ := Option.map_eq_some_iff.mp hstep
          exact ⟨pc', numbered_start h hpc⟩
  | complete e p =>
      obtain ⟨w', hcomplete, rfl⟩ := Option.map_eq_some_iff.mp hstep
      obtain ⟨hp, rfl⟩ := complete_eq_some.mp hcomplete
      obtain ⟨bound, hids, hb⟩ := h.ids
      have hbusy : s.world.accepted ≠ [] := by
        intro hnil
        rw [hnil] at hp
        cases hp
      refine ⟨pc, h.starts, bound, ?_, hb.of_busy (.inl hbusy) rfl⟩
      simp only [givenId, Option.toList_none, List.append_nil]
      apply hids.mono (le_refl bound)
      rintro q id ⟨hview, hid⟩
      refine ⟨?_, hid⟩
      rcases hview with hq | hstart | ⟨c, hc, hpc⟩
      · exact .inl hq
      · exact .inr (.inl hstart)
      · rcases List.mem_append.mp hc with hc | hc
        · exact .inr (.inr ⟨c, hc, hpc⟩)
        · rw [List.mem_singleton.mp hc] at hpc
          cases hpc
  | after j r =>
      obtain ⟨c, w', apc', hc, hpc, rfl⟩ := step_after_eq_some hstep
      exact ⟨pc, numbered_after h hc hafter hpc⟩

/-- **Task ids identify tasks.**  `StartProcess` is called when the set is empty, after any earlier
calls and completions, and runs interleaved with completions and respawns, whatever the library
calls do.  If no `afterExecute` call makes a task before `StartProcess` has returned true, then in
every state reached no id has been given twice since the start, and the tasks in `m_sTask` have
different ids. -/
theorem task_ids_distinct {ops : List PoolOp} {as : List PoolAction}
    (hw : PoolWorld.machine.run .new ops = some w) (hempty : w.pool.sTask = ∅)
    (has : ∀ x ∈ as, ofOneStart x = true)
    (hafter : PoolSystem.machine.Meets RespawnsAfterStart (.init w a) as)
    (hrun : PoolSystem.machine.run (.init w a) as = some s) :
    (PoolSystem.machine.collect givenId (.init w a) as).Nodup ∧
      ∀ p ∈ s.world.pool.sTask, ∀ q ∈ s.world.pool.sTask, ∀ c d,
        s.world.heap p = some c → s.world.heap q = some d → c.nTaskID = d.nTaskID → p = q := by
  obtain ⟨S, hreg⟩ := registered_of_run hw
  have hacc : w.accepted = [] := hreg.accepted_eq_nil hempty
  have hinit : ∃ pc, Numbered a pc [] (.init w a) := by
    refine ⟨.testEmpty, rfl, 0, ?_, le_refl 0, hempty, hacc, rfl⟩
    apply Identified.empty
    rintro p i ⟨hp | ⟨c, hc, k, hpc⟩ | ⟨c, hc, -⟩, -⟩
    · rw [PoolSystem.init, hempty] at hp
      simp at hp
    · rw [List.mem_singleton.mp hc] at hpc
      cases hpc
    · cases hc
  have hmeets := Machine.meets_and
    (Machine.meets_of_forall (P := fun _ x => ofOneStart x = true) _ fun x hx _ => has x hx) hafter
  have hnumbered := Machine.run_inv_collect
    (I := fun given s => ∃ pc, Numbered a pc given s)
    (fun given s x s' h hx hstep => by
      obtain ⟨pc, h⟩ := h
      exact numbered_step h hx.1 hx.2 hstep) hinit hmeets hrun
  obtain ⟨pc, hnumbered⟩ := hnumbered
  obtain ⟨bound, hids, -⟩ := hnumbered.ids
  refine ⟨hids.nodup, ?_⟩
  intro p hp q hq c d hc hd heq
  exact hids.inj p q d.nTaskID ⟨.inl hp, c, hc, heq⟩ ⟨.inl hq, d, hd, rfl⟩

/-- `StartProcess` with two slots, up to the loop. -/
def toLoop : List PoolAction :=
  [.start 0 .tau, .start 0 .tau, .start 0 .tau, .start 0 (.call (.ok ())),
    .start 0 (.redelivery .policy), .start 0 (.call (.ok ())), .start 0 .tau,
    .start 0 (.call (.ok ())), .start 0 .tau, .start 0 (.executor none)]

/-- The first task completes and is erased during the loop, and is replaced after the call has
returned. -/
def replacedAfterStart : List PoolAction :=
  toLoop ++ ([.start 0 (.address 5), .start 0 .tau, .start 0 (.execute .ok), .complete 0 5,
    .after 0 .tau, .after 0 .tau, .after 0 .tau, .start 0 (.address 6), .start 0 .tau,
    .start 0 (.execute .ok), .start 0 .tau, .start 0 .tau, .after 0 (.address 7), .after 0 .tau] :
    List PoolAction)

theorem task_ids_distinct_replaced_after_start :
    PoolSystem.machine.collect givenId
        (.init .new ⟨"broker", "orders", false, true, 3000, 2⟩) replacedAfterStart = [0, 1, 2] ∧
      ∃ s, PoolSystem.machine.run (.init .new ⟨"broker", "orders", false, true, 3000, 2⟩)
          replacedAfterStart = some s ∧ s.world.pool.sTask = {6, 7} ∧
        ∀ p ∈ s.world.pool.sTask, ∀ q ∈ s.world.pool.sTask, ∀ c d,
          s.world.heap p = some c → s.world.heap q = some d → c.nTaskID = d.nTaskID → p = q := by
  refine ⟨by decide +kernel, ?_⟩
  have hrun : (PoolSystem.machine.run (.init .new ⟨"broker", "orders", false, true, 3000, 2⟩)
      replacedAfterStart).map (fun s => s.world.pool.sTask) = some {6, 7} := by
    decide +kernel
  obtain ⟨s, hrun, hset⟩ := Option.map_eq_some_iff.mp hrun
  exact ⟨s, hrun, hset, (task_ids_distinct (PoolWorld.machine.run_nil .new) rfl (by decide)
    (by decide +kernel) hrun).2⟩

/-- Two tasks complete, one after the other, and are replaced while the loop has submitted one of
two. -/
def replacedInLoop : List PoolAction :=
  toLoop ++ ([.start 0 (.address 5), .start 0 .tau, .start 0 (.execute .ok), .complete 0 5,
    .after 0 .tau, .after 0 .tau, .after 0 .tau, .after 0 (.address 6), .after 0 .tau,
    .after 0 (.execute .ok), .complete 0 6, .after 1 .tau, .after 1 .tau, .after 1 .tau,
    .after 1 (.address 7), .after 1 .tau, .start 0 (.address 8), .start 0 .tau] : List PoolAction)

/-- The id 0 has been given twice, and two tasks in the set have the id 1. -/
theorem task_ids_given_twice :
    PoolSystem.machine.collect givenId
        (.init .new ⟨"broker", "orders", false, true, 3000, 2⟩) replacedInLoop = [0, 0, 1, 1] ∧
      ∃ s, PoolSystem.machine.run (.init .new ⟨"broker", "orders", false, true, 3000, 2⟩)
          replacedInLoop = some s ∧ s.world.pool.sTask = {7, 8} ∧
        (s.world.heap 7).map Consumer.nTaskID = some 1 ∧
        (s.world.heap 8).map Consumer.nTaskID = some 1 := by
  refine ⟨by decide +kernel, ?_⟩
  have hrun : (PoolSystem.machine.run (.init .new ⟨"broker", "orders", false, true, 3000, 2⟩)
      replacedInLoop).map (fun s => (s.world.pool.sTask, (s.world.heap 7).map Consumer.nTaskID,
        (s.world.heap 8).map Consumer.nTaskID)) = some ({7, 8}, some 1, some 1) := by
    decide +kernel
  obtain ⟨s, hrun, hs⟩ := Option.map_eq_some_iff.mp hrun
  simp only [Prod.mk.injEq] at hs
  exact ⟨s, hrun, hs⟩

end DsAmq.Analysis
