import DsAmq.Analysis.PoolCalls
import DsAmq.Library.Threads
import DsAmq.Model.PoolSystem

/-!
# The consumer pool keeps its size

While the executor is not shut down and accepts every task, at every point where no `afterExecute`
call is in progress and `StartProcess` is not between `insert` and `execute`, `m_sTask` is exactly
the set of the tasks handed to the executor and not yet completed, and has as many elements as the
loop has done iterations (`pool_keeps_size`).

The invariant is `Filled`.  Each call has hold of some tasks, in the set (`startIn`, `afterIn`) or
outside it (`startOut`, `afterOut`), and the tasks of all calls together with those of the executor
are accounted for by `Registered`; every `afterExecute` call in progress stands for one task, so
that the slots can be counted (`Staffed`).
-/

set_option autoImplicit false

namespace DsAmq.Analysis

open DsAmq.Model DsAmq.Library

/-! ## What the calls have hold of -/

/-- The task that `StartProcess` has inserted and not yet handed over. -/
def startIn : StartPc → List TaskPtr
  | .execute _ p => [p]
  | _ => []

/-- The task that `StartProcess` has made and not yet inserted. -/
def startOut : StartPc → List TaskPtr
  | .insert _ p => [p]
  | _ => []

/-- The task of an `afterExecute` call that is in the set: the completed one before it is erased,
then the new one. -/
def afterIn (c : AfterCall) : List TaskPtr :=
  match c.pc with
  | .testOpen | .find | .erase => [c.task]
  | .execute q => [q]
  | _ => []

/-- The tasks of an `afterExecute` call that are not in the set. -/
def afterOut (c : AfterCall) : List TaskPtr :=
  match c.pc with
  | .new | .execute _ | .delete => [c.task]
  | .insert q => [q, c.task]
  | _ => []

/-- The `afterExecute` call has not returned. -/
def inProgress (c : AfterCall) : Bool :=
  match c.pc with
  | .delete | .ended => false
  | _ => true

/-- `StartProcess` has not come to the loop, or has failed before it. -/
def beforeLoop : StartPc → Bool
  | .loop _ | .insert _ _ | .execute _ _ | .setNext => false
  | .returned r => !r.result
  | _ => true

/-- The iterations that the loop has done. -/
def iterations (a : StartArgs) : StartPc → ℕ
  | .loop i | .insert i _ | .execute i _ => i
  | .setNext => slotsOf a
  | .returned r => if r.result then slotsOf a else 0
  | _ => 0

/-- The loop counter is in its range. -/
def InRange (a : StartArgs) : StartPc → Prop
  | .loop i => i ≤ slotsOf a
  | .insert i _ | .execute i _ => i < slotsOf a
  | _ => True

/-- No other `StartProcess` call begins, the executor is not shut down, and it accepts every
task. -/
def beforeShutdown : PoolAction → Bool
  | .start _ (.execute x) | .after _ (.execute x) => decide (x = .ok)
  | .begin _ | .shutdown _ => false
  | _ => true

variable {a : StartArgs} {w w' : PoolWorld} {pc pc' : StartPc} {p q : TaskPtr} {i j : ℕ}
  {s s' : PoolSystem} {c : AfterCall} {S : Finset TaskPtr}

theorem startIn_of_beforeLoop (h : beforeLoop pc = true) : startIn pc = [] := by
  cases pc <;> simp_all [beforeLoop, startIn]

theorem startOut_of_beforeLoop (h : beforeLoop pc = true) : startOut pc = [] := by
  cases pc <;> simp_all [beforeLoop, startOut]

theorem iterations_of_beforeLoop (h : beforeLoop pc = true) : iterations a pc = 0 := by
  cases pc <;> simp_all [beforeLoop, iterations]

theorem inRange_of_beforeLoop (h : beforeLoop pc = true) : InRange a pc := by
  cases pc <;> simp_all [beforeLoop, InRange]

/-! ## The steps of `StartProcess` -/

/-- What a step of `StartProcess` can do while the executor accepts every task. -/
inductive StartMove (a : StartArgs) (w : PoolWorld) : StartPc → PoolWorld → StartPc → Prop
  | before {pc pc' : StartPc} {w' : PoolWorld} (hpc : beforeLoop pc = true)
      (hpc' : beforeLoop pc' = true) (hsame : SameTasks w w') : StartMove a w pc w' pc'
  | already (hne : w.pool.sTask ≠ ∅) : StartMove a w .testEmpty w (.returned ⟨true, none⟩)
  | newExecutor : StartMove a w .newExecutor w.newExecutor (.loop 0)
  | new {i : ℕ} {p : TaskPtr} (hi : i < slotsOf a) (hp : ¬ Live w p) :
      StartMove a w (.loop i) (w.newTask p i) (.insert i p)
  | insert (i : ℕ) (p : TaskPtr) : StartMove a w (.insert i p) (w.insertTask p) (.execute i p)
  | execute (i : ℕ) (p : TaskPtr) :
      StartMove a w (.execute i p) (w.execute p .ok) (.loop (i + 1))
  | leave {i : ℕ} (hi : slotsOf a ≤ i) : StartMove a w (.loop i) w .setNext
  | next : StartMove a w .setNext { w with pool.nextTaskid := a.nsize } (.returned ⟨true, none⟩)

theorem lt_nsize_iff : (i : ℤ) < a.nsize ↔ i < slotsOf a := by
  rw [← toNat_nsize]
  omega

/-- **The step of `StartProcess`.** -/
theorem startMove_of_step {r : PoolReply} {t : ℕ} (hr : beforeShutdown (.start t r) = true)
    (hstep : pc.step a w r = some (w', pc')) : StartMove a w pc w' pc' := by
  -- at each statement one kind of reply is possible
  cases pc with
  | testEmpty =>
      cases r <;> simp only [StartPc.step, Option.some.injEq, Prod.mk.injEq, reduceCtorEq] at hstep
      obtain ⟨rfl, rfl⟩ := hstep
      by_cases hne : w.pool.sTask ≠ ∅
      · rw [if_pos hne]
        exact .already hne
      · rw [if_neg hne]
        exact .before rfl rfl (.refl w)
  | testURI =>
      cases r <;> simp only [StartPc.step, Option.some.injEq, Prod.mk.injEq, reduceCtorEq] at hstep
      obtain ⟨rfl, rfl⟩ := hstep
      split <;> exact .before rfl rfl (.refl w)
  | setMembers =>
      cases r <;> simp only [StartPc.step, Option.some.injEq, Prod.mk.injEq, reduceCtorEq] at hstep
      obtain ⟨rfl, rfl⟩ := hstep
      exact .before rfl rfl (sameTasks_setMembers a)
  | createConnection =>
      cases r with
      | call x =>
          cases x <;> simp only [StartPc.step, Option.some.injEq, Prod.mk.injEq] at hstep <;>
            obtain ⟨rfl, rfl⟩ := hstep
          · exact .before rfl rfl sameTasks_createConnection
          · exact .before rfl rfl (.refl w)
      | _ => cases hstep
  | redelivery =>
      cases r <;> simp only [StartPc.step, Option.some.injEq, Prod.mk.injEq, reduceCtorEq] at hstep
      obtain ⟨rfl, rfl⟩ := hstep
      split <;> exact .before rfl rfl (.refl w)
  | start =>
      cases r with
      | call x =>
          cases x <;> simp only [StartPc.step, Option.some.injEq, Prod.mk.injEq] at hstep <;>
            obtain ⟨rfl, rfl⟩ := hstep <;> exact .before rfl rfl (.refl w)
      | _ => cases hstep
  | newResourcemgr =>
      cases r <;> simp only [StartPc.step, Option.some.injEq, Prod.mk.injEq, reduceCtorEq] at hstep
      obtain ⟨rfl, rfl⟩ := hstep
      exact .before rfl rfl sameTasks_newResourcemgr
  | addConnection =>
      cases r with
      | call x =>
          cases x <;> simp only [StartPc.step, Option.some.injEq, Prod.mk.injEq] at hstep <;>
            obtain ⟨rfl, rfl⟩ := hstep
          · exact .before rfl rfl sameTasks_addConnection
          · exact .before rfl rfl (.refl w)
      | _ => cases hstep
  | resetSessionpool =>
      cases r <;> simp only [StartPc.step, Option.some.injEq, Prod.mk.injEq, reduceCtorEq] at hstep
      obtain ⟨rfl, rfl⟩ := hstep
      exact .before rfl rfl sameTasks_resetSessionpool
  | newExecutor =>
      cases r with
      | executor x =>
          simp only [StartPc.step] at hstep
          by_cases hsize : a.nsize ≤ 0
          · rw [if_pos hsize] at hstep
            cases hstep
            exact .before rfl rfl (.refl w)
          · rw [if_neg hsize] at hstep
            cases x with
            | some msg =>
                cases hstep
                exact .before rfl rfl (.refl w)
            | none =>
                cases hstep
                exact .newExecutor
      | _ => cases hstep
  | loop i =>
      cases r with
      | tau =>
          simp only [StartPc.step] at hstep
          by_cases hi : (i : ℤ) < a.nsize
          · rw [if_pos hi] at hstep
            cases hstep
          · rw [if_neg hi] at hstep
            cases hstep
            rw [lt_nsize_iff] at hi
            exact .leave (by omega)
      | address p =>
          simp only [StartPc.step] at hstep
          by_cases hi : (i : ℤ) < a.nsize ∧ (w.heap p).isNone = true
          · rw [if_pos hi] at hstep
            cases hstep
            refine .new (lt_nsize_iff.mp hi.1) ?_
            simpa [Live] using hi.2
          · rw [if_neg hi] at hstep
            cases hstep
      | _ => cases hstep
  | insert i p =>
      cases r <;> simp only [StartPc.step, Option.some.injEq, Prod.mk.injEq, reduceCtorEq] at hstep
      obtain ⟨rfl, rfl⟩ := hstep
      exact .insert i p
  | execute i p =>
      cases r with
      | execute x =>
          obtain rfl : x = .ok := by simpa [beforeShutdown] using hr
          cases hstep
          exact .execute i p
      | _ => cases hstep
  | setNext =>
      cases r <;> simp only [StartPc.step, Option.some.injEq, Prod.mk.injEq, reduceCtorEq] at hstep
      obtain ⟨rfl, rfl⟩ := hstep
      exact .next
  | returned r' => cases r <;> cases hstep

/-! ## The steps of `afterExecute` -/

/-- What a step of `afterExecute`, for the task at `p`, can do while the executor accepts every
task. -/
inductive AfterMove (p : TaskPtr) (w : PoolWorld) : AfterPc → PoolWorld → AfterPc → Prop
  | opened : AfterMove p w .testOpen w .find
  | closed (hopen : w.isOpen = false) : AfterMove p w .testOpen w .delete
  | found : AfterMove p w .find w .erase
  | missing (hp : p ∉ w.pool.sTask) : AfterMove p w .find w .delete
  | erase : AfterMove p w .erase (w.eraseTask p) .new
  | new {q : TaskPtr} {id : ℤ} {w' : PoolWorld} (hq : ¬ Live w q)
      (hsame : SameTasks (w.newTask q id) w') : AfterMove p w .new w' (.insert q)
  | insert (q : TaskPtr) : AfterMove p w (.insert q) (w.insertTask q) (.execute q)
  | execute (q : TaskPtr) : AfterMove p w (.execute q) (w.execute q .ok) .delete
  | delete : AfterMove p w .delete (w.deleteTask p) .ended

/-- **The step of `afterExecute`.** -/
theorem afterMove_of_step {apc apc' : AfterPc} {r : PoolReply} {t : ℕ}
    (hr : beforeShutdown (.after t r) = true) (hstep : apc.step p w r = some (w', apc')) :
    AfterMove p w apc w' apc' := by
  cases apc with
  | testOpen =>
      cases r <;> simp only [AfterPc.step, Option.some.injEq, Prod.mk.injEq, reduceCtorEq] at hstep
      obtain ⟨rfl, rfl⟩ := hstep
      cases hopen : w.isOpen with
      | false => exact .closed hopen
      | true => exact .opened
  | find =>
      cases r <;> simp only [AfterPc.step, Option.some.injEq, Prod.mk.injEq, reduceCtorEq] at hstep
      obtain ⟨rfl, rfl⟩ := hstep
      by_cases hp : p ∈ w.pool.sTask
      · rw [if_pos hp]
        exact .found
      · rw [if_neg hp]
        exact .missing hp
  | erase =>
      cases r <;> simp only [AfterPc.step, Option.some.injEq, Prod.mk.injEq, reduceCtorEq] at hstep
      obtain ⟨rfl, rfl⟩ := hstep
      exact .erase
  | new =>
      cases r with
      | address q =>
          simp only [AfterPc.step] at hstep
          by_cases hq : (w.heap q).isNone = true
          · rw [if_pos hq] at hstep
            cases hstep
            refine .new ?_ (sameTasks_setNext _)
            simpa [Live] using hq
          · rw [if_neg hq] at hstep
            cases hstep
      | _ => cases hstep
  | insert q =>
      cases r <;> simp only [AfterPc.step, Option.some.injEq, Prod.mk.injEq, reduceCtorEq] at hstep
      obtain ⟨rfl, rfl⟩ := hstep
      exact .insert q
  | execute q =>
      cases r with
      | execute x =>
          obtain rfl : x = .ok := by simpa [beforeShutdown] using hr
          cases hstep
          exact .execute q
      | _ => cases hstep
  | delete =>
      cases r <;> simp only [AfterPc.step, Option.some.injEq, Prod.mk.injEq, reduceCtorEq] at hstep
      obtain ⟨rfl, rfl⟩ := hstep
      exact .delete
  | ended => cases r <;> cases hstep

/-! ## The workers -/

/-- The account of a pool of `n` slots on whose tasks `afterExecute` calls are at work: besides
those of the executor and of these calls there are the tasks `ins` and `out`, and each of the slots
has its task at the executor or at a call in progress. -/
structure Staffed (n : ℕ) (ins out : List TaskPtr) (w : PoolWorld) (afters : List AfterCall) :
    Prop where
  registered : Registered w w.pool.sTask (ins ++ afters.flatMap afterIn)
    (out ++ afters.flatMap afterOut)
  count : w.accepted.length + afters.countP inProgress = n
  isOpen : 0 < n → Open w

/-- The tasks of one `afterExecute` call, and those of all others. -/
theorem exists_split_after (ins out : List TaskPtr) {cs : List AfterCall}
    (hc : cs[j]? = some c) :
    ∃ restIn restOut,
      (∀ w S, Registered w S (ins ++ cs.flatMap afterIn) (out ++ cs.flatMap afterOut) →
        Registered w S (afterIn c ++ restIn) (afterOut c ++ restOut)) ∧
      ∀ w S c', Registered w S (afterIn c' ++ restIn) (afterOut c' ++ restOut) →
        Registered w S (ins ++ (cs.set j c').flatMap afterIn)
          (out ++ (cs.set j c').flatMap afterOut) := by
  obtain ⟨restIn, hin, hsetIn⟩ := Threads.exists_flatMap_set_perm afterIn hc
  obtain ⟨restOut, hout, hsetOut⟩ := Threads.exists_flatMap_set_perm afterOut hc
  have hswap : ∀ l₁ l₂ l₃ : List TaskPtr, (l₁ ++ (l₂ ++ l₃)).Perm (l₂ ++ (l₁ ++ l₃)) := by
    intro l₁ l₂ l₃
    rw [← List.append_assoc, ← List.append_assoc]
    exact List.perm_append_comm.append_right l₃
  refine ⟨ins ++ restIn, out ++ restOut, ?_, ?_⟩
  · intro w S h
    exact h.perm ((hin.append_left _).trans (hswap _ _ _))
      ((hout.append_left _).trans (hswap _ _ _))
  · intro w S c' h
    exact h.perm ((hswap _ _ _).trans ((hsetIn c').symm.append_left _))
      ((hswap _ _ _).trans ((hsetOut c').symm.append_left _))

namespace Staffed

variable {n : ℕ} {ins out : List TaskPtr} {cs : List AfterCall}

/-- An `afterExecute` call is in progress only in a pool that has slots. -/
theorem open_of_inProgress (h : Staffed n ins out w cs) (hc : cs[j]? = some c)
    (hin : inProgress c = true) : Open w := by
  apply h.isOpen
  have hpos : 0 < cs.countP inProgress :=
    List.countP_pos_iff.mpr ⟨c, List.mem_of_getElem? hc, hin⟩
  have hcount := h.count
  omega

/-- A step of an `afterExecute` call keeps the account if it accounts for the tasks, and if the
call and the executor together have as many as before. -/
theorem of_after {c' : AfterCall} (h : Staffed n ins out w cs) (hc : cs[j]? = some c)
    (hreg : Registered w' w'.pool.sTask (ins ++ (cs.set j c').flatMap afterIn)
      (out ++ (cs.set j c').flatMap afterOut))
    (hlen : w'.accepted.length + (inProgress c').toNat = w.accepted.length + (inProgress c).toNat)
    (he : w'.pool.threadPool = w.pool.threadPool) (hx : w'.executors = w.executors) :
    Staffed n ins out w' (cs.set j c') := by
  refine ⟨hreg, ?_, fun hn => (h.isOpen hn).of_eq he hx⟩
  have hcount := h.count
  have hcountP := Threads.countP_set_add (b := c') inProgress hc
  omega

/-- A step of an `afterExecute` call. -/
theorem after {apc' : AfterPc} (h : Staffed n ins out w cs) (hc : cs[j]? = some c)
    (hmove : AfterMove c.task w c.pc w' apc') :
    Staffed n ins out w' (cs.set j { c with pc := apc' }) := by
  obtain ⟨restIn, restOut, hget, hset⟩ := exists_split_after ins out hc
  have hreg := hget _ _ h.registered
  have hopen := h.open_of_inProgress hc
  obtain ⟨p, apc⟩ := c
  cases hmove with
  | opened => exact h.of_after hc (hset _ _ _ hreg) rfl rfl rfl
  | closed hclosed =>
      rw [(hopen rfl).isOpen] at hclosed
      cases hclosed
  | found => exact h.of_after hc (hset _ _ _ hreg) rfl rfl rfl
  | missing hp => exact absurd ((hreg.tracked.mem p).mpr List.mem_cons_self) hp
  | erase => exact h.of_after hc (hset _ _ _ hreg.eraseTask) rfl rfl rfl
  | @new q id w' hq hsame =>
      have hnew := (hreg.newTask hq id).sameTasks hsame
      refine h.of_after hc (hset _ _ ⟨p, .insert q⟩ ?_) ?_ hsame.threadPool hsame.executors
      · rw [hsame.sTask]
        exact hnew
      · rw [hsame.accepted]
        rfl
  | insert q => exact h.of_after hc (hset _ _ _ hreg.insertTask) rfl rfl rfl
  | execute q =>
      obtain ⟨e, he, -⟩ := hopen rfl
      refine h.of_after hc (hset _ _ ⟨p, .delete⟩ ?_) ?_ (execute_threadPool .ok)
        (execute_executors .ok)
      · rw [execute_sTask]
        exact hreg.execute_ok he
      · rw [execute_accepted_ok he, List.length_append]
        rfl
  | delete => exact h.of_after hc (hset _ _ _ hreg.deleteTask) rfl rfl rfl

/-- A task completes. -/
theorem complete {e : ExecutorId} (h : Staffed n ins out w cs) (hp : (e, p) ∈ w.accepted) :
    Staffed n ins out (completed w e p) (cs ++ [⟨p, .testOpen⟩]) := by
  refine ⟨?_, ?_, fun hn => (h.isOpen hn).of_eq rfl rfl⟩
  · refine (h.registered.complete hp).perm ?_ ?_
    · rw [List.flatMap_append, ← List.append_assoc]
      exact (List.perm_append_singleton p _).symm
    · simp [List.flatMap_append, afterOut]
  · have hlen : (w.accepted.erase (e, p)).length + 1 = w.accepted.length :=
      List.length_erase_add_one hp
    have hcount := h.count
    have hone : [(⟨p, .testOpen⟩ : AfterCall)].countP inProgress = 1 := rfl
    show (w.accepted.erase (e, p)).length +
      (cs ++ [(⟨p, .testOpen⟩ : AfterCall)]).countP inProgress = n
    rw [List.countP_append, hone]
    omega

end Staffed

/-- A step of an `afterExecute` call keeps the executor. -/
theorem AfterMove.sameExecutor {apc apc' : AfterPc} (h : AfterMove p w apc w' apc') :
    w'.pool.threadPool = w.pool.threadPool ∧ w'.executors = w.executors := by
  cases h with
  | new hq hsame => exact ⟨hsame.threadPool, hsame.executors⟩
  | execute q => exact ⟨execute_threadPool .ok, execute_executors .ok⟩
  | opened | closed | found | missing | erase | insert | delete => exact ⟨rfl, rfl⟩

/-! ## The invariant -/

/-- `StartProcess` is at `pc`; the tasks of all calls and of the executor are accounted for, and
every iteration of the loop has given one task to the executor or to a call in progress. -/
structure Filled (a : StartArgs) (pc : StartPc) (s : PoolSystem) : Prop where
  starts : s.starts = [⟨a, pc⟩]
  registered : Registered s.world s.world.pool.sTask (startIn pc ++ s.afters.flatMap afterIn)
    (startOut pc ++ s.afters.flatMap afterOut)
  count : s.world.accepted.length + s.afters.countP inProgress = iterations a pc
  inRange : InRange a pc
  isOpen : beforeLoop pc = false → Open s.world

/-- A call that is not in progress has no task in the set. -/
theorem afterIn_of_not_inProgress (h : inProgress c = false) : afterIn c = [] := by
  unfold inProgress at h
  unfold afterIn
  split at h <;> simp_all

/-- Where no call is in progress, the set holds the accepted tasks. -/
theorem Filled.registered_quiet (h : Filled a pc s) (hin : startIn pc = [])
    (hquiet : ∀ c ∈ s.afters, inProgress c = false) :
    Registered s.world s.world.pool.sTask [] (startOut pc ++ s.afters.flatMap afterOut) := by
  have hnil : s.afters.flatMap afterIn = [] := by
    rw [List.flatMap_eq_nil_iff]
    intro c hc
    exact afterIn_of_not_inProgress (hquiet c hc)
  have hreg := h.registered
  rw [hin, hnil] at hreg
  exact hreg

/-- Before the loop there are no tasks. -/
theorem Filled.idle (h : Filled a pc s) (hpc : beforeLoop pc = true) :
    s.world.accepted = [] ∧ s.world.pool.sTask = ∅ := by
  have hcount := h.count
  rw [iterations_of_beforeLoop hpc] at hcount
  have hacc : s.world.accepted = [] := List.length_eq_zero_iff.mp (by omega)
  have hzero : s.afters.countP inProgress = 0 := by omega
  refine ⟨hacc, ?_⟩
  have hquiet : ∀ c ∈ s.afters, inProgress c = false := by
    intro c hc
    rw [← Bool.not_eq_true]
    exact List.countP_eq_zero.mp hzero c hc
  have hcard := (h.registered_quiet (startIn_of_beforeLoop hpc) hquiet).tracked.card_eq
  rw [hacc] at hcard
  exact Finset.card_eq_zero.mp hcard

/-- An iteration is done when `execute` has returned. -/
theorem iterations_of_move (h : Filled a pc s) (hmove : StartMove a s.world pc w' pc') :
    iterations a pc' = iterations a pc + (startIn pc).length := by
  cases hmove with
  | before hpc hpc' hsame =>
      rw [iterations_of_beforeLoop hpc, iterations_of_beforeLoop hpc', startIn_of_beforeLoop hpc]
      rfl
  | already hne => exact absurd (h.idle rfl).2 hne
  | leave hi => exact le_antisymm hi h.inRange
  | newExecutor | new | insert | execute | next => rfl

/-- A step of `StartProcess`. -/
theorem filled_start (h : Filled a pc s) (hmove : StartMove a s.world pc w' pc') :
    Filled a pc' { s with world := w', starts := [⟨a, pc'⟩] } := by
  have hreg := h.registered
  have hcount := h.count
  have hiter := iterations_of_move h hmove
  cases hmove with
  | before hpc hpc' hsame =>
      refine ⟨rfl, ?_, ?_, inRange_of_beforeLoop hpc', fun hno => ?_⟩
      · rw [startIn_of_beforeLoop hpc, startOut_of_beforeLoop hpc] at hreg
        rw [startIn_of_beforeLoop hpc', startOut_of_beforeLoop hpc', hsame.sTask]
        exact hreg.sameTasks hsame
      · rw [startIn_of_beforeLoop hpc] at hiter
        rw [hiter, hsame.accepted]
        exact hcount
      · rw [hpc'] at hno
        cases hno
  | already hne => exact absurd (h.idle rfl).2 hne
  | newExecutor =>
      exact ⟨rfl, hreg.newExecutor (h.idle rfl).1, hcount, Nat.zero_le _,
        fun _ => open_newExecutor⟩
  | @new i p hi hp =>
      exact ⟨rfl, hreg.newTask hp i, hcount, hi, fun _ => (h.isOpen rfl).of_eq rfl rfl⟩
  | insert i p =>
      exact ⟨rfl, hreg.insertTask, hcount, h.inRange, fun _ => (h.isOpen rfl).of_eq rfl rfl⟩
  | execute i p =>
      have hopen := h.isOpen rfl
      obtain ⟨e, he, -⟩ := hopen
      refine ⟨rfl, ?_, ?_, h.inRange, fun _ => ?_⟩
      · rw [execute_sTask]
        exact hreg.execute_ok he
      · rw [hiter, ← hcount, execute_accepted_ok he, List.length_append]
        exact Nat.add_right_comm _ _ _
      · exact (h.isOpen rfl).of_eq (execute_threadPool .ok) (execute_executors .ok)
  | leave hi => exact ⟨rfl, hreg, hcount.trans hiter.symm, trivial, fun _ => h.isOpen rfl⟩
  | next =>
      exact ⟨rfl, hreg.sameTasks (sameTasks_setNext _), hcount, trivial,
        fun _ => (h.isOpen rfl).of_eq rfl rfl⟩

/-- The account without the position of `StartProcess`. -/
theorem Filled.staffed (h : Filled a pc s) :
    Staffed (iterations a pc) (startIn pc) (startOut pc) s.world s.afters := by
  refine ⟨h.registered, h.count, ?_⟩
  intro hn
  apply h.isOpen
  by_contra hpc
  rw [Bool.not_eq_false] at hpc
  rw [iterations_of_beforeLoop hpc] at hn
  omega

/-- What happens beside `StartProcess` keeps the invariant. -/
theorem Filled.of_staffed {afters : List AfterCall} (h : Filled a pc s)
    (hs : Staffed (iterations a pc) (startIn pc) (startOut pc) w' afters)
    (he : w'.pool.threadPool = s.world.pool.threadPool)
    (hx : w'.executors = s.world.executors) :
    Filled a pc { s with world := w', afters := afters } :=
  ⟨h.starts, hs.registered, hs.count, h.inRange, fun hpc => (h.isOpen hpc).of_eq he hx⟩

/-- A step of an `afterExecute` call. -/
theorem filled_after {apc' : AfterPc} (h : Filled a pc s) (hc : s.afters[j]? = some c)
    (hmove : AfterMove c.task s.world c.pc w' apc') :
    Filled a pc { s with world := w', afters := s.afters.set j { c with pc := apc' } } :=
  h.of_staffed (h.staffed.after hc hmove) hmove.sameExecutor.1 hmove.sameExecutor.2

/-- A task completes. -/
theorem filled_complete {e : ExecutorId} (h : Filled a pc s) (hp : (e, p) ∈ s.world.accepted) :
    Filled a pc { s with
      world := completed s.world e p
      afters := s.afters ++ [⟨p, .testOpen⟩] } :=
  h.of_staffed (h.staffed.complete hp) rfl rfl

/-! ## Whole runs -/

/-- The iterations of the loop that a run has done: the `execute` calls of `StartProcess` that
have returned. -/
def submissions (as : List PoolAction) : ℕ := as.count (.start 0 (.execute .ok))

/-- `StartProcess` is at `execute` exactly when it learns how `execute` ended. -/
theorem length_startIn_of_step {r : PoolReply} {t : ℕ}
    (hr : beforeShutdown (.start t r) = true) (hstep : pc.step a w r = some (w', pc')) :
    (startIn pc).length = submissions [.start 0 r] := by
  cases r with
  | execute x =>
      obtain rfl : x = .ok := by simpa [beforeShutdown] using hr
      cases pc with
      | execute i p => rfl
      | _ => cases hstep
  | _ =>
      cases pc with
      | execute i p => cases hstep
      | _ => rfl

/-- A step of an `afterExecute` call is a statement of one of the calls that run. -/
theorem step_after_eq_some {j : ℕ} {r : PoolReply} (hstep : s.step (.after j r) = some s') :
    ∃ c w' pc', s.afters[j]? = some c ∧ c.pc.step c.task s.world r = some (w', pc') ∧
      s' = { s with world := w', afters := s.afters.set j { c with pc := pc' } } := by
  simp only [PoolSystem.step] at hstep
  cases hc : s.afters[j]? with
  | none => simp [hc] at hstep
  | some c =>
      simp only [hc] at hstep
      obtain ⟨⟨w', pc'⟩, hpc, rfl⟩ := Option.map_eq_some_iff.mp hstep
      exact ⟨c, w', pc', rfl, hpc, rfl⟩

/-- **The step lemma.** -/
theorem filled_step {act : PoolAction} {as : List PoolAction} (h : Filled a pc s)
    (hiter : iterations a pc = submissions as) (hact : beforeShutdown act = true)
    (hstep : s.step act = some s') :
    ∃ pc', Filled a pc' s' ∧ iterations a pc' = submissions (as ++ [act]) := by
  have hsub : submissions (as ++ [act]) = submissions as + submissions [act] :=
    List.count_append
  cases act with
  | begin a => cases hact
  | shutdown e => cases hact
  | start t r =>
      simp only [PoolSystem.step, h.starts] at hstep
      cases t with
      | succ t => simp at hstep
      | zero =>
          simp only [List.getElem?_cons_zero] at hstep
          obtain ⟨⟨w', pc'⟩, hpc, rfl⟩ := Option.map_eq_some_iff.mp hstep
          have hmove := startMove_of_step hact hpc
          refine ⟨pc', filled_start h hmove, ?_⟩
          rw [iterations_of_move h hmove, hsub, hiter, length_startIn_of_step hact hpc]
  | complete e p =>
      obtain ⟨w', hcomplete, rfl⟩ := Option.map_eq_some_iff.mp hstep
      obtain ⟨hp, rfl⟩ := complete_eq_some.mp hcomplete
      exact ⟨pc, filled_complete h hp, by rw [hsub, hiter]; rfl⟩
  | after j r =>
      obtain ⟨c, w', apc', hc, hpc, rfl⟩ := step_after_eq_some hstep
      have hmove := afterMove_of_step hact hpc
      exact ⟨pc, filled_after h hc hmove, by rw [hsub, hiter]; rfl⟩

/-- The invariant holds in every state that the calls reach. -/
theorem filled_of_run {ops : List PoolOp} {as : List PoolAction}
    (hw : PoolWorld.machine.run .new ops = some w) (hempty : w.pool.sTask = ∅)
    (has : ∀ x ∈ as, beforeShutdown x = true)
    (hrun : PoolSystem.machine.run (.init w a) as = some s) :
    ∃ pc, Filled a pc s ∧ iterations a pc = submissions as := by
  obtain ⟨S, hreg⟩ := registered_of_run hw
  have hacc : w.accepted = [] := hreg.accepted_eq_nil hempty
  have hinit : Filled a .testEmpty (.init w a) := by
    refine ⟨rfl, registered_of_idle hempty hacc, ?_, trivial, by simp [beforeLoop]⟩
    simp [PoolSystem.init, hacc, iterations]
  have hmeets : PoolSystem.machine.Meets (fun _ x => beforeShutdown x = true) (.init w a) as :=
    Machine.meets_of_forall _ fun x hx _ => has x hx
  refine Machine.run_inv_history
    (I := fun as s => ∃ pc, Filled a pc s ∧ iterations a pc = submissions as) ?_
    ⟨.testEmpty, hinit, rfl⟩ hmeets hrun
  intro as s x s' h hx hstep
  obtain ⟨pc, hfilled, hiter⟩ := h
  exact filled_step hfilled hiter hx hstep

/-- **The consumer pool keeps its size.**  `StartProcess` is called when the set is empty, after
any earlier calls and completions, and runs interleaved with completions of the tasks it has
submitted, before and after its return; until `shutdown` the executor accepts every task.  In
every state reached in which no `afterExecute` call is in progress and `StartProcess` is not
between `insert` and `execute`, the set is that of the tasks handed to the executor and not
completed; its size is the number of iterations done, and `min(nPoolSize, 50)` once the call has
returned true. -/
theorem pool_keeps_size {ops : List PoolOp} {as : List PoolAction}
    (hw : PoolWorld.machine.run .new ops = some w) (hempty : w.pool.sTask = ∅)
    (has : ∀ x ∈ as, beforeShutdown x = true)
    (hrun : PoolSystem.machine.run (.init w a) as = some s) :
    ∃ pc, s.starts = [⟨a, pc⟩] ∧
      ((∀ c ∈ s.afters, inProgress c = false) → (∀ i p, pc ≠ .execute i p) →
        (∀ p, p ∈ s.world.pool.sTask ↔ ∃ e, (e, p) ∈ s.world.accepted) ∧
        s.world.pool.sTask.card = submissions as ∧
        ∀ r, pc = .returned r → r.result = true →
          s.world.pool.sTask.card = min a.nPoolSize.toNat 50) := by
  obtain ⟨pc, h, hiter⟩ := filled_of_run hw hempty has hrun
  refine ⟨pc, h.starts, ?_⟩
  intro hquiet hpc
  have hin : startIn pc = [] := by
    cases pc with
    | execute i p => exact absurd rfl (hpc i p)
    | _ => rfl
  have hreg := h.registered_quiet hin hquiet
  have hcard : s.world.pool.sTask.card = iterations a pc := by
    have hzero : s.afters.countP inProgress = 0 := by
      rw [List.countP_eq_zero]
      intro c hc
      rw [hquiet c hc]
      exact Bool.false_ne_true
    have hcount := h.count
    rw [hreg.tracked.card_eq, List.nil_append, List.length_map]
    omega
  refine ⟨?_, hcard.trans hiter, ?_⟩
  · intro p
    rw [hreg.tracked.mem, List.nil_append, List.mem_map]
    constructor
    · rintro ⟨x, hx, rfl⟩
      exact ⟨x.1, hx⟩
    · rintro ⟨e, he⟩
      exact ⟨(e, p), he, rfl⟩
  · rintro r rfl hr
    rw [hcard]
    exact if_pos hr

/-- Two tasks are submitted; the first completes, and is replaced, before the second one is
inserted. -/
def replacedWhileStarting : List PoolAction :=
  [.start 0 .tau, .start 0 .tau, .start 0 .tau, .start 0 (.call (.ok ())),
    .start 0 (.redelivery .policy), .start 0 (.call (.ok ())), .start 0 .tau,
    .start 0 (.call (.ok ())), .start 0 .tau, .start 0 (.executor none),
    .start 0 (.address 5), .start 0 .tau, .start 0 (.execute .ok),
    .start 0 (.address 6), .complete 0 5, .after 0 .tau, .after 0 .tau, .after 0 .tau,
    .start 0 .tau, .after 0 (.address 7), .after 0 .tau, .start 0 (.execute .ok),
    .after 0 (.execute .ok), .start 0 .tau, .start 0 .tau]

theorem pool_keeps_size_replaced_while_starting :
    ∃ s, PoolSystem.machine.run (.init .new ⟨"broker", "orders", false, true, 3000, 2⟩)
        replacedWhileStarting = some s ∧
      s.world.pool.sTask.card = 2 ∧
      ∀ p, p ∈ s.world.pool.sTask ↔ ∃ e, (e, p) ∈ s.world.accepted := by
  have hcalls : (PoolSystem.machine.run (.init .new ⟨"broker", "orders", false, true, 3000, 2⟩)
      replacedWhileStarting).map (fun s => (s.starts.map StartCall.pc, s.afters)) =
      some ([.returned ⟨true, none⟩], [⟨5, .delete⟩]) := by
    decide +kernel
  obtain ⟨s, hrun, hs⟩ := Option.map_eq_some_iff.mp hcalls
  simp only [Prod.mk.injEq] at hs
  obtain ⟨hstarts, hafters⟩ := hs
  obtain ⟨pc, hpc, hsize⟩ := pool_keeps_size (PoolWorld.machine.run_nil .new) rfl (by decide) hrun
  rw [hpc] at hstarts
  obtain rfl : pc = .returned ⟨true, none⟩ := by simpa using hstarts
  obtain ⟨hmem, -, hcard⟩ := hsize (by simp [hafters, inProgress]) (by simp)
  exact ⟨s, hrun, hcard _ rfl rfl, hmem⟩

end DsAmq.Analysis
