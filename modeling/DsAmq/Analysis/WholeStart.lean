import Mathlib.Logic.Function.Basic
import DsAmq.Library.WholeCall
import DsAmq.Model.PoolSystem

/-!
# `StartProcess`, statement by statement and as a whole

A call of `StartProcess` whose statements are not interleaved with others does exactly what
`PoolWorld.startProcess` says, for some outcomes of its library calls, and all outcomes can be met
(`startProcess_alone_iff`).
-/

set_option autoImplicit false

namespace DsAmq.Analysis

open DsAmq.Model DsAmq.Library PoolWorld

/-- The statements of one `StartProcess` call. -/
def startMachine (a : StartArgs) : Machine (PoolWorld × StartPc) PoolReply :=
  ⟨fun s r => s.2.step a s.1 r⟩

/-! ## The rest of the call -/

/-- `m_next_taskid = nsize` after a loop that has submitted all tasks. -/
def afterLoop (a : StartArgs) : Option (StartResult × PoolWorld) → Option (StartResult × PoolWorld)
  | some (⟨true, e⟩, w) => some (⟨true, e⟩, { w with pool.nextTaskid := a.nsize })
  | r => r

/-- The rest of the call from the head of the loop on. -/
def fromLoop (a : StartArgs) (o : StartOutcomes) (i : ℕ) (w : PoolWorld) :
    Option (StartResult × PoolWorld) :=
  afterLoop a (submit o i (a.nsize.toNat - i) w)

/-- The rest of the call from `execute` of the `i`-th task on. -/
def fromExecute (a : StartArgs) (o : StartOutcomes) (i : ℕ) (p : TaskPtr) (w : PoolWorld) :
    Option (StartResult × PoolWorld) :=
  match o.execute i with
  | .ok => fromLoop a o (i + 1) (w.execute p .ok)
  | .nullPointer msg =>
      some (⟨false, some ("NullPointerException exception, " ++ msg)⟩,
        w.execute p (.nullPointer msg))
  | .rejected msg =>
      some (⟨false, some ("RejectedExecutionException exception, " ++ msg)⟩,
        w.execute p (.rejected msg))

/-- The rest of the call from the constructor of the executor on. -/
def fromNewExecutor (a : StartArgs) (o : StartOutcomes) (w : PoolWorld) :
    Option (StartResult × PoolWorld) :=
  match illegalArgument a.nsize o with
  | some msg => some (⟨false, some ("Illegalargument exception, " ++ msg)⟩, w)
  | none => fromLoop a o 0 w.newExecutor

/-- The rest of the call from `addConnection` on. -/
def fromAdd (a : StartArgs) (o : StartOutcomes) (w : PoolWorld) :
    Option (StartResult × PoolWorld) :=
  match o.addConnection with
  | .cms msg => some (⟨false, some ("exception, " ++ msg)⟩, w)
  | .ok _ => fromNewExecutor a o w.addConnection.resetSessionpool

/-- The rest of the call from `start` on. -/
def fromConnectionStart (a : StartArgs) (o : StartOutcomes) (w : PoolWorld) :
    Option (StartResult × PoolWorld) :=
  match o.start with
  | .cms msg => some (⟨false, some ("exception, " ++ msg)⟩, w)
  | .ok _ => fromAdd a o w.newResourcemgr

/-- The rest of the call from the redelivery policy on. -/
def fromRedelivery (a : StartArgs) (o : StartOutcomes) (w : PoolWorld) :
    Option (StartResult × PoolWorld) :=
  if o.redelivery = .nullPolicy then
    some (⟨false, some "fail to StartProcess, get redelivery policy object null"⟩, w)
  else fromConnectionStart a o w

/-- The rest of the call from `createConnection` on. -/
def fromCreate (a : StartArgs) (o : StartOutcomes) (w : PoolWorld) :
    Option (StartResult × PoolWorld) :=
  match o.createConnection with
  | .cms msg => some (⟨false, some ("exception, " ++ msg)⟩, w)
  | .ok _ => fromRedelivery a o w.createConnection

/-- The rest of the call from the test of the URIs on. -/
def fromTestURI (a : StartArgs) (o : StartOutcomes) (w : PoolWorld) :
    Option (StartResult × PoolWorld) :=
  if a.brokerURI.isEmpty || a.destURI.isEmpty then
    some (⟨false, some "fail to StartProcess, broker URI or destination URI empty"⟩, w)
  else fromCreate a o (w.setMembers a)

/-- What the call returns and leaves behind, from any of its statements on. -/
def startRest (a : StartArgs) (o : StartOutcomes) (s : PoolWorld × StartPc) :
    Option (StartResult × PoolWorld) :=
  match s.2 with
  | .testEmpty => s.1.startProcess a o
  | .testURI => fromTestURI a o s.1
  | .setMembers => fromCreate a o (s.1.setMembers a)
  | .createConnection => fromCreate a o s.1
  | .redelivery => fromRedelivery a o s.1
  | .start => fromConnectionStart a o s.1
  | .newResourcemgr => fromAdd a o s.1.newResourcemgr
  | .addConnection => fromAdd a o s.1
  | .resetSessionpool => fromNewExecutor a o s.1.resetSessionpool
  | .newExecutor => fromNewExecutor a o s.1
  | .loop i => fromLoop a o i s.1
  | .insert i p => fromExecute a o i p (s.1.insertTask p)
  | .execute i p => fromExecute a o i p s.1
  | .setNext => some (⟨true, none⟩, { s.1 with pool.nextTaskid := a.nsize })
  | .returned r => some (r, s.1)

/-- The statements that can be left, at most. -/
def startSize (a : StartArgs) : StartPc → ℕ
  | .testEmpty => 3 * a.nsize.toNat + 12
  | .testURI => 3 * a.nsize.toNat + 11
  | .setMembers => 3 * a.nsize.toNat + 10
  | .createConnection => 3 * a.nsize.toNat + 9
  | .redelivery => 3 * a.nsize.toNat + 8
  | .start => 3 * a.nsize.toNat + 7
  | .newResourcemgr => 3 * a.nsize.toNat + 6
  | .addConnection => 3 * a.nsize.toNat + 5
  | .resetSessionpool => 3 * a.nsize.toNat + 4
  | .newExecutor => 3 * a.nsize.toNat + 3
  | .loop i => 3 * (a.nsize.toNat - i) + 2
  | .insert i _ => 3 * (a.nsize.toNat - (i + 1)) + 4
  | .execute i _ => 3 * (a.nsize.toNat - (i + 1)) + 3
  | .setNext => 1
  | .returned _ => 0

variable {a : StartArgs} {o o' : StartOutcomes} {w w' : PoolWorld} {i k : ℕ}

theorem startProcess_of_empty (hempty : w.pool.sTask = ∅) :
    w.startProcess a o = fromTestURI a o w := by
  unfold startProcess
  rw [if_neg (not_not.mpr hempty)]
  rfl

/-- The loop at an iteration that is still to be done. -/
theorem fromLoop_of_lt (hi : i < a.nsize.toNat) (hp : (w.heap (o.address i)).isSome = false) :
    fromLoop a o i w = fromExecute a o i (o.address i)
      ((w.newTask (o.address i) i).insertTask (o.address i)) := by
  obtain ⟨k, hk⟩ : ∃ k, a.nsize.toNat - i = k + 1 := ⟨a.nsize.toNat - i - 1, by omega⟩
  have hk' : a.nsize.toNat - (i + 1) = k := by omega
  unfold fromLoop fromExecute
  rw [hk, submit, if_neg (by simp [hp])]
  cases hx : o.execute i with
  | ok =>
      simp only
      unfold fromLoop
      rw [hk']
  | nullPointer msg => rfl
  | rejected msg => rfl

/-- The loop after its last iteration. -/
theorem fromLoop_of_le (hi : a.nsize.toNat ≤ i) :
    fromLoop a o i w = some (⟨true, none⟩, { w with pool.nextTaskid := a.nsize }) := by
  unfold fromLoop
  rw [Nat.sub_eq_zero_of_le hi]
  rfl

/-- The loop looks at the outcomes of the tasks it still has to submit. -/
theorem submit_congr (ha : ∀ j, i ≤ j → o.address j = o'.address j)
    (hx : ∀ j, i ≤ j → o.execute j = o'.execute j) : submit o i k w = submit o' i k w := by
  induction k generalizing i w with
  | zero => rfl
  | succ k ih =>
      have hrest : ∀ w, submit o (i + 1) k w = submit o' (i + 1) k w := fun w =>
        ih (fun j hj => ha j (by omega)) (fun j hj => hx j (by omega))
      unfold submit
      rw [ha i (le_refl i), hx i (le_refl i)]
      simp only [hrest]

/-! ## The steps -/

/-- What the statement learns when the library calls end as `o` says. -/
def startReply (a : StartArgs) (o : StartOutcomes) : StartPc → PoolReply
  | .createConnection => .call o.createConnection
  | .redelivery => .redelivery o.redelivery
  | .start => .call o.start
  | .addConnection => .call o.addConnection
  | .newExecutor => .executor o.newExecutor
  | .loop i => if (i : ℤ) < a.nsize then .address (o.address i) else .tau
  | .execute i _ => .execute (o.execute i)
  | _ => .tau

/-- The address that `new` is to return next is not in use. -/
def Free (a : StartArgs) (o : StartOutcomes) (w : PoolWorld) (pc : StartPc) : Prop :=
  ∀ i : ℕ, pc = .loop i → (i : ℤ) < a.nsize → (w.heap (o.address i)).isSome = false

/-- With no address for the next task there is no rest of the call. -/
theorem free_of_startRest {pc : StartPc} (h : startRest a o (w, pc) ≠ none) : Free a o w pc := by
  rintro i rfl hi
  by_contra hp
  rw [Bool.not_eq_false] at hp
  obtain ⟨k, hk⟩ : ∃ k, a.nsize.toNat - i = k + 1 := ⟨a.nsize.toNat - i - 1, by omega⟩
  apply h
  simp only [startRest, fromLoop]
  rw [hk, submit, if_pos hp]
  rfl

/-- With no address for the next task there is no step. -/
theorem free_of_step {pc : StartPc} {s : PoolWorld × StartPc}
    (h : pc.step a w (startReply a o pc) = some s) : Free a o w pc := by
  rintro i rfl hi
  simp only [StartPc.step, startReply, hi, if_true, true_and, Option.ite_none_right_eq_some] at h
  simpa using h.1

/-- The step that the outcomes `o` prescribe is possible, and the rest of the call is the same
after it. -/
theorem start_advance (a : StartArgs) (o : StartOutcomes) (w : PoolWorld) {pc : StartPc}
    (hpc : ∀ r, pc ≠ .returned r) (hfree : Free a o w pc) :
    ∃ w' pc', pc.step a w (startReply a o pc) = some (w', pc') ∧
      startRest a o (w', pc') = startRest a o (w, pc) ∧ startSize a pc' < startSize a pc := by
  cases pc with
  | testEmpty =>
      by_cases hempty : w.pool.sTask = ∅
      · exact ⟨w, .testURI, by simp [StartPc.step, startReply, hempty],
          (startProcess_of_empty hempty).symm, by simp [startSize]⟩
      · exact ⟨w, .returned ⟨true, none⟩, by simp [StartPc.step, startReply, hempty],
          by simp [startRest, startProcess, hempty], by simp [startSize]⟩
  | testURI =>
      by_cases huri : (a.brokerURI.isEmpty || a.destURI.isEmpty) = true
      · exact ⟨w, .fail _, by simp only [StartPc.step, startReply, huri, if_true]; rfl,
          by simp only [startRest, StartPc.fail, fromTestURI, huri, if_true],
          by simp [startSize, StartPc.fail]⟩
      · exact ⟨w, .setMembers, by simp only [StartPc.step, startReply, huri]; rfl,
          by simp only [startRest, fromTestURI, huri]; rfl, by simp [startSize]⟩
  | createConnection =>
      cases ho : o.createConnection with
      | ok u =>
          exact ⟨w.createConnection, .redelivery, by simp only [StartPc.step, startReply, ho],
            by simp [startRest, fromCreate, ho], by simp [startSize]⟩
      | cms msg =>
          exact ⟨w, .fail ("exception, " ++ msg), by simp only [StartPc.step, startReply, ho],
            by simp [startRest, fromCreate, ho, StartPc.fail], by simp [startSize, StartPc.fail]⟩
  | redelivery =>
      by_cases hpol : o.redelivery = .nullPolicy
      · exact ⟨w, .fail "fail to StartProcess, get redelivery policy object null",
          by simp only [StartPc.step, startReply, hpol, if_true],
          by simp [startRest, fromRedelivery, hpol, StartPc.fail],
          by simp [startSize, StartPc.fail]⟩
      · exact ⟨w, .start, by simp only [StartPc.step, startReply, hpol, if_false],
          by simp [startRest, fromRedelivery, hpol], by simp [startSize]⟩
  | start =>
      cases ho : o.start with
      | ok u =>
          exact ⟨w, .newResourcemgr, by simp only [StartPc.step, startReply, ho],
            by simp [startRest, fromConnectionStart, ho], by simp [startSize]⟩
      | cms msg =>
          exact ⟨w, .fail ("exception, " ++ msg), by simp only [StartPc.step, startReply, ho],
            by simp [startRest, fromConnectionStart, ho, StartPc.fail],
            by simp [startSize, StartPc.fail]⟩
  | addConnection =>
      cases ho : o.addConnection with
      | ok u =>
          exact ⟨w.addConnection, .resetSessionpool, by simp only [StartPc.step, startReply, ho],
            by simp [startRest, fromAdd, ho], by simp [startSize]⟩
      | cms msg =>
          exact ⟨w, .fail ("exception, " ++ msg), by simp only [StartPc.step, startReply, ho],
            by simp [startRest, fromAdd, ho, StartPc.fail], by simp [startSize, StartPc.fail]⟩
  | newExecutor =>
      by_cases hsize : a.nsize ≤ 0
      · exact ⟨w, .fail ("Illegalargument exception, " ++ o.newExecutor.getD ""),
          by simp only [StartPc.step, startReply, hsize, if_true],
          by simp [startRest, fromNewExecutor, illegalArgument, hsize, StartPc.fail],
          by simp [startSize, StartPc.fail]⟩
      · cases ho : o.newExecutor with
        | some msg =>
            exact ⟨w, .fail ("Illegalargument exception, " ++ msg),
              by simp only [StartPc.step, startReply, hsize, if_false, ho],
              by simp [startRest, fromNewExecutor, illegalArgument, hsize, ho, StartPc.fail],
              by simp [startSize, StartPc.fail]⟩
        | none =>
            exact ⟨w.newExecutor, .loop 0,
              by simp only [StartPc.step, startReply, hsize, if_false, ho],
              by simp [startRest, fromNewExecutor, illegalArgument, hsize, ho],
              by simp [startSize]⟩
  | loop i =>
      by_cases hi : (i : ℤ) < a.nsize
      · have hlt : i < a.nsize.toNat := by omega
        have hp : (w.heap (o.address i)).isSome = false := hfree i rfl hi
        have hnone : (w.heap (o.address i)).isNone = true := by simpa using hp
        refine ⟨w.newTask (o.address i) i, .insert i (o.address i),
          by simp only [StartPc.step, startReply, hi, hnone, and_self, if_true], ?_, ?_⟩
        · exact (fromLoop_of_lt hlt hp).symm
        · show 3 * (a.nsize.toNat - (i + 1)) + 4 < 3 * (a.nsize.toNat - i) + 2
          omega
      · refine ⟨w, .setNext, by simp only [StartPc.step, startReply, hi, if_false], ?_, ?_⟩
        · exact (fromLoop_of_le (by omega)).symm
        · show 1 < 3 * (a.nsize.toNat - i) + 2
          omega
  | execute i p =>
      cases ho : o.execute i with
      | ok =>
          refine ⟨w.execute p .ok, .loop (i + 1), by simp only [StartPc.step, startReply, ho],
            by simp [startRest, fromExecute, ho], ?_⟩
          show 3 * (a.nsize.toNat - (i + 1)) + 2 < 3 * (a.nsize.toNat - (i + 1)) + 3
          omega
      | nullPointer msg =>
          exact ⟨w.execute p (.nullPointer msg), .fail ("NullPointerException exception, " ++ msg),
            by simp only [StartPc.step, startReply, ho],
            by simp [startRest, fromExecute, ho, StartPc.fail], by simp [startSize, StartPc.fail]⟩
      | rejected msg =>
          exact ⟨w.execute p (.rejected msg),
            .fail ("RejectedExecutionException exception, " ++ msg),
            by simp only [StartPc.step, startReply, ho],
            by simp [startRest, fromExecute, ho, StartPc.fail], by simp [startSize, StartPc.fail]⟩
  | returned r => exact absurd rfl (hpc r)
  | _ => exact ⟨_, _, rfl, rfl, by simp [startSize]⟩

/-- The outcomes `o`, with what the statement has learned in its place. -/
def foreseeStart (o : StartOutcomes) : StartPc → PoolReply → StartOutcomes
  | .createConnection, .call x => { o with createConnection := x }
  | .redelivery, .redelivery x => { o with redelivery := x }
  | .start, .call x => { o with start := x }
  | .addConnection, .call x => { o with addConnection := x }
  | .newExecutor, .executor x => { o with newExecutor := x }
  | .loop i, .address p => { o with address := Function.update o.address i p }
  | .execute i _, .execute x => { o with execute := Function.update o.execute i x }
  | _, _ => o

/-- The loop looks at nothing but the outcomes of the tasks it still has to submit. -/
theorem fromLoop_congr (ha : ∀ j, i ≤ j → o.address j = o'.address j)
    (hx : ∀ j, i ≤ j → o.execute j = o'.execute j) : fromLoop a o i w = fromLoop a o' i w := by
  unfold fromLoop
  rw [submit_congr ha hx]

/-- What is learned elsewhere does not concern the loop. -/
theorem fromLoop_foreseeStart {pc : StartPc} {r : PoolReply} (hloop : ∀ i, pc ≠ .loop i)
    (hexec : ∀ i p, pc ≠ .execute i p) :
    fromLoop a (foreseeStart o pc r) i w = fromLoop a o i w := by
  have haddr : (foreseeStart o pc r).address = o.address := by
    unfold foreseeStart
    split <;> simp_all
  have hx : (foreseeStart o pc r).execute = o.execute := by
    unfold foreseeStart
    split <;> simp_all
  apply fromLoop_congr
  · intro j _
    rw [haddr]
  · intro j _
    rw [hx]

/-- What the statement has learned is what the foreseen outcomes prescribe, and the statements
after it do not look at it again. -/
theorem foreseeStart_spec {pc pc' : StartPc} {r : PoolReply}
    (h : pc.step a w r = some (w', pc')) :
    startReply a (foreseeStart o pc r) pc = r ∧
      startRest a (foreseeStart o pc r) (w', pc') = startRest a o (w', pc') := by
  have hloop : (∀ i, pc ≠ .loop i) → (∀ i p, pc ≠ .execute i p) → ∀ i w,
      fromLoop a (foreseeStart o pc r) i w = fromLoop a o i w :=
    fun h₁ h₂ _ _ => fromLoop_foreseeStart h₁ h₂
  cases pc with
  | createConnection | start | addConnection =>
      cases r with
      | call x =>
          refine ⟨rfl, ?_⟩
          cases x <;> cases h
          · simp only [startRest, fromRedelivery, fromConnectionStart, fromAdd, fromNewExecutor,
              hloop (by simp) (by simp)]
            rfl
          · rfl
      | _ => cases h
  | redelivery =>
      cases r with
      | redelivery x =>
          refine ⟨rfl, ?_⟩
          by_cases hx : x = .nullPolicy
          · subst hx
            cases h
            rfl
          · simp only [StartPc.step, hx, if_false, Option.some.injEq, Prod.mk.injEq] at h
            obtain ⟨rfl, rfl⟩ := h
            simp only [startRest, fromConnectionStart, fromAdd, fromNewExecutor,
              hloop (by simp) (by simp)]
            rfl
      | _ => cases h
  | newExecutor =>
      cases r with
      | executor x =>
          refine ⟨rfl, ?_⟩
          simp only [StartPc.step] at h
          split at h
          · cases h
            rfl
          · cases x <;> cases h
            · exact fromLoop_congr (fun _ _ => rfl) fun _ _ => rfl
            · rfl
      | _ => cases h
  | loop i =>
      cases r with
      | tau =>
          simp only [StartPc.step] at h
          by_cases hi : (i : ℤ) < a.nsize
          · rw [if_pos hi] at h
            cases h
          · exact ⟨if_neg hi, rfl⟩
      | address p =>
          simp only [StartPc.step] at h
          by_cases hi : (i : ℤ) < a.nsize ∧ (w.heap p).isNone = true
          · rw [if_pos hi] at h
            cases h
            have hloop : ∀ w, fromLoop a (foreseeStart o (.loop i) (.address p)) (i + 1) w =
                fromLoop a o (i + 1) w := by
              intro w
              refine fromLoop_congr (fun j hj => ?_) fun j hj => rfl
              exact Function.update_of_ne (show j ≠ i by omega) p o.address
            constructor
            · simp only [startReply, foreseeStart, if_pos hi.1, Function.update_self]
            · simp only [startRest, fromExecute, hloop]
              rfl
          · rw [if_neg hi] at h
            cases h
      | _ => cases h
  | execute i p =>
      cases r with
      | execute x =>
          refine ⟨by simp only [startReply, foreseeStart, Function.update_self], ?_⟩
          cases x with
          | ok =>
              cases h
              refine fromLoop_congr (fun j hj => rfl) fun j hj => ?_
              exact Function.update_of_ne (show j ≠ i by omega) _ o.execute
          | nullPointer msg =>
              cases h
              rfl
          | rejected msg =>
              cases h
              rfl
      | _ => cases h
  | _ =>
      cases r with
      | tau => exact ⟨rfl, rfl⟩
      | _ => cases h

/-- In the system, a call that is alone takes the steps of the machine of the call. -/
theorem run_start {pc : StartPc} (cs : List AfterCall) (rs : List PoolReply) :
    PoolSystem.machine.run ⟨w, [⟨a, pc⟩], cs⟩ (rs.map (.start 0)) =
      ((startMachine a).run (w, pc) rs).map fun s => ⟨s.1, [⟨a, s.2⟩], cs⟩ := by
  induction rs generalizing w pc with
  | nil => rfl
  | cons r rs ih =>
      rw [List.map_cons, Machine.run_cons, Machine.run_cons]
      cases hstep : pc.step a w r with
      | none => simp [PoolSystem.machine, PoolSystem.step, startMachine, hstep]
      | some s =>
          have hsys : PoolSystem.machine.step ⟨w, [⟨a, pc⟩], cs⟩ (.start 0 r) =
              some ⟨s.1, [⟨a, s.2⟩], cs⟩ := by
            simp [PoolSystem.machine, PoolSystem.step, hstep]
          have hmachine : (startMachine a).step (w, pc) r = some s := hstep
          rw [hsys, hmachine, Option.bind_some, Option.bind_some]
          exact ih

/-- **`StartProcess` alone.**  A call whose statements are not interleaved with others can return
`r` and leave `w'` behind exactly when the whole call does so for some outcomes of its library
calls. -/
theorem startProcess_alone_iff {r : StartResult} :
    (∃ rs : List PoolReply, PoolSystem.machine.run (.init w a) (rs.map (.start 0)) =
        some ⟨w', [⟨a, .returned r⟩], []⟩) ↔
      ∃ o, w.startProcess a o = some (r, w') := by
  have hrun : ∀ rs : List PoolReply, PoolSystem.machine.run (.init w a) (rs.map (.start 0)) =
      some ⟨w', [⟨a, .returned r⟩], []⟩ ↔
      (startMachine a).run (w, .testEmpty) rs = some (w', .returned r) := by
    intro rs
    unfold PoolSystem.init
    rw [run_start, Option.map_eq_some_iff]
    constructor
    · rintro ⟨⟨w₁, pc⟩, hrun, heq⟩
      cases heq
      exact hrun
    · intro hrun
      exact ⟨_, hrun, rfl⟩
  simp only [hrun]
  constructor
  · rintro ⟨rs, hrun⟩
    refine Machine.exists_outcome_of_run (startRest a) ?_ hrun
      ⟨.ok (), .policy, .ok (), .ok (), none, id, fun _ => .ok⟩
    rintro ⟨w, pc⟩ r ⟨w', pc'⟩ hstep o'
    refine ⟨foreseeStart o' pc r, ?_⟩
    obtain ⟨hreply, hrest⟩ := foreseeStart_spec (o := o') hstep
    have hpc : ∀ r, pc ≠ .returned r := by
      rintro r' rfl
      cases r <;> cases hstep
    have hstep' : pc.step a w (startReply a (foreseeStart o' pc r) pc) = some (w', pc') := by
      rw [hreply]
      exact hstep
    obtain ⟨w₁, pc₁, hstep₁, hsame, -⟩ :=
      start_advance a (foreseeStart o' pc r) w hpc (free_of_step hstep')
    have heq : (w₁, pc₁) = (w', pc') := Option.some.inj (hstep₁.symm.trans hstep')
    rw [heq] at hsame
    exact hsame.symm.trans hrest
  · rintro ⟨o, ho⟩
    have hstep : ∀ s : PoolWorld × StartPc, ¬ (∃ r, s.2 = .returned r) → startRest a o s ≠ none →
        ∃ r s', (startMachine a).step s r = some s' ∧ startRest a o s' = startRest a o s ∧
          startSize a s'.2 < startSize a s.2 := by
      intro s hfinal hrest
      obtain ⟨w₁, pc₁, hstep, hsame, hsize⟩ := start_advance a o s.1 (not_exists.mp hfinal)
        (free_of_startRest hrest)
      exact ⟨_, (w₁, pc₁), hstep, hsame, hsize⟩
    have hgood : startRest a o (w, .testEmpty) ≠ none := by
      show w.startProcess a o ≠ none
      simp [ho]
    obtain ⟨rs, ⟨w₁, pc⟩, hrun, ⟨r', rfl⟩, hrest⟩ :=
      Machine.exists_run_of_outcome (startRest a o) (· ≠ none) _ _ hstep (w, .testEmpty) hgood
    have heq : some (r', w₁) = some (r, w') := hrest.trans ho
    cases heq
    exact ⟨rs, hrun⟩

end DsAmq.Analysis
