import DsAmq.Analysis.ExclusiveUse

/-!
# `sendmessage` gives its session and its slot back

A call that has taken a session calls `close` on it exactly once, on every path.  The slot is given
back after that: when the `close` that follows the send throws, the exception leaves `sendmessage`
and `FreePoolItem` is not reached.  So a call gives its slot back exactly when that `close` returns,
and the slots that are lost are counted by the `close` calls that threw
(`sendmessage_gives_back_iff`).
-/

set_option autoImplicit false

namespace DsAmq.Analysis

open DsAmq.Model DsAmq.Library

/-- A call of `session->close()`: by which `sendmessage` call and on which session, whether it is
the one after the send, with the slot still taken, or the one after a pool overflow, and whether it
throws. -/
structure CloseCall where
  call : ℕ
  session : Option SessionId
  holding : Bool
  threw : Bool
deriving DecidableEq, Repr

/-- The call of `close` that a step of the call `t` makes.
SOURCE: DSAMQProducerPoolMgr.cpp:273, DSAMQProducerPoolMgr.cpp:286 -/
def Call.closeCall (t : ℕ) (c : Call) : Reply → Option CloseCall
  | .call o =>
      match c.pc with
      | .closeOverflow => some ⟨t, c.session, false, o.throws⟩
      | .close => some ⟨t, c.session, true, o.throws⟩
      | _ => none
  | _ => none

/-- The call of `close` that an action makes. -/
def closeCall (s : SendSystem) : SendAction → Option CloseCall
  | .act t r => s.calls[t]?.bind fun c => Call.closeCall t c r
  | .begin _ => none

/-- The `close` calls that the call `t` has made. -/
def closesOf (t : ℕ) (c : Call) : List CloseCall :=
  match c.pc with
  | .lockFree | .freePoolItem | .unlockFree => [⟨t, c.session, true, false⟩]
  | .ended (.returned _) => c.session.toList.map fun x => ⟨t, some x, c.producer.isSome, false⟩
  | .ended (.threw _) => [⟨t, c.session, c.producer.isSome, true⟩]
  | _ => []

/-- Where a call has a session, and where it still has its producer at hand. -/
def Sessioned (c : Call) : Prop :=
  match c.pc with
  | .unlockFree => c.session.isSome = true ∧ c.producer.isSome = true
  | .isCreated | .testStarted | .lockConnect | .connect _ | .takeSession => c.session = none
  | .ended .nullSessionPool => c.session = none ∧ c.producer = none
  | .ended (.returned _) => c.session = none → c.producer = none
  | .ended (.fault _) => False
  | _ => c.session.isSome = true

/-- The call has ended without giving its slot back. -/
def leaked (c : Call) : Bool :=
  match c.pc with
  | .ended (.threw _) => c.producer.isSome
  | _ => false

/-- The `close` call threw with the slot still taken. -/
def CloseCall.leaks (e : CloseCall) : Bool := e.holding && e.threw

variable {n t : ℕ} {d : Destination} {g g' : Shared} {c c' : Call} {r : Reply}
  {s s' : SendSystem} {out : List CloseCall}

/-! ## The steps of a call -/

/-- `close` after the send. -/
theorem close_step (hpc : c.pc = .close) (h : c.step t g r = some (g', c')) :
    ∃ o, r = .call o ∧ ((o.throws = false ∧ c' = c.goto .lockFree) ∨
      (o.throws = true ∧ ∃ msg, c' = c.goto (.ended (.threw msg)))) := by
  unfold Call.step at h
  cases r with
  | call o =>
      simp only [hpc] at h
      cases o with
      | ok u =>
          cases h
          exact ⟨_, rfl, .inl ⟨rfl, rfl⟩⟩
      | cms msg =>
          cases h
          exact ⟨_, rfl, .inr ⟨rfl, msg, rfl⟩⟩
  | _ =>
      simp only [hpc] at h
      cases h

/-- `close` after a pool overflow. -/
theorem closeOverflow_step (hpc : c.pc = .closeOverflow) (h : c.step t g r = some (g', c')) :
    ∃ o, r = .call o ∧ ((o.throws = false ∧ c' = c.goto (.ended (.returned false))) ∨
      (o.throws = true ∧ ∃ msg, c' = c.goto (.ended (.threw msg)))) := by
  unfold Call.step at h
  cases r with
  | call o =>
      simp only [hpc] at h
      cases o with
      | ok u =>
          cases h
          exact ⟨_, rfl, .inl ⟨rfl, rfl⟩⟩
      | cms msg =>
          cases h
          exact ⟨_, rfl, .inr ⟨rfl, msg, rfl⟩⟩
  | _ =>
      simp only [hpc] at h
      cases h

/-- No operation of the pool faults. -/
theorem Move.no_fault (h : Move t g c g' c') (e : Fault) : c'.pc ≠ .ended (.fault e) := by
  cases h with
  | before hpc hpc' =>
      intro heq
      rcases hpc' with hpc' | hpc' | hpc'
      · rw [heq] at hpc'
        exact hpc'
      · rw [heq] at hpc'
        cases hpc'
      · rw [heq] at hpc'
        cases hpc'
  | create | producer | sent | free | unlockFree => simp [Call.goto]
  | unlockCreate =>
      dsimp only [Call.goto]
      split <;> simp
  | overflow hpc hpc' =>
      rcases hpc' with rfl | ⟨msg, rfl⟩
      · simp [Call.goto]
      · simp [Call.goto]
  | closing hpc hpc' =>
      rcases hpc' with rfl | rfl | ⟨msg, rfl⟩
      · simp [Call.goto]
      · simp [Call.goto]
      · simp [Call.goto]

/-- What `takeSession` gives. -/
theorem take_session {o : Outcome (Option SessionId)} (h : c.take g o = some (g', c')) :
    c'.producer = c.producer ∧ ((c'.pc = .lockCreate ∧ c'.session.isSome = true) ∨
      (c'.pc = .ended (.returned false) ∧ c'.session = c.session)) := by
  unfold Call.take at h
  split at h
  · split at h
    · cases h
    · cases h
      exact ⟨rfl, .inl ⟨rfl, rfl⟩⟩
  · cases h
    exact ⟨rfl, .inr ⟨rfl, rfl⟩⟩
  · cases h
    exact ⟨rfl, .inr ⟨rfl, rfl⟩⟩

/-- **A step that is not a `close`**: the call has its session from `takeSession` on, and closes
nothing. -/
theorem quiet_step (hcall : CallStep t g c r g' c') (hclose : c.pc ≠ .close)
    (hoverflow : c.pc ≠ .closeOverflow) (hfault : ∀ e, c'.pc ≠ .ended (.fault e))
    (hplaced : Placed c) (hs : Sessioned c) :
    Sessioned c' ∧ closesOf t c' = closesOf t c ∧ leaked c' = false := by
  cases hcall with
  | created hpc =>
      simp only [Sessioned, hpc] at hs
      simp [Sessioned, closesOf, leaked, Call.goto, hpc, hs]
  | notCreated hpc =>
      simp only [Sessioned, hpc] at hs
      simp only [Placed, hpc] at hplaced
      simp [Sessioned, closesOf, leaked, Call.goto, hpc, hs, hplaced]
  | readFlag hpc =>
      simp only [Sessioned, hpc] at hs
      cases hstarted : g.world.mgr.bStartedConnection <;>
        simp [Sessioned, closesOf, leaked, Call.goto, hpc, hs]
  | @lock pc' hpc hfree =>
      generalize hc : c.pc = pc at hpc
      cases hpc with
      | connect =>
          simp only [Sessioned, hc] at hs
          simp [Sessioned, closesOf, leaked, Call.goto, hc, hs]
      | create =>
          simp only [Sessioned, hc] at hs
          simp [Sessioned, closesOf, leaked, Call.goto, hc, hs]
      | free =>
          simp only [Sessioned, hc] at hs
          simp [Sessioned, closesOf, leaked, Call.goto, hc, hs]
  | connect hpc hstep =>
      simp only [Sessioned, hpc] at hs
      simp [Sessioned, closesOf, leaked, Call.goto, hpc, hs]
  | @connected b hpc =>
      simp only [Sessioned, hpc] at hs
      simp only [Placed, hpc] at hplaced
      cases b <;> simp [Sessioned, closesOf, leaked, Call.goto, hpc, hs, hplaced]
  | nullSessionPool hpc hnull =>
      simp only [Sessioned, hpc] at hs
      simp only [Placed, hpc] at hplaced
      simp [Sessioned, closesOf, leaked, Call.goto, hpc, hs, hplaced]
  | take hpc htake =>
      simp only [Sessioned, hpc] at hs
      simp only [Placed, hpc] at hplaced
      obtain ⟨hproducer, ⟨hpc', hsession⟩ | ⟨hpc', hsession⟩⟩ := take_session htake
      · simp [Sessioned, closesOf, leaked, hpc, hpc', hsession]
      · simp [Sessioned, closesOf, leaked, hpc, hpc', hsession, hs, hproducer, hplaced]
  | create hpc hcreate =>
      simp only [Sessioned, hpc] at hs
      simp [Sessioned, closesOf, leaked, hpc, hs]
  | createFault hpc _ => exact absurd rfl (hfault _)
  | unlockCreate hpc =>
      simp only [Sessioned, hpc] at hs
      cases hproducer : c.producer <;>
        simp [Sessioned, closesOf, leaked, Call.goto, hpc, hs]
  | closeOverflow hpc _ => exact absurd hpc hoverflow
  | producer hpc hk hstep =>
      simp only [Sessioned, hpc] at hs
      simp [Sessioned, closesOf, leaked, Call.goto, hpc, hs]
  | @sent k b _ _ hpc hk hsent =>
      simp only [Sessioned, hpc] at hs
      unfold Call.sent at hsent
      split at hsent
      · cases hsent
        simp [Sessioned, closesOf, leaked, hpc, hs]
      · split at hsent
        · cases hsent
          simp [Sessioned, closesOf, leaked, hpc, hs]
        · cases hsent
          exact absurd rfl (hfault _)
  | close hpc _ => exact absurd hpc hclose
  | free hpc hfree =>
      simp only [Sessioned, hpc] at hs
      simp only [Placed, hpc] at hplaced
      simp [Sessioned, closesOf, leaked, Call.goto, hpc, hs, hplaced]
  | freeFault hpc _ => exact absurd rfl (hfault _)
  | unlockFree hpc =>
      simp only [Sessioned, hpc] at hs
      obtain ⟨x, hx⟩ := Option.isSome_iff_exists.mp hs.1
      simp [Sessioned, closesOf, leaked, Call.goto, hpc, hx, hs.2]

/-- **A step of a call** adds the `close` it makes to those that the call has made. -/
theorem closesOf_step (hcall : c.step t g r = some (g', c'))
    (hfault : ∀ e, c'.pc ≠ .ended (.fault e)) (hplaced : Placed c) (hs : Sessioned c) :
    Sessioned c' ∧ closesOf t c' = closesOf t c ++ (Call.closeCall t c r).toList ∧
      leaked c' = (Call.closeCall t c r).any CloseCall.leaks := by
  by_cases hclose : c.pc = .close
  · simp only [Sessioned, hclose] at hs
    simp only [Placed, hclose] at hplaced
    obtain ⟨o, rfl, ⟨ho, rfl⟩ | ⟨ho, msg, rfl⟩⟩ := close_step hclose hcall
    · simp [Sessioned, closesOf, leaked, Call.closeCall, CloseCall.leaks, Call.goto, hclose, ho, hs]
    · simp [Sessioned, closesOf, leaked, Call.closeCall, CloseCall.leaks, Call.goto, hclose, ho, hs,
        hplaced]
  by_cases hoverflow : c.pc = .closeOverflow
  · simp only [Sessioned, hoverflow] at hs
    simp only [Placed, hoverflow] at hplaced
    obtain ⟨x, hx⟩ := Option.isSome_iff_exists.mp hs
    obtain ⟨o, rfl, ⟨ho, rfl⟩ | ⟨ho, msg, rfl⟩⟩ := closeOverflow_step hoverflow hcall
    · simp [Sessioned, closesOf, leaked, Call.closeCall, CloseCall.leaks, Call.goto, hoverflow, ho,
        hx, hplaced]
    · simp [Sessioned, closesOf, leaked, Call.closeCall, CloseCall.leaks, Call.goto, hoverflow, ho,
        hx, hplaced]
  have hnone : Call.closeCall t c r = none := by
    unfold Call.closeCall
    split
    · split
      · rename_i hpc
        exact absurd hpc hoverflow
      · rename_i hpc
        exact absurd hpc hclose
      · rfl
    · rfl
  rw [hnone, Option.toList_none, List.append_nil]
  exact quiet_step (callStep_of_step hcall) hclose hoverflow hfault hplaced hs

/-! ## The invariant of the system -/

/-- The `close` calls of a run are those that its `sendmessage` calls have made, and as many slots
are lost as of them threw with the slot still taken. -/
structure Closed (out : List CloseCall) (s : SendSystem) : Prop where
  sessioned : ∀ (t : ℕ) c, s.calls[t]? = some c → Sessioned c
  closes : ∀ (t : ℕ) c, s.calls[t]? = some c → out.filter (fun e => e.call = t) = closesOf t c
  below : ∀ e ∈ out, e.call < s.calls.length
  lost : out.countP CloseCall.leaks = s.calls.countP leaked

theorem call_of_closeCall {e : CloseCall} (h : Call.closeCall t c r = some e) : e.call = t := by
  unfold Call.closeCall at h
  split at h
  · split at h
    · cases h
      rfl
    · cases h
      rfl
    · cases h
  · cases h

/-- A `sendmessage` call begins. -/
theorem Closed.begin (h : Closed out s) (msg : String) :
    Closed out { s with calls := s.calls ++ [.new msg] } := by
  refine ⟨?_, ?_, ?_, ?_⟩
  · exact Threads.forall_append (P := fun _ c => Sessioned c) rfl h.sessioned
  · refine Threads.forall_append (P := fun t c => out.filter (fun e => e.call = t) = closesOf t c)
      ?_ h.closes
    rw [List.filter_eq_nil_iff.mpr]
    · rfl
    · intro e he
      have := h.below e he
      simp only [decide_eq_true_eq]
      omega
  · intro e he
    have := h.below e he
    rw [List.length_append]
    omega
  · rw [h.lost, List.countP_append]
    rfl

/-- A step of the call `t`. -/
theorem Closed.act (h : Closed out s) (hc : s.calls[t]? = some c) (hplaced : Placed c)
    (hfault : ∀ e, c'.pc ≠ .ended (.fault e)) (hcall : c.step t s.shared r = some (g', c')) :
    Closed (out ++ (Call.closeCall t c r).toList) ⟨g', s.calls.set t c'⟩ := by
  obtain ⟨hs', hcloses', hleaked⟩ := closesOf_step hcall hfault hplaced (h.sessioned t c hc)
  have hlt : t < s.calls.length := (List.getElem?_eq_some_iff.mp hc).1
  refine ⟨?_, ?_, ?_, ?_⟩
  · exact Threads.forall_set (P := fun _ c => Sessioned c) hc hs' fun i x _ hx =>
      h.sessioned i x hx
  · refine Threads.forall_set
      (P := fun t' d => (out ++ (Call.closeCall t c r).toList).filter (fun e => e.call = t') =
        closesOf t' d) hc ?_ ?_
    · rw [List.filter_append, h.closes t c hc, hcloses']
      congr 1
      rw [List.filter_eq_self]
      intro e he
      simpa using call_of_closeCall (Option.mem_toList.mp he)
    · intro i x hi hx
      rw [List.filter_append, h.closes i x hx, List.filter_eq_nil_iff.mpr, List.append_nil]
      intro e he
      rw [call_of_closeCall (Option.mem_toList.mp he)]
      simpa using Ne.symm hi
  · intro e he
    rw [List.length_set]
    rcases List.mem_append.mp he with he | he
    · exact h.below e he
    · rw [call_of_closeCall (Option.mem_toList.mp he)]
      exact hlt
  · have hset := Threads.countP_set_add (b := c') leaked hc
    have hnot : leaked c = false := by
      unfold leaked
      split
      · rename_i hpc
        unfold Call.step at hcall
        cases r <;> simp only [hpc, reduceCtorEq] at hcall
      · rfl
    have hone : (Call.closeCall t c r).toList.countP CloseCall.leaks = (leaked c').toNat := by
      rw [hleaked]
      cases Call.closeCall t c r with
      | none => rfl
      | some e => cases he : e.leaks <;> simp [he]
    rw [List.countP_append, h.lost, hone]
    rw [hnot] at hset
    exact hset.symm

/-- **The step lemma.** -/
theorem closed_step {a : SendAction} (h : Closed out s) (howned : Owned n d s)
    (hstep : s.step a = some s') : Closed (out ++ (closeCall s a).toList) s' := by
  cases a with
  | begin msg =>
      cases hstep
      simpa [closeCall] using h.begin msg
  | act t r =>
      obtain ⟨c, g', c', hc, hcall, rfl⟩ := act_eq_some hstep
      have hmove := howned.move hc hcall
      simpa [closeCall, hc] using h.act hc (howned.placed t c hc) hmove.no_fault hcall

/-- The invariant holds in every state that the calls reach. -/
theorem closed_of_run {w₀ w : MgrWorld} {cr : CreateCall}
    {modes : SessionId → Destination → DeliveryMode} {as : List SendAction}
    (hcreated : CreatedBy w₀ cr w)
    (hrun : SendSystem.machine.run (.init w modes) as = some s) :
    Closed (SendSystem.machine.collect closeCall (.init w modes) as) s := by
  have howned := owned_of_run hcreated (SendSystem.machine.run_nil (.init w modes))
  have hinit : Closed [] (.init w modes) := by
    refine ⟨?_, ?_, ?_, rfl⟩
    · simp [SendSystem.init]
    · simp [SendSystem.init]
    · simp
  have h := Machine.run_inv_collect (M := SendSystem.machine) (f := closeCall)
    (I := fun out s => Closed out s ∧
      Owned (min cr.nPoolSize.toNat 50) (givenDestination w₀.mgr cr) s)
    (fun out s a s' h _ hstep => ⟨closed_step h.1 h.2 hstep, owned_step h.2 hstep⟩)
    ⟨hinit, howned⟩ (Machine.meets_true _ _) hrun
  exact h.1

/-! ## What an ended call leaves -/

variable {result : SendResult}

/-- A call that has ended holds its element exactly when it has lost it. -/
theorem holds_of_ended (hs : Sessioned c) (hended : c.pc = .ended result) :
    (holds c).isSome = leaked c := by
  cases result with
  | returned b => simp [holds, leaked, hended]
  | threw msg => simp [holds, leaked, hended]
  | nullSessionPool =>
      simp only [Sessioned, hended] at hs
      simp [holds, leaked, hended, hs.2]
  | fault e => simp [Sessioned, hended] at hs

/-- A call that has ended has closed its session once, if it took one. -/
theorem closed_once (h : Closed out s) (hc : s.calls[t]? = some c)
    (hended : c.pc = .ended result) :
    (out.filter fun e => e.call = t).map CloseCall.session = c.session.toList.map some := by
  have hs := h.sessioned t c hc
  rw [h.closes t c hc]
  cases result with
  | returned b => simp [closesOf, hended]
  | threw msg =>
      simp only [Sessioned, hended] at hs
      obtain ⟨x, hx⟩ := Option.isSome_iff_exists.mp hs
      simp [closesOf, hended, hx]
  | nullSessionPool =>
      simp only [Sessioned, hended] at hs
      simp [closesOf, hended, hs.1]
  | fault e => simp [Sessioned, hended] at hs

/-- A call has lost its element exactly when its `close` after the send threw. -/
theorem leaked_eq_false_iff (h : Closed out s) (hc : s.calls[t]? = some c)
    (hended : c.pc = .ended result) :
    leaked c = false ↔ ∀ e ∈ out, e.call = t → e.leaks = false := by
  have hs := h.sessioned t c hc
  have hall : (∀ e ∈ out, e.call = t → e.leaks = false) ↔ ∀ e ∈ closesOf t c, e.leaks = false := by
    rw [← h.closes t c hc]
    simp
  rw [hall]
  cases result with
  | returned b => simp [leaked, closesOf, CloseCall.leaks, hended]
  | threw msg => simp [leaked, closesOf, CloseCall.leaks, hended]
  | nullSessionPool => simp [leaked, closesOf, hended]
  | fault e => simp [Sessioned, hended] at hs

/-- The element of an ended call is idle, or taken by another call, exactly when the call has not
lost it. -/
theorem slot_idle_iff (h : Owned n d s) (hc : s.calls[t]? = some c)
    (hholds : (holds c).isSome = leaked c) :
    (∀ k, c.producer = some k → s.shared.world.mgr.pool.bits k = true →
      ∃ t', t' ≠ t ∧ Holds s t' k) ↔ leaked c = false := by
  constructor
  · intro hidle
    by_contra hlost
    rw [← hholds, Bool.not_eq_false] at hlost
    obtain ⟨k, hk⟩ := Option.isSome_iff_exists.mp hlost
    have hproducer : c.producer = some k := by
      unfold holds at hk
      split at hk
      · cases hk
      · cases hk
      · exact hk
    have hmem := mem_held hc hk
    obtain ⟨t', hne, c', hc', hk'⟩ := hidle k hproducer ((h.slots.bits k).mpr hmem)
    exact hne (Threads.eq_of_nodup_filterMap h.slots.nodup hc' hc hk' hk)
  · intro hkept k _ hbit
    obtain ⟨c', hmem, hk'⟩ := List.mem_filterMap.mp ((h.slots.bits k).mp hbit)
    obtain ⟨t', hc'⟩ := List.getElem?_of_mem hmem
    refine ⟨t', ?_, c', hc', hk'⟩
    rintro rfl
    obtain rfl := Option.some.inj (hc.symm.trans hc')
    rw [hk', hkept] at hholds
    cases hholds

/-- While only the last call acts, the others stay as they are. -/
theorem calls_of_alone {s₀ : SendSystem} {msg : String} {rest : List SendAction}
    (halone : ∀ x ∈ rest, ∃ r, x = .act s₀.calls.length r)
    (hrun : SendSystem.machine.run s₀ (.begin msg :: rest) = some s) :
    ∃ c, s.calls = s₀.calls ++ [c] := by
  obtain ⟨s₁, hstep, hrest⟩ := Machine.run_cons_eq_some.mp hrun
  cases hstep
  refine Machine.run_inv_of_meets (I := fun s => ∃ c, s.calls = s₀.calls ++ [c])
    (P := fun _ x => ∃ r, x = .act s₀.calls.length r) ?_ ⟨.new msg, rfl⟩
    (Machine.meets_of_forall _ fun x hx _ => halone x hx) hrest
  rintro s x s' ⟨c, hcalls⟩ ⟨r, rfl⟩ hstep
  obtain ⟨c₁, g', c', hc₁, hcall, rfl⟩ := act_eq_some hstep
  refine ⟨c', ?_⟩
  rw [hcalls, List.set_append_right _ _ (Nat.le_refl _), Nat.sub_self]
  rfl

/-- The counter after a call that was alone. -/
theorem used_of_alone {s₀ : SendSystem} (h₀ : Owned n d s₀) (h : Owned n d s)
    (hcalls : s.calls = s₀.calls ++ [c]) (hholds : (holds c).isSome = leaked c) :
    s.shared.world.mgr.pool.nUsedPoolItemCnt =
      s₀.shared.world.mgr.pool.nUsedPoolItemCnt + (leaked c).toNat := by
  rw [h.slots.used, h₀.slots.used, ← hholds]
  unfold held
  rw [hcalls, List.filterMap_append, List.length_append]
  cases hk : holds c with
  | none => simp [hk]
  | some k => simp [hk]

/-- The `sendmessage` call `t`, which began in `s₀` and has ended in `s` as `c`, has given
everything back: the element it took is idle, or taken by another call since; the counter is what
it was, if no other call did anything since the call began; and `close` was called exactly once on
the session it took. -/
structure GivesBack (s₀ s : SendSystem) (t : ℕ) (c : Call) (rest : List SendAction)
    (closes : List CloseCall) : Prop where
  slot : ∀ k, c.producer = some k → s.shared.world.mgr.pool.bits k = true →
    ∃ t', t' ≠ t ∧ Holds s t' k
  used : (∀ x ∈ rest, ∃ r, x = .act t r) →
    s.shared.world.mgr.pool.nUsedPoolItemCnt = s₀.shared.world.mgr.pool.nUsedPoolItemCnt
  closed : (closes.filter fun e => e.call = t).map CloseCall.session = c.session.toList.map some

/-- **When `sendmessage` gives its slot back.**  From a created pool, after any interleaving of any
calls, let a `sendmessage` call begin and end, by return or by exception, interleaved with any other
calls and with any outcomes of the library calls.  It has given everything back if and only if its
`close` after the send did not throw.  And when all calls have ended, the counter is the number of
`close` calls that threw after a send: if there are none, the whole pool is idle. -/
theorem sendmessage_gives_back_iff {w₀ w : MgrWorld} {cr : CreateCall}
    {modes : SessionId → Destination → DeliveryMode} {as rest : List SendAction} {msg : String}
    {s₀ : SendSystem} (hcreated : CreatedBy w₀ cr w)
    (hrun₀ : SendSystem.machine.run (.init w modes) as = some s₀)
    (hrun : SendSystem.machine.run s₀ (.begin msg :: rest) = some s)
    (hc : s.calls[s₀.calls.length]? = some c) (hended : c.pc = .ended result) :
    (GivesBack s₀ s s₀.calls.length c rest
        (SendSystem.machine.collect closeCall (.init w modes) (as ++ .begin msg :: rest)) ↔
      ∀ e ∈ SendSystem.machine.collect closeCall (.init w modes) (as ++ .begin msg :: rest),
        e.call = s₀.calls.length → e.leaks = false) ∧
      ((∀ c' ∈ s.calls, ∃ result', c'.pc = .ended result') →
        s.shared.world.mgr.pool.nUsedPoolItemCnt =
          (SendSystem.machine.collect closeCall (.init w modes)
            (as ++ .begin msg :: rest)).countP CloseCall.leaks) := by
  have hall : SendSystem.machine.run (.init w modes) (as ++ .begin msg :: rest) = some s := by
    rw [Machine.run_append, hrun₀]
    exact hrun
  have howned := owned_of_run hcreated hall
  have hclosed := closed_of_run hcreated hall
  have hholds := holds_of_ended (hclosed.sessioned _ c hc) hended
  have hslot := slot_idle_iff howned hc hholds
  rw [← leaked_eq_false_iff hclosed hc hended]
  refine ⟨⟨fun h => hslot.mp h.slot, ?_⟩, ?_⟩
  · intro hkept
    refine ⟨hslot.mpr hkept, ?_, closed_once hclosed hc hended⟩
    intro halone
    obtain ⟨c₁, hcalls⟩ := calls_of_alone halone hrun
    obtain rfl : c₁ = c := by
      rw [hcalls] at hc
      simpa using hc
    rw [used_of_alone (owned_of_run hcreated hrun₀) howned hcalls hholds, hkept]
    rfl
  · intro hends
    rw [hclosed.lost, howned.slots.used]
    unfold held
    rw [List.length_filterMap_eq_countP]
    apply List.countP_congr
    intro c' hc'
    obtain ⟨t', ht'⟩ := List.getElem?_of_mem hc'
    obtain ⟨result', hpc⟩ := hends c' hc'
    rw [holds_of_ended (hclosed.sessioned t' c' ht') hpc]

/-- The first `sendmessage` call, up to `close`: the send is refused. -/
def sendRefused : List SendAction :=
  [.act 0 .tau, .act 0 .tau, .act 0 (.session (.ok (some 7))), .act 0 .tau, .act 0 .tau,
    .act 0 .tau, .act 0 .tau, .act 0 .tau, .act 0 (.call (.ok ())), .act 0 (.call (.ok ())),
    .act 0 (.call (.ok ())), .act 0 (.call (.ok ())), .act 0 (.call (.cms "refused")), .act 0 .tau]

theorem sendmessage_gives_back_refused :
    ∃ s c, SendSystem.machine.run (.init oneProducer fun _ _ => .nonPersistent)
        (.begin "a" :: (sendRefused ++
          [.act 0 (.call (.ok ())), .act 0 .tau, .act 0 .tau, .act 0 .tau])) = some s ∧
      s.calls[0]? = some c ∧ c.pc = .ended (.returned false) ∧ c.producer = some 0 ∧
      s.shared.world.mgr.pool.nUsedPoolItemCnt = 0 := by
  have hcalls : (SendSystem.machine.run (.init oneProducer fun _ _ => .nonPersistent)
      (.begin "a" :: (sendRefused ++
        [.act 0 (.call (.ok ())), .act 0 .tau, .act 0 .tau, .act 0 .tau]))).map SendSystem.calls =
      some [⟨"a", some 7, some 0, false, .ended (.returned false)⟩] := by
    decide +kernel
  obtain ⟨s, hrun, hcalls⟩ := Option.map_eq_some_iff.mp hcalls
  have hc : s.calls[0]? = some ⟨"a", some 7, some 0, false, .ended (.returned false)⟩ := by
    rw [hcalls]
    rfl
  have hback := (sendmessage_gives_back_iff oneProducer_createdBy
    (SendSystem.machine.run_nil _) hrun hc rfl).1.mpr (by decide +kernel)
  refine ⟨s, _, hrun, hc, rfl, rfl, hback.used ?_⟩
  intro x hx
  simp only [sendRefused, List.cons_append, List.nil_append, List.mem_cons, List.not_mem_nil,
    or_false] at hx
  rcases hx with rfl | rfl | rfl | rfl | rfl | rfl | rfl | rfl | rfl | rfl | rfl | rfl | rfl | rfl |
    rfl | rfl | rfl | rfl <;> exact ⟨_, rfl⟩

/-- When `close` throws after the send, the only slot of the pool is lost: it stays marked, and the
next call finds the pool exhausted. -/
theorem slot_lost_when_close_throws :
    ∃ s c, SendSystem.machine.run (.init oneProducer fun _ _ => .nonPersistent)
        (.begin "a" :: (sendRefused ++ [.act 0 (.call (.cms "closed"))])) = some s ∧
      s.calls[0]? = some c ∧ c.pc = .ended (.threw "closed") ∧ c.producer = some 0 ∧
      s.shared.world.mgr.pool.bits 0 = true ∧ s.shared.world.mgr.pool.nUsedPoolItemCnt = 1 ∧
      (∀ t', t' ≠ 0 → ¬ Holds s t' 0) ∧
      ∃ pool, s.shared.world.mgr.pool.createPoolItem = .ok (none, pool) := by
  have hcalls : (SendSystem.machine.run (.init oneProducer fun _ _ => .nonPersistent)
      (.begin "a" :: (sendRefused ++ [.act 0 (.call (.cms "closed"))]))).map
      (fun s => (s.calls, s.shared.world.mgr.pool.bits 0,
        s.shared.world.mgr.pool.nUsedPoolItemCnt,
        s.shared.world.mgr.pool.createPoolItem.toOption.map Prod.fst)) =
      some ([⟨"a", some 7, some 0, false, .ended (.threw "closed")⟩], true, 1, some none) := by
    decide +kernel
  obtain ⟨s, hrun, hs⟩ := Option.map_eq_some_iff.mp hcalls
  simp only [Prod.mk.injEq] at hs
  obtain ⟨hcalls, hbit, hused, hnull⟩ := hs
  refine ⟨s, _, hrun, by rw [hcalls]; rfl, rfl, rfl, hbit, hused, ?_, ?_⟩
  · rintro t' hne ⟨c', hc', -⟩
    rw [hcalls] at hc'
    cases t' with
    | zero => exact hne rfl
    | succ t' => simp at hc'
  · cases hcreate : s.shared.world.mgr.pool.createPoolItem with
    | error e => simp [hcreate, Except.toOption] at hnull
    | ok r =>
        obtain ⟨o, pool⟩ := r
        obtain rfl : o = none := by simpa [hcreate, Except.toOption] using hnull
        exact ⟨pool, rfl⟩

end DsAmq.Analysis
