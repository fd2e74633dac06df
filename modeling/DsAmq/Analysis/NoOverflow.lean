import DsAmq.Analysis.ExclusiveUse

/-!
# Enough producers for the calls

`CreatePoolItem` returns NULL, and `sendmessage` fails with "Pool Overflow.", only when the calls
outnumber the producers: if a call begins only while fewer than `n` calls have not returned, no
call is ever left without a producer (`no_overflow`).  A call that ended by the exception of
`PooledSession::close` keeps its producer and counts as not returned.

The invariant is `Roomy`: at most `n` calls have not returned.  The call at `CreatePoolItem` is one
of them and holds no producer, so that at most `n - 1` producers are held.
-/

set_option autoImplicit false

namespace DsAmq.Analysis

open DsAmq.Model DsAmq.Library

variable {n t : ℕ} {d : Destination} {g g' : Shared} {c c' : Call} {r : Reply}
  {s s' : SendSystem}

/-- The call has not returned. -/
def unreturned (c : Call) : Bool :=
  match c.pc with
  | .ended (.returned _) => false
  | _ => true

/-- A call begins only while fewer than `n` calls have not returned. -/
def RoomFor (n : ℕ) (s : SendSystem) : SendAction → Prop
  | .begin _ => s.calls.countP unreturned < n
  | .act _ _ => True

instance decidableRoomFor (n : ℕ) (s : SendSystem) : (a : SendAction) → Decidable (RoomFor n s a)
  | .begin _ => inferInstanceAs (Decidable (_ < n))
  | .act _ _ => isTrue trivial

/-- The call has a producer once it has asked for one. -/
def HasProducer (c : Call) : Prop :=
  c.pc ≠ .closeOverflow ∧ (c.pc = .unlockCreate → c.producer.isSome = true)

/-- At most `n` calls have not returned, and no call is left without a producer. -/
structure Roomy (n : ℕ) (s : SendSystem) : Prop where
  unreturned : s.calls.countP unreturned ≤ n
  served : ∀ (t : ℕ) c, s.calls[t]? = some c → HasProducer c

theorem unreturned_of_holds {k : ℕ} (h : holds c = some k) : unreturned c = true := by
  unfold holds at h
  unfold unreturned
  split
  · rename_i hpc
    simp [hpc] at h
  · rfl

/-- A call that makes a step has not returned. -/
theorem unreturned_of_step (h : c.step t g r = some (g', c')) : unreturned c = true := by
  unfold unreturned
  split
  · rename_i b hpc
    unfold Call.step at h
    rw [hpc] at h
    cases r <;> cases h
  · rfl

/-- While a call that has not returned holds no producer, one producer is left. -/
theorem holders_lt (hroom : s.calls.countP unreturned ≤ n) (hc : s.calls[t]? = some c)
    (hnone : holds c = none) (hun : unreturned c = true) : holders s < n := by
  have hlt : holders s < s.calls.countP unreturned := by
    refine Threads.countP_lt_countP ?_ hc (by rw [hnone]; rfl) hun
    intro x _ hx
    obtain ⟨k, hk⟩ := Option.isSome_iff_exists.mp hx
    exact unreturned_of_holds hk
  omega

/-- The step of a call that has been served, when one producer is left, or the call does not ask
for one. -/
theorem hasProducer_of_move {hs : List ℕ} (hslots : Slots n hs g.world.mgr.pool)
    (hserved : HasProducer c) (hroom : c.pc = .createPoolItem → hs.length < n)
    (hmove : Move t g c g' c') : HasProducer c' := by
  cases hmove with
  | before hpc hpc' hsame hproducer hmsg =>
      unfold HasProducer
      rcases hpc' with hpc' | hpc' | hpc'
      · constructor
        · intro heq
          rw [heq] at hpc'
          exact hpc'
        · intro heq
          rw [heq] at hpc'
          cases hpc'
      · simp [hpc']
      · simp [hpc']
  | create hpc hcreate =>
      refine ⟨by simp, fun _ => ?_⟩
      have hlt := hroom hpc
      rcases createPoolItem_cases hslots with ⟨hfull, -⟩ | ⟨-, k, p', -, -, hsome, -⟩
      · omega
      · rw [hcreate] at hsome
        cases hsome
        rfl
  | unlockCreate hpc hsame =>
      obtain ⟨k, hk⟩ := Option.isSome_iff_exists.mp (hserved.2 hpc)
      simp [HasProducer, Call.goto, hk]
  | overflow hpc hpc' hsame => exact absurd hpc hserved.1
  | producer hpc hk hmove => simp [HasProducer, Call.goto]
  | sent hpc hsame => simp [HasProducer]
  | closing hpc hpc' hsame =>
      rcases hpc' with rfl | rfl | ⟨msg, rfl⟩ <;> simp [HasProducer, Call.goto]
  | free hpc hk hfree => simp [HasProducer, Call.goto]
  | unlockFree hpc hsame => simp [HasProducer, Call.goto]

/-- **The step lemma.** -/
theorem roomy_step {a : SendAction} (howned : Owned n d s) (h : Roomy n s) (hroom : RoomFor n s a)
    (hstep : s.step a = some s') : Roomy n s' := by
  cases a with
  | begin msg =>
      cases hstep
      have hlt : s.calls.countP unreturned < n := hroom
      constructor
      · simp only [List.countP_append, List.countP_singleton]
        split <;> omega
      · exact Threads.forall_append (P := fun _ c => HasProducer c)
          (by simp [HasProducer, Call.new]) h.served
  | act t r =>
      obtain ⟨c, g', c', hc, hcall, rfl⟩ := act_eq_some hstep
      have hun := unreturned_of_step hcall
      constructor
      · have hcount := Threads.countP_set_add (b := c') unreturned hc
        have hle : (unreturned c').toNat ≤ 1 := Bool.toNat_le _
        have hroom := h.unreturned
        rw [hun, Bool.toNat_true] at hcount
        dsimp only
        omega
      · refine Threads.forall_set (P := fun _ c => HasProducer c) hc ?_
          fun i x _ hx => h.served i x hx
        refine hasProducer_of_move howned.slots (h.served t c hc) ?_ (howned.move hc hcall)
        intro hpc
        have hnone : holds c = none :=
          holds_of_producer_none ((howned.placed t c hc).of_before (by rw [hpc]; trivial))
        have hlength : (held s).length = holders s := List.length_filterMap_eq_countP
        rw [hlength]
        exact holders_lt h.unreturned hc hnone hun

/-- **No pool overflow while the calls do not outnumber the producers.**  From a created pool of
clamped size `n`, in every run of concurrent `sendmessage` calls in which a call begins only while
fewer than `n` calls have not returned: no call comes to the overflow branch, and every call that
has asked for a producer has one. -/
theorem no_overflow {w₀ w : MgrWorld} {cr : CreateCall}
    {modes : SessionId → Destination → DeliveryMode} {as : List SendAction} {s : SendSystem}
    (hcreated : CreatedBy w₀ cr w)
    (hroom : SendSystem.machine.Meets (RoomFor (min cr.nPoolSize.toNat 50)) (.init w modes) as)
    (hrun : SendSystem.machine.run (.init w modes) as = some s) :
    ∀ (t : ℕ) c, s.calls[t]? = some c →
      c.pc ≠ .closeOverflow ∧ (c.pc = .unlockCreate → c.producer.isSome = true) := by
  have howned := owned_of_run hcreated (SendSystem.machine.run_nil (.init w modes))
  have hinit : Roomy (min cr.nPoolSize.toNat 50) (.init w modes) :=
    ⟨by simp [SendSystem.init], by simp [SendSystem.init]⟩
  have h := Machine.run_inv_of_meets (M := SendSystem.machine)
    (I := fun s => Owned (min cr.nPoolSize.toNat 50) (givenDestination w₀.mgr cr) s ∧
      Roomy (min cr.nPoolSize.toNat 50) s)
    (fun s a s' h hroom hstep => ⟨owned_step h.1 hstep, roomy_step h.1 h.2 hroom hstep⟩)
    ⟨howned, hinit⟩ hroom hrun
  exact h.2.served

/-- Call 0 sends and returns; then call 1 begins and asks for a producer. -/
def oneAfterTheOther : List SendAction :=
  [.begin "a", .act 0 .tau, .act 0 .tau, .act 0 (.session (.ok (some 7))), .act 0 .tau,
   .act 0 .tau, .act 0 .tau, .act 0 .tau, .act 0 .tau, .act 0 (.call (.ok ())),
   .act 0 (.call (.ok ())), .act 0 (.call (.ok ())), .act 0 (.call (.ok ())),
   .act 0 (.call (.ok ())), .act 0 .tau, .act 0 (.call (.ok ())), .act 0 .tau, .act 0 .tau,
   .act 0 .tau,
   .begin "b", .act 1 .tau, .act 1 .tau, .act 1 (.session (.ok (some 8))), .act 1 .tau,
   .act 1 .tau]

theorem no_overflow_one_after_the_other :
    ∃ s c, SendSystem.machine.run (.init oneProducer fun _ _ => .nonPersistent)
        oneAfterTheOther = some s ∧
      s.calls[1]? = some c ∧ c.pc = .unlockCreate ∧ c.producer.isSome = true := by
  have hroom : SendSystem.machine.Meets (RoomFor (min (1 : UInt32).toNat 50))
      (.init oneProducer fun _ _ => .nonPersistent) oneAfterTheOther := by
    decide +kernel
  have hpcs : (SendSystem.machine.run (.init oneProducer fun _ _ => .nonPersistent)
      oneAfterTheOther).map (fun s => s.calls.map Call.pc) =
      some [.ended (.returned true), .unlockCreate] := by
    decide +kernel
  obtain ⟨s, hrun, hpcs⟩ := Option.map_eq_some_iff.mp hpcs
  have hpc : (s.calls[1]?).map Call.pc = some .unlockCreate := by
    rw [← List.getElem?_map, hpcs]
    rfl
  obtain ⟨c, hc, hpc⟩ := Option.map_eq_some_iff.mp hpc
  exact ⟨s, c, hrun, hc, hpc, (no_overflow oneProducer_createdBy hroom hrun 1 c hc).2 hpc⟩

end DsAmq.Analysis
