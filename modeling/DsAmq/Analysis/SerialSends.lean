import DsAmq.Analysis.NoOverflow
import DsAmq.Analysis.WholeSend

/-!
# Calls of `sendmessage` one after the other

A run of the concurrent system in which every call of `sendmessage` begins after the calls before it
have ended is a sequence of whole calls (`serial_sends`): the results, the manager and the accepted
sends are those of `MgrWorld.sendmessage`, call after call.  In the middle of a call the invariant
says of the rest of it that it will do what some whole call does (`Serially`).
-/

set_option autoImplicit false

namespace DsAmq.Analysis

open DsAmq.Model DsAmq.Library

variable {w : MgrWorld} {s s' : SendSystem} {a : SendAction}

/-- The results, the manager and the accepted sends after one more whole call. -/
def wholeNext (x : List SendResult × MgrWorld × List Sent) (y : String × MgrSendOutcomes) :
    List SendResult × MgrWorld × List Sent :=
  let r := x.2.1.sendmessage y.1 y.2
  (x.1 ++ [r.1], r.2.1, x.2.2 ++ r.2.2.toList)

/-- A sequence of whole calls: the texts, each with the outcomes of the library calls. -/
def wholeCalls (w : MgrWorld) (calls : List (String × MgrSendOutcomes)) :
    List SendResult × MgrWorld × List Sent :=
  calls.foldl wholeNext ([], w, [])

theorem wholeCalls_append (w : MgrWorld) (calls : List (String × MgrSendOutcomes))
    (y : String × MgrSendOutcomes) :
    wholeCalls w (calls ++ [y]) = wholeNext (wholeCalls w calls) y := by
  unfold wholeCalls
  rw [List.foldl_append]
  rfl

/-- The call has ended. -/
def hasEnded (c : Call) : Bool :=
  match c.pc with
  | .ended _ => true
  | _ => false

theorem ended_of_hasEnded {c : Call} (h : hasEnded c = true) : ∃ res, c.pc = .ended res := by
  unfold hasEnded at h
  split at h
  · rename_i res hpc
    exact ⟨res, hpc⟩
  · cases h

theorem step_of_hasEnded {c : Call} {t : ℕ} {g : Shared} {r : Reply} (h : hasEnded c = true) :
    c.step t g r = none := by
  obtain ⟨res, hpc⟩ := ended_of_hasEnded h
  cases r <;> simp [Call.step, hpc]

/-- A call begins when all calls before it have ended. -/
def BeginsLast (s : SendSystem) : SendAction → Prop
  | .begin _ => ∀ c ∈ s.calls, hasEnded c = true
  | .act _ _ => True

instance decidableBeginsLast (s : SendSystem) : (a : SendAction) → Decidable (BeginsLast s a)
  | .begin _ => inferInstanceAs (Decidable (∀ c ∈ s.calls, hasEnded c = true))
  | .act _ _ => isTrue trivial

/-- The state is what the whole calls `ys` have made of `w`. -/
structure DoneBy (w : MgrWorld) (g : Shared) (calls : List Call)
    (ys : List (String × MgrSendOutcomes)) : Prop where
  texts : calls.map Call.strMessage = ys.map Prod.fst
  ends : calls.map Call.pc = (wholeCalls w ys).1.map SendPc.ended
  world : g.world = (wholeCalls w ys).2.1
  accepted : g.accepted.map Prod.snd = (wholeCalls w ys).2.2

/-- All calls have ended, as the whole calls `ys` do; or all but the last, and the rest of that
will do what some whole call does. -/
inductive Serially (w : MgrWorld) (s : SendSystem) : Prop
  | idle (ys : List (String × MgrSendOutcomes)) (hdone : DoneBy w s.shared s.calls ys)
      (hmutex : s.shared.mutex = none)
  | busy (ys : List (String × MgrSendOutcomes)) (g : Shared) (calls : List Call) (c : Call)
      (hdone : DoneBy w g calls ys) (hcalls : s.calls = calls ++ [c])
      (halone : AloneAt s.shared c)
      (hrest : ∀ o', ∃ o, noted calls.length g.accepted (g.world.sendmessage c.strMessage o) =
        callRest calls.length o' s.shared c)

theorem DoneBy.hasEnded {g : Shared} {calls : List Call} {ys : List (String × MgrSendOutcomes)}
    (h : DoneBy w g calls ys) {c : Call} (hc : c ∈ calls) : hasEnded c = true := by
  have hmem : c.pc ∈ (wholeCalls w ys).1.map SendPc.ended := by
    rw [← h.ends]
    exact List.mem_map_of_mem hc
  obtain ⟨res, -, hpc⟩ := List.mem_map.mp hmem
  unfold Analysis.hasEnded
  rw [← hpc]

/-- When the last call ends, it has done what a whole call does. -/
theorem doneBy_append {g g' : Shared} {calls : List Call} {c : Call}
    {ys : List (String × MgrSendOutcomes)} {o o' : MgrSendOutcomes} (h : DoneBy w g calls ys)
    (hended : hasEnded c = true)
    (hrest : noted calls.length g.accepted (g.world.sendmessage c.strMessage o) =
      callRest calls.length o' g' c) :
    DoneBy w g' (calls ++ [c]) (ys ++ [(c.strMessage, o)]) := by
  obtain ⟨res, hpc⟩ := ended_of_hasEnded hended
  rw [callRest_ended hpc] at hrest
  simp only [noted, Prod.mk.injEq] at hrest
  obtain ⟨hres, hworld, haccepted⟩ := hrest
  have hnext : wholeCalls w (ys ++ [(c.strMessage, o)]) =
      ((wholeCalls w ys).1 ++ [res], g'.world,
        (wholeCalls w ys).2.2 ++ (g.world.sendmessage c.strMessage o).2.2.toList) := by
    rw [wholeCalls_append]
    simp only [wholeNext, ← h.world, hres, hworld]
  refine ⟨?_, ?_, ?_, ?_⟩
  · rw [List.map_append, List.map_append, h.texts]
    rfl
  · rw [hnext, List.map_append, List.map_append, h.ends, List.map_singleton, hpc]
    rfl
  · rw [hnext]
  · rw [hnext, ← haccepted, List.map_append, h.accepted, List.map_map]
    simp

/-- When all calls have ended. -/
theorem Serially.done (h : Serially w s) (hended : ∀ c ∈ s.calls, hasEnded c = true) :
    (∃ ys, DoneBy w s.shared s.calls ys) ∧ s.shared.mutex = none := by
  cases h with
  | idle ys hdone hmutex => exact ⟨⟨ys, hdone⟩, hmutex⟩
  | busy ys g calls c hdone hcalls halone hrest =>
      have hc : hasEnded c = true := hended c (by rw [hcalls]; simp)
      obtain ⟨o, ho⟩ := hrest noOutcomes
      refine ⟨⟨ys ++ [(c.strMessage, o)], ?_⟩, ?_⟩
      · rw [hcalls]
        exact doneBy_append hdone hc ho
      · obtain ⟨res, hpc⟩ := ended_of_hasEnded hc
        apply halone.mutex
        rw [hpc]
        exact id

/-- **The step lemma.** -/
theorem serially_step (h : Serially w s) (hlast : BeginsLast s a) (hstep : s.step a = some s') :
    Serially w s' := by
  cases a with
  | begin msg =>
      cases hstep
      obtain ⟨⟨ys, hdone⟩, hmutex⟩ := h.done hlast
      refine .busy ys s.shared s.calls (.new msg) hdone rfl (aloneAt_new hmutex msg) ?_
      intro o'
      exact ⟨o', rfl⟩
  | act t r =>
      obtain ⟨c₁, g', c', hc₁, hcall, rfl⟩ := act_eq_some hstep
      cases h with
      | idle ys hdone hmutex =>
          rw [step_of_hasEnded (hdone.hasEnded (List.mem_of_getElem? hc₁))] at hcall
          cases hcall
      | busy ys g calls c hdone hcalls halone hrest =>
          rw [hcalls] at hc₁
          rcases Threads.getElem?_append_eq_some.mp hc₁ with hc₁ | ⟨rfl, rfl⟩
          · rw [step_of_hasEnded (hdone.hasEnded (List.mem_of_getElem? hc₁))] at hcall
            cases hcall
          · refine .busy ys g calls c' hdone ?_ (aloneAt_step halone hcall) ?_
            · rw [hcalls]
              simp
            · intro o'
              obtain ⟨o₁, ho₁⟩ := call_foreseen halone hcall o'
              obtain ⟨o, ho⟩ := hrest o₁
              rw [strMessage_step hcall]
              exact ⟨o, ho.trans ho₁⟩

/-- **Calls one after the other are whole calls.**  In every run of `sendmessage` calls, on any
manager and with any answers of the library, in which each call begins when the calls before it have
ended: when all calls have ended, there are outcomes of the library calls for which the sequence of
whole calls with the same texts has the same results, leaves the same manager and makes the same
accepted sends in the same order. -/
theorem serial_sends {modes : SessionId → Destination → DeliveryMode} {as : List SendAction}
    (hlast : SendSystem.machine.Meets BeginsLast (.init w modes) as)
    (hrun : SendSystem.machine.run (.init w modes) as = some s)
    (hended : ∀ c ∈ s.calls, hasEnded c = true) :
    ∃ ys, s.calls.map Call.strMessage = ys.map Prod.fst ∧
      s.calls.map Call.pc = (wholeCalls w ys).1.map SendPc.ended ∧
      s.shared.world = (wholeCalls w ys).2.1 ∧
      s.shared.accepted.map Prod.snd = (wholeCalls w ys).2.2 := by
  have hinit : Serially w (.init w modes) := .idle [] ⟨rfl, rfl, rfl, rfl⟩ rfl
  have h : Serially w s := by
    refine Machine.run_inv_of_meets ?_ hinit hlast hrun
    intro s a s' h hlast hstep
    exact serially_step h hlast hstep
  obtain ⟨⟨ys, hdone⟩, -⟩ := h.done hended
  exact ⟨ys, hdone.texts, hdone.ends, hdone.world, hdone.accepted⟩

/-- Call 0 sends and returns; then call 1 begins, and its `send` throws. -/
def oneSentOneLost : List SendAction :=
  oneAfterTheOther ++ List.replicate 3 (.act 1 .tau) ++ List.replicate 3 (.act 1 (.call (.ok ()))) ++
  [.act 1 (.call (.cms "lost")), .act 1 .tau, .act 1 (.call (.ok ())), .act 1 .tau, .act 1 .tau,
   .act 1 .tau]

theorem serial_sends_one_lost :
    ∃ s ys, SendSystem.machine.run (.init oneProducer fun _ _ => .nonPersistent) oneSentOneLost =
        some s ∧ ys.map Prod.fst = ["a", "b"] ∧
      (wholeCalls oneProducer ys).1 = [.returned true, .returned false] ∧
      s.shared.world = (wholeCalls oneProducer ys).2.1 ∧
      (wholeCalls oneProducer ys).2.2 = [⟨⟨.queue, "orders"⟩, "a", .persistent⟩] := by
  have hlast : SendSystem.machine.Meets BeginsLast (.init oneProducer fun _ _ => .nonPersistent)
      oneSentOneLost := by
    decide +kernel
  have hstate : (SendSystem.machine.run (.init oneProducer fun _ _ => .nonPersistent)
      oneSentOneLost).map (fun s => (s.calls.map Call.strMessage, s.calls.map Call.pc,
        s.shared.accepted.map Prod.snd)) =
      some (["a", "b"], [.ended (.returned true), .ended (.returned false)],
        [⟨⟨.queue, "orders"⟩, "a", .persistent⟩]) := by
    decide +kernel
  obtain ⟨s, hrun, hs⟩ := Option.map_eq_some_iff.mp hstate
  simp only [Prod.mk.injEq] at hs
  obtain ⟨htexts, hpcs, haccepted⟩ := hs
  have hended : ∀ c ∈ s.calls, hasEnded c = true := by
    intro c hc
    have hmem : c.pc ∈ [SendPc.ended (.returned true), SendPc.ended (.returned false)] := by
      rw [← hpcs]
      exact List.mem_map_of_mem hc
    unfold hasEnded
    rcases List.mem_pair.mp hmem with hpc | hpc <;> rw [hpc]
  obtain ⟨ys, hys, hends, hworld, hsends⟩ := serial_sends hlast hrun hended
  refine ⟨s, ys, hrun, hys.symm.trans htexts, ?_, hworld, hsends.symm.trans haccepted⟩
  have hresults := hends.symm.trans hpcs
  exact List.map_injective_iff.mpr (fun a b hab => SendPc.ended.inj hab) hresults

end DsAmq.Analysis
