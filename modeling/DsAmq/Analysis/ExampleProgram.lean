import Mathlib
import DsAmq.Analysis.SendSuccess
import DsAmq.Model.Example

/-!
# The sample program sends its messages

`n` threads share a pool that has at least `n` producers, and each thread is in one call of
`sendmessage` at a time.  So the calls never outnumber the producers (`roomFor_call`), and none
fails for want of one.  What is sent are texts of the program, and none of them is sent twice; and
when all threads have ended and no library call has failed, each of the `10 * n` texts has been sent
exactly once (`example_sends_all`).
-/

set_option autoImplicit false

namespace DsAmq.Analysis

open DsAmq.Model DsAmq.Library

/-- The texts with which a thread has called `sendmessage` so far. -/
def begunBy (p : ProducerThread) : List String :=
  (List.range (p.i + p.call.toList.length)).map fun i => messageText (p.nStart + i)

/-- The threads, and the calls they have made: `n` threads with their own messages; a call that has
not returned is the call of a thread; the calls were made with the texts of the threads. -/
structure Orderly (n : ℕ) (s : Example) : Prop where
  starts : s.threads.map ProducerThread.nStart = (List.range n).map (nMessageCnt * ·)
  bounds : ∀ p ∈ s.threads, p.i + p.call.toList.length ≤ nMessageCnt
  inFlight : ∀ (t : ℕ) c, s.send.calls[t]? = some c → unreturned c = true →
    t ∈ s.threads.filterMap ProducerThread.call
  texts : (s.send.calls.map Call.strMessage).Perm (s.threads.flatMap begunBy)

variable {n m k t : ℕ} {d : Destination} {s s' : Example} {a : ExampleAction} {g g' : Shared}
  {c c' : Call} {p : ProducerThread}

/-! ## The steps -/

/-- What a step of the program can be. -/
inductive ExampleMove (s : Example) : ExampleAction → Example → Prop
  | call {k : ℕ} {p : ProducerThread} {send : SendSystem} (hp : s.threads[k]? = some p)
      (hidle : p.call = none) (hi : p.i < nMessageCnt)
      (hsend : s.send.step (.begin (messageText (p.nStart + p.i))) = some send) :
      ExampleMove s (.call k)
        ⟨s.threads.set k { p with call := some s.send.calls.length }, send⟩
  | back {k t : ℕ} {p : ProducerThread} {c : Call} {b : Bool} (hp : s.threads[k]? = some p)
      (ht : p.call = some t) (hc : s.send.calls[t]? = some c)
      (hreturned : c.pc = .ended (.returned b)) :
      ExampleMove s (.back k)
        { s with threads := s.threads.set k { p with i := p.i + 1, call := none } }
  | act {t : ℕ} {r : Reply} {send : SendSystem} (hsend : s.send.step (.act t r) = some send) :
      ExampleMove s (.act t r) { s with send := send }

/-- **The inversion of a step.** -/
theorem exampleMove_of_step (h : s.step a = some s') : ExampleMove s a s' := by
  cases a with
  | call k =>
      simp only [Example.step] at h
      cases hp : s.threads[k]? with
      | none => simp [hp] at h
      | some p =>
          simp only [hp] at h
          split at h
          · rename_i hidle
            obtain ⟨send, hsend, rfl⟩ := Option.map_eq_some_iff.mp h
            exact .call hp hidle.1 hidle.2 hsend
          · cases h
  | back k =>
      simp only [Example.step] at h
      cases hp : s.threads[k]? with
      | none => simp [hp] at h
      | some p =>
          simp only [hp] at h
          split at h
          · rename_i hreturned
            cases h
            obtain ⟨t, ht, hreturned⟩ := (Option.any_eq_true _ _).mp hreturned
            unfold Example.hasReturned at hreturned
            cases hc : s.send.calls[t]? with
            | none => simp [hc] at hreturned
            | some c =>
                simp only [hc] at hreturned
                split at hreturned
                · rename_i b hpc
                  exact .back hp ht hc hpc
                · cases hreturned
          · cases h
  | act t r =>
      obtain ⟨send, hsend, rfl⟩ := Option.map_eq_some_iff.mp h
      exact .act hsend

/-- A thread that is about to call `sendmessage` is not in a call, and so fewer than `n` calls have
not returned. -/
theorem roomFor_call (h : Orderly n s) (hn : n ≤ m) (hp : s.threads[k]? = some p)
    (hidle : p.call = none) : s.send.calls.countP unreturned < m := by
  have hle := Threads.countP_le_length _ h.inFlight
  have hlen : s.threads.length = n := by
    have := congrArg List.length h.starts
    simpa using this
  have hlt : (s.threads.filterMap ProducerThread.call).length < s.threads.length := by
    rw [List.length_filterMap_eq_countP, List.countP_lt_length_iff]
    exact ⟨p, List.mem_of_getElem? hp, by rw [hidle]; rfl⟩
  omega

/-- The texts when the thread `k` goes from `p` to `q`. -/
theorem exists_texts_set (q : ProducerThread) (hp : s.threads[k]? = some p) :
    ∃ others, (s.threads.flatMap begunBy).Perm (begunBy p ++ others) ∧
      ((s.threads.set k q).flatMap begunBy).Perm (begunBy q ++ others) := by
  obtain ⟨others, hold, hset⟩ := Threads.exists_flatMap_set_perm begunBy hp
  exact ⟨others, hold, hset q⟩

/-- A thread calls `sendmessage`. -/
theorem Orderly.call {send : SendSystem} (h : Orderly n s) (hp : s.threads[k]? = some p)
    (hidle : p.call = none) (hi : p.i < nMessageCnt)
    (hsend : s.send.step (.begin (messageText (p.nStart + p.i))) = some send) :
    Orderly n ⟨s.threads.set k { p with call := some s.send.calls.length }, send⟩ := by
  cases hsend
  have hperm := Threads.filterMap_set_perm
    (b := { p with call := some s.send.calls.length }) ProducerThread.call hp
  rw [hidle] at hperm
  constructor
  · refine (Threads.map_set_eq hp ?_).trans h.starts
    rfl
  · intro q hq
    rcases List.mem_or_eq_of_mem_set hq with hq | rfl
    · exact h.bounds q hq
    · exact hi
  · intro t c hc hun
    apply hperm.mem_iff.mpr
    rcases Threads.getElem?_append_eq_some.mp hc with hc | ⟨rfl, -⟩
    · exact List.mem_append_right _ (h.inFlight t c hc hun)
    · exact List.mem_cons_self
  · obtain ⟨others, hold, hset⟩ :=
      exists_texts_set { p with call := some s.send.calls.length } hp
    have hbegun : begunBy { p with call := some s.send.calls.length } =
        begunBy p ++ [messageText (p.nStart + p.i)] := by
      simp [begunBy, hidle, List.range_succ]
    rw [hbegun] at hset
    rw [List.map_append]
    refine ((h.texts.trans hold).append_right _).trans ?_
    refine List.Perm.trans ?_ hset.symm
    rw [List.append_assoc, List.append_assoc]
    exact List.perm_append_comm.append_left _

/-- A thread comes back from `sendmessage`. -/
theorem Orderly.back {b : Bool} (h : Orderly n s) (hp : s.threads[k]? = some p)
    (ht : p.call = some t) (hc : s.send.calls[t]? = some c)
    (hreturned : c.pc = .ended (.returned b)) :
    Orderly n { s with threads := s.threads.set k { p with i := p.i + 1, call := none } } := by
  have hperm := Threads.filterMap_set_perm
    (b := { p with i := p.i + 1, call := none }) ProducerThread.call hp
  rw [ht] at hperm
  have hcount : p.i + 1 ≤ nMessageCnt := by
    have := h.bounds p (List.mem_of_getElem? hp)
    simpa [ht] using this
  constructor
  · refine (Threads.map_set_eq hp ?_).trans h.starts
    rfl
  · intro q hq
    rcases List.mem_or_eq_of_mem_set hq with hq | rfl
    · exact h.bounds q hq
    · exact hcount
  · intro i x hx hun
    have hmem := hperm.mem_iff.mpr (h.inFlight i x hx hun)
    apply (List.mem_cons.mp hmem).resolve_left
    rintro rfl
    rw [hc, Option.some.injEq] at hx
    rw [← hx] at hun
    unfold unreturned at hun
    rw [hreturned] at hun
    cases hun
  · obtain ⟨others, hold, hset⟩ :=
      exists_texts_set { p with i := p.i + 1, call := none } hp
    have hbegun : begunBy { p with i := p.i + 1, call := none } = begunBy p := by
      simp [begunBy, ht]
    rw [hbegun] at hset
    exact (h.texts.trans hold).trans hset.symm

/-- A call makes a step. -/
theorem Orderly.act {send : SendSystem} {r : Reply} (h : Orderly n s)
    (hsend : s.send.step (.act t r) = some send) : Orderly n { s with send := send } := by
  obtain ⟨c, g', c', hc, hcall, rfl⟩ := act_eq_some hsend
  have hmsg := strMessage_step hcall
  refine ⟨h.starts, h.bounds, ?_, ?_⟩
  · intro i x hx hun
    rcases (Threads.getElem?_set_eq_some hc).mp hx with ⟨rfl, rfl⟩ | ⟨-, hx⟩
    · exact h.inFlight i c hc (unreturned_of_step hcall)
    · exact h.inFlight i x hx hun
  · show ((s.send.calls.set t c').map Call.strMessage).Perm _
    rw [Threads.map_set_eq hc hmsg]
    exact h.texts

/-! ## What has been sent -/

/-- A step that has a send accepted is a step of a call that has sent nothing. -/
theorem accepted_of_move (hmove : Move t g c g' c') :
    g'.accepted = g.accepted ∨ verdict c = some false := by
  cases hmove with
  | before _ _ hsame => exact .inl hsame.accepted
  | create => exact .inl rfl
  | unlockCreate _ hsame => exact .inl hsame.accepted
  | overflow _ _ hsame => exact .inl hsame.accepted
  | producer hpc hk hmove =>
      right
      apply verdict_sending hpc
      cases hmove with
      | item _ _ _ _ _ hpc => exact hpc
      | _ => nofun
  | sent _ hsame => exact .inl hsame.accepted
  | closing _ _ hsame => exact .inl hsame.accepted
  | free => exact .inl rfl
  | unlockFree _ hsame => exact .inl hsame.accepted

/-- **No call sends twice.** -/
theorem sentOnce_step {send send' : SendSystem} {b : SendAction} (howned : Owned m d send)
    (hfaithful : SendsFaithfully d send) (h : (send.shared.accepted.map Prod.fst).Nodup)
    (hstep : send.step b = some send') : (send'.shared.accepted.map Prod.fst).Nodup := by
  cases b with
  | begin msg =>
      cases hstep
      exact h
  | act t r =>
      obtain ⟨c, g', c', hc, hcall, rfl⟩ := act_eq_some hstep
      have hmove := howned.move hc hcall
      have hcfaithful := hfaithful.calls t c hc
      obtain ⟨-, hext, -⟩ := move_faithful howned.slots howned.configured
        (fun _ hk => mem_held hc hk) hcfaithful hmove
      rcases accepted_of_move hmove with hsame | hverdict
      · rw [hsame]
        exact h
      · rcases hext.accepted with hsame | ⟨-, happ⟩
        · rw [hsame]
          exact h
        · have hnone : acceptedBy send.shared t = [] := hcfaithful.sends false hverdict
          show (g'.accepted.map Prod.fst).Nodup
          rw [happ, List.map_append, List.map_singleton, List.nodup_append]
          refine ⟨h, List.nodup_singleton t, ?_⟩
          intro i hi j hj hij
          rw [List.mem_singleton.mp hj] at hij
          obtain ⟨x, hx, rfl⟩ := List.mem_map.mp hi
          have hmem : x.2 ∈ acceptedBy send.shared t :=
            List.mem_map_of_mem (List.mem_filter.mpr ⟨hx, by simpa using hij⟩)
          rw [hnone] at hmem
          cases hmem

/-! ## The texts -/

theorem messageText_injective : Function.Injective messageText := by
  intro i j h
  exact Nat.repr_injective ((String.append_right_inj _).mp h)

/-- All texts of `n` threads. -/
def allTexts (n : ℕ) : List String := (List.range (nMessageCnt * n)).map messageText

/-- The texts of `n` threads, thread by thread. -/
theorem allTexts_eq (n : ℕ) :
    ((List.range n).map (nMessageCnt * ·)).flatMap
        (fun a => (List.range nMessageCnt).map fun i => messageText (a + i)) = allTexts n := by
  induction n with
  | zero => rfl
  | succ n ih =>
      have hlast : allTexts (n + 1) = allTexts n ++
          (List.range nMessageCnt).map fun i => messageText (nMessageCnt * n + i) := by
        unfold allTexts
        rw [Nat.mul_succ, List.range_add, List.map_append, List.map_map]
        rfl
      rw [List.range_succ, List.map_append, List.flatMap_append, ih, hlast]
      simp

/-- What the threads have begun to send are texts of theirs. -/
theorem Orderly.begun_sublist (h : Orderly n s) :
    (s.threads.flatMap begunBy).Sublist (allTexts n) := by
  rw [← allTexts_eq, ← h.starts, List.flatMap_map]
  apply List.Sublist.flatMap_right
  intro p hp
  exact (List.range_sublist.mpr (h.bounds p hp)).map _

/-- When all threads are through their loops, they have begun to send all texts. -/
theorem Orderly.begun_eq (h : Orderly n s) (hdone : ∀ p ∈ s.threads, p.i = nMessageCnt) :
    s.threads.flatMap begunBy = allTexts n := by
  rw [← allTexts_eq, ← h.starts, List.flatMap_map]
  apply List.flatMap_congr
  intro p hp
  have hbound := h.bounds p hp
  have hi := hdone p hp
  have hcall : p.call.toList.length = 0 := by omega
  unfold begunBy
  rw [hcall, hi, Nat.add_zero]

/-- When all threads are through their loops, all calls have returned. -/
theorem Orderly.returned_of_done (h : Orderly n s)
    (hdone : ∀ p ∈ s.threads, p.i = nMessageCnt) (hc : s.send.calls[t]? = some c) :
    unreturned c = false := by
  rw [← Bool.not_eq_true]
  intro hun
  obtain ⟨p, hp, hcall⟩ := List.mem_filterMap.mp (h.inFlight t c hc hun)
  have hbound := h.bounds p hp
  have hi := hdone p hp
  rw [hcall] at hbound
  simp only [Option.toList_some, List.length_singleton] at hbound
  omega

theorem ended_of_returned (h : unreturned c = false) : ∃ b, c.pc = .ended (.returned b) := by
  unfold unreturned at h
  split at h
  · rename_i b hpc
    exact ⟨b, hpc⟩
  · cases h

/-- The text of the call `t`. -/
def textOfCall (s : Example) (t : ℕ) : String := ((s.send.calls[t]?).map Call.strMessage).getD ""

/-- What has been sent are texts of calls. -/
theorem bodies_eq (hfaithful : SendsFaithfully d s.send) :
    (s.send.shared.accepted.map fun x => x.2.body) =
      (s.send.shared.accepted.map Prod.fst).map (textOfCall s) := by
  rw [List.map_map]
  apply List.map_congr_left
  intro x hx
  obtain ⟨c, hc, -, hsent⟩ := hfaithful.accepted x hx
  simp [textOfCall, hc, hsent]

theorem range_map_textOfCall (s : Example) :
    (List.range s.send.calls.length).map (textOfCall s) = s.send.calls.map Call.strMessage := by
  apply List.ext_getElem?
  intro i
  by_cases hi : i < s.send.calls.length
  · simp [hi, textOfCall]
  · simp [hi]

/-! ## The invariant -/

/-- What holds in every state of the program. -/
structure Underway (n m : ℕ) (d : Destination) (s : Example) : Prop where
  owned : Owned m d s.send
  roomy : Roomy m s.send
  faithful : SendsFaithfully d s.send
  once : (s.send.shared.accepted.map Prod.fst).Nodup
  orderly : Orderly n s

/-- **The step lemma.** -/
theorem underway_step (hn : n ≤ m) (h : Underway n m d s) (hstep : s.step a = some s') :
    Underway n m d s' := by
  cases exampleMove_of_step hstep with
  | @call k p send hp hidle hi hsend =>
      have hroom : RoomFor m s.send (.begin (messageText (p.nStart + p.i))) :=
        roomFor_call h.orderly hn hp hidle
      exact ⟨owned_step h.owned hsend, roomy_step h.owned h.roomy hroom hsend,
        sendsFaithfully_step h.owned h.faithful hsend, sentOnce_step h.owned h.faithful h.once hsend,
        h.orderly.call hp hidle hi hsend⟩
  | back hp ht hc hreturned =>
      exact ⟨h.owned, h.roomy, h.faithful, h.once, h.orderly.back hp ht hc hreturned⟩
  | @act t r send hsend =>
      have hroom : RoomFor m s.send (.act t r) := trivial
      exact ⟨owned_step h.owned hsend, roomy_step h.owned h.roomy hroom hsend,
        sendsFaithfully_step h.owned h.faithful hsend, sentOnce_step h.owned h.faithful h.once hsend,
        h.orderly.act hsend⟩

/-- No library call fails. -/
def unfailing : ExampleAction → Bool
  | .act _ r => !failed r
  | _ => true

/-- The step lemma when no library call fails. -/
theorem succeeding_exampleStep (hn : n ≤ m) (h : Underway n m d s) (hs : Succeeding m d s.send)
    (hok : unfailing a = true) (hstep : s.step a = some s') : Succeeding m d s'.send := by
  cases exampleMove_of_step hstep with
  | @call k p send hp hidle hi hsend =>
      have hroom : RoomFor m s.send (.begin (messageText (p.nStart + p.i))) :=
        roomFor_call h.orderly hn hp hidle
      refine succeeding_step hs hroom ?_ hsend
      simp [succeeds, messageText]
  | back hp ht hc hreturned => exact hs
  | @act t r send hsend =>
      have hroom : RoomFor m s.send (.act t r) := trivial
      exact succeeding_step hs hroom hok hsend

/-- The program is about to start. -/
theorem underway_init {w₀ w : MgrWorld} {cr : CreateCall}
    {modes : SessionId → Destination → DeliveryMode} (hcreated : CreatedBy w₀ cr w) (n : ℕ) :
    Underway n (min cr.nPoolSize.toNat 50) (givenDestination w₀.mgr cr)
      (.init n w modes) := by
  refine ⟨owned_of_run hcreated (SendSystem.machine.run_nil (.init w modes)),
    ⟨by simp [Example.init, SendSystem.init], by simp [Example.init, SendSystem.init]⟩,
    ⟨by simp [Example.init, SendSystem.init], by simp [Example.init, SendSystem.init]⟩,
    List.nodup_nil, ⟨?_, ?_, ?_, ?_⟩⟩
  · simp [Example.init]
  · intro p hp
    obtain ⟨k, -, rfl⟩ := List.mem_map.mp hp
    exact Nat.zero_le _
  · intro t c hc
    cases hc
  · have hnone : (Example.init n w modes).threads.flatMap begunBy = [] := by
      rw [List.flatMap_eq_nil_iff]
      intro p hp
      obtain ⟨k, -, rfl⟩ := List.mem_map.mp hp
      rfl
    rw [hnone]
    exact List.Perm.refl _

/-! ## The program -/

/-- When every call has sent exactly once, what has been sent are the texts of the calls. -/
theorem Underway.bodies_perm (h : Underway n m d s)
    (hall : ∀ (t : ℕ) c, s.send.calls[t]? = some c → acceptedBy s.send.shared t ≠ []) :
    (s.send.shared.accepted.map fun x => x.2.body).Perm (s.threads.flatMap begunBy) := by
  have hcalls : (s.send.shared.accepted.map Prod.fst).Perm (List.range s.send.calls.length) := by
    rw [List.perm_ext_iff_of_nodup h.once List.nodup_range]
    intro t
    rw [List.mem_range]
    constructor
    · intro ht
      obtain ⟨x, hx, rfl⟩ := List.mem_map.mp ht
      obtain ⟨c, hc, -⟩ := h.faithful.accepted x hx
      exact (List.getElem?_eq_some_iff.mp hc).1
    · intro ht
      obtain ⟨y, hy⟩ := List.exists_mem_of_ne_nil _ (hall t _ (List.getElem?_eq_getElem ht))
      obtain ⟨x, hx, -⟩ := List.mem_map.mp hy
      obtain ⟨hx, hxt⟩ := List.mem_filter.mp hx
      exact List.mem_map.mpr ⟨x, hx, by simpa using hxt⟩
  rw [bodies_eq h.faithful]
  refine (hcalls.map (textOfCall s)).trans ?_
  rw [range_map_textOfCall]
  exact h.orderly.texts

/-- What has been sent are texts of the program, each at most once. -/
theorem Underway.bodies_subperm (h : Underway n m d s) :
    (s.send.shared.accepted.map fun x => x.2.body).Subperm (allTexts n) := by
  have hcalls : (s.send.shared.accepted.map Prod.fst).Subperm
      (List.range s.send.calls.length) := by
    apply List.subperm_of_subset h.once
    intro t ht
    obtain ⟨x, hx, rfl⟩ := List.mem_map.mp ht
    obtain ⟨c, hc, -⟩ := h.faithful.accepted x hx
    exact List.mem_range.mpr (List.getElem?_eq_some_iff.mp hc).1
  obtain ⟨l, hperm, hsub⟩ := hcalls
  have hbodies : ((s.send.shared.accepted.map Prod.fst).map (textOfCall s)).Subperm
      ((List.range s.send.calls.length).map (textOfCall s)) :=
    ⟨l.map (textOfCall s), hperm.map _, hsub.map _⟩
  rw [bodies_eq h.faithful]
  refine hbodies.trans ?_
  rw [range_map_textOfCall]
  exact h.orderly.texts.subperm.trans h.orderly.begun_sublist.subperm

/-- **The sample program sends its messages.**  `n` threads, at most as many as the created pool has
producers, in any interleaving and with any outcomes of the library calls: no call is left without a
producer, every accepted text is one of the `10 * n` texts, and none is accepted twice.  If the pool
was connected before and no library call fails, every call that has ended has returned true, and
when all threads are through, the accepted texts are all texts, each once. -/
theorem example_sends_all {w₀ w : MgrWorld} {cr : CreateCall}
    {modes : SessionId → Destination → DeliveryMode} {as : List ExampleAction} {s : Example}
    (hcreated : CreatedBy w₀ cr w) (hn : n ≤ min cr.nPoolSize.toNat 50)
    (hrun : Example.machine.run (.init n w modes) as = some s) :
    (∀ c ∈ s.send.calls, c.pc ≠ .closeOverflow) ∧
      (s.send.shared.accepted.map fun x => x.2.body).Nodup ∧
      (∀ x ∈ s.send.shared.accepted, x.2.body ∈ allTexts n) ∧
      (SessionsReady w → (∀ a ∈ as, unfailing a = true) →
        (∀ c ∈ s.send.calls, ∀ result, c.pc = .ended result → result = .returned true) ∧
        ((∀ p ∈ s.threads, p.i = nMessageCnt) →
          (s.send.shared.accepted.map fun x => x.2.body).Perm (allTexts n))) := by
  have hinit : Underway n (min cr.nPoolSize.toNat 50) (givenDestination w₀.mgr cr)
      (.init n w modes) := underway_init hcreated n
  have hstep : ∀ s a s', Underway n (min cr.nPoolSize.toNat 50) (givenDestination w₀.mgr cr) s →
      Example.machine.step s a = some s' →
      Underway n (min cr.nPoolSize.toNat 50) (givenDestination w₀.mgr cr) s' :=
    fun s a s' h hstep => underway_step hn h hstep
  have h := Machine.run_inv hstep hinit hrun
  have hsub := h.bodies_subperm
  refine ⟨?_, ?_, ?_, ?_⟩
  · intro c hc
    obtain ⟨t, ht⟩ := List.getElem?_of_mem hc
    exact (h.roomy.served t c ht).1
  · obtain ⟨l, hperm, hl⟩ := hsub
    rw [← hperm.nodup_iff]
    exact (List.nodup_range.map messageText_injective).sublist hl
  · intro x hx
    exact hsub.subset (List.mem_map_of_mem hx)
  · intro hready hok
    have hboth : Underway n (min cr.nPoolSize.toNat 50) (givenDestination w₀.mgr cr) s ∧
        Succeeding (min cr.nPoolSize.toNat 50) (givenDestination w₀.mgr cr) s.send := by
      refine Machine.run_inv_of_meets (I := fun s => Underway n _ _ s ∧ Succeeding _ _ s.send)
        (P := fun _ a => unfailing a = true) ?_ ⟨hinit, hinit.owned, hinit.roomy, hready, ?_⟩
        (Machine.meets_of_forall _ fun a ha _ => hok a ha) hrun
      · intro s a s' h hok hstep
        exact ⟨underway_step hn h.1 hstep, succeeding_exampleStep hn h.1 h.2 hok hstep⟩
      · simp [Example.init, SendSystem.init]
    have htrue : ∀ (t : ℕ) c, s.send.calls[t]? = some c → ∀ result, c.pc = .ended result →
        result = .returned true := by
      intro t c hc result hended
      have htrack := (hboth.2.onTrack t c hc).2
      rw [hended] at htrack
      exact htrack
    refine ⟨?_, ?_⟩
    · intro c hc
      obtain ⟨t, ht⟩ := List.getElem?_of_mem hc
      exact htrue t c ht
    · intro hdone
      rw [← h.orderly.begun_eq hdone]
      apply h.bodies_perm
      intro t c hc
      have hreturned := h.orderly.returned_of_done hdone hc
      obtain ⟨b, hended⟩ := ended_of_returned hreturned
      have hverdict : verdict c = some true := by
        have hb := htrue t c hc _ hended
        rw [hb] at hended
        simp [verdict, hended]
      rw [(h.faithful.calls t c hc).sends true hverdict]
      exact List.cons_ne_nil _ _

/-- The only thread makes its `t`-th call and comes back from it; the first call makes the
destination. -/
def sendNext (t : ℕ) : List ExampleAction :=
  [.call 0, .act t .tau, .act t .tau, .act t (.session (.ok (some 7)))] ++
  List.replicate 5 (.act t .tau) ++
  List.replicate (if t = 0 then 5 else 4) (.act t (.call (.ok ()))) ++
  [.act t .tau, .act t (.call (.ok ())), .act t .tau, .act t .tau, .act t .tau, .back 0]

theorem example_sends_all_one_thread :
    ∃ s, Example.machine.run (.init 1 oneProducer fun _ _ => .nonPersistent)
        ((List.range 10).flatMap sendNext) = some s ∧
      (s.send.shared.accepted.map fun x => x.2.body).Perm (allTexts 1) := by
  have hthreads : (Example.machine.run (.init 1 oneProducer fun _ _ => .nonPersistent)
      ((List.range 10).flatMap sendNext)).map Example.threads = some [⟨0, 10, none⟩] := by
    decide +kernel
  obtain ⟨s, hrun, hs⟩ := Option.map_eq_some_iff.mp hthreads
  obtain ⟨-, -, -, hall⟩ := example_sends_all oneProducer_createdBy (by decide) hrun
  have hok : ∀ a ∈ (List.range 10).flatMap sendNext, unfailing a = true := by decide +kernel
  refine ⟨s, hrun, (hall ⟨by rfl, by rfl⟩ hok).2 ?_⟩
  rw [hs]
  simp [nMessageCnt]

end DsAmq.Analysis
