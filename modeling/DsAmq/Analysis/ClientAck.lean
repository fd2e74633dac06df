import Mathlib.Data.List.Nodup
import DsAmq.Analysis.DeliverySteps
import DsAmq.Library.AtLeastOnce

/-!
# Client-acknowledge consumption is an at-least-once queue

Any number of consumer loops in client-acknowledge mode, on a broker queue of text messages,
with no call throwing.  An acknowledgement is session-wide, so what has to be shown is that
the session has never more than one message to acknowledge:

* `Settled`: every delivery in flight is the message that the loop body of the session's
  holder is working on right now, and every such message is in flight.  With the sessions
  kept apart (`Exclusive`), an acknowledgement covers exactly the message it is called on.
* `Represents w q`: the abstract queue `q` holds what the broker holds, less the messages
  whose `process` call has returned `QUEUE_REMOVE` and whose acknowledgement is the next
  call of their task.  This is a forward simulation by the at-least-once queue, in which the
  visible steps are the `process` calls that return (`simulation`).
-/

set_option autoImplicit false

namespace DsAmq.Analysis

open DsAmq.Library DsAmq.Model

/-- No call throws, and every task is in client-acknowledge mode. -/
def Quiet : Action → Prop
  | .spawn c => c.bclientack = true
  | .act _ e => e.throws = false

instance : DecidablePred Quiet := fun a =>
  match a with
  | .spawn c => inferInstanceAs (Decidable (c.bclientack = true))
  | .act _ e => inferInstanceAs (Decidable (e.throws = false))

/-- What a step shows of the queue: the `process` calls that return. -/
def processed : Action → List (AtLeastOnce.Processed Message String)
  | .act _ (.process m text (.returns ar)) => [⟨m, text, decide (ar = .queueRemove)⟩]
  | _ => []

/-- A client-acknowledge run that only handles text messages: `process` gets the message's
own text, and the branch for other messages is not taken. -/
def TextRun (r : Run) : Prop :=
  r.consumer.bclientack = true ∧
    match r.pc with
    | .process m text => m.body = .text text
    | .acknowledgeOther _ => False
    | _ => True

theorem textRun_step {r r' : Run} {e : Event} (h : TextRun r) (hs : r.step e = some r')
    (ht : ∀ m, e = .receive (.ok (some m)) → m.isText = true) : TextRun r' := by
  refine ⟨(Run.step_bclientack hs).trans h.1, ?_⟩
  cases hpc : r.pc with
  | takeSession =>
      obtain ⟨msg, -, rfl⟩ | ⟨s, -, rfl⟩ := (Run.step_takeSession hpc).mp hs
      · trivial
      · cases hd : r.consumer.destination <;> simp [Run.afterTakeSession, hd]
  | createDestination =>
      obtain ⟨d, -, ⟨-, rfl⟩ | ⟨msg, -, rfl⟩⟩ := (Run.step_createDestination hpc).mp hs <;>
        trivial
  | createCachedConsumer =>
      obtain ⟨-, rfl⟩ | ⟨msg, -, rfl⟩ := (Run.step_createCachedConsumer hpc).mp hs <;> trivial
  | isrun =>
      obtain ⟨b, -, rfl⟩ := (Run.step_isrun hpc).mp hs
      cases b <;> trivial
  | receive =>
      obtain ⟨-, rfl⟩ | ⟨m, he, rfl⟩ | ⟨msg, -, rfl⟩ := (Run.step_receive hpc).mp hs
      · trivial
      · rw [ht m he]
        trivial
      · trivial
  | getText m =>
      obtain ⟨text, -, hb, rfl⟩ | ⟨msg, -, rfl⟩ := (Run.step_getText hpc).mp hs
      · exact hb
      · trivial
  | acknowledgeOther m =>
      have hno := h.2
      rw [hpc] at hno
      exact hno.elim
  | process m text =>
      obtain ⟨ar, -, rfl⟩ | ⟨msg, -, rfl⟩ | ⟨-, rfl⟩ := (Run.step_process hpc).mp hs
      · cases ar <;> simp [h.1]
      · trivial
      · trivial
  | acknowledge m =>
      obtain ⟨o, -, rfl⟩ := (Run.step_acknowledge hpc).mp hs
      cases o <;> trivial
  | recover m =>
      obtain ⟨o, -, rfl⟩ := (Run.step_recover hpc).mp hs
      cases o <;> trivial
  | close =>
      obtain ⟨o, -, rfl⟩ := (Run.step_close hpc).mp hs
      cases o <;> trivial
  | returned => simp [Run.step_ended (Or.inl hpc)] at hs
  | threw => simp [Run.step_ended (Or.inr hpc)] at hs

/-- Every delivery in flight is being worked on by the holder of its session. -/
structure Settled (w : World) : Prop where
  nodup : w.broker.Nodup
  text : ∀ m ∈ w.broker, m.isText = true
  run : ∀ (i : ℕ) (r : Run), w.tasks[i]? = some r → TextRun r
  worked : ∀ p ∈ w.inflight, ∃ (i : ℕ) (r : Run), w.tasks[i]? = some r ∧
    r.held = some p.1 ∧ r.delivered = some p.2
  working : ∀ (i : ℕ) (r : Run), w.tasks[i]? = some r → ∀ m, r.delivered = some m →
    ∃ s, r.held = some s ∧ (s, m) ∈ w.inflight
  stored : ∀ p ∈ w.inflight, p.2 ∈ w.broker
  once : ∀ s s' m, (s, m) ∈ w.inflight → (s', m) ∈ w.inflight → s = s'

theorem settled_init {broker : List Message} (hn : broker.Nodup)
    (ht : ∀ m ∈ broker, m.isText = true) : Settled (World.init broker) where
  nodup := hn
  text := ht
  run i r h := by simp [World.init] at h
  worked p h := by simp [World.init] at h
  working i r h := by simp [World.init] at h
  stored p h := by simp [World.init] at h
  once s s' m h := by simp [World.init] at h

/-- Two tasks that work on the same message are the same task. -/
theorem same_task {w : World} (hw : Settled w) (hx : Exclusive w) {i j : ℕ} {r r' : Run}
    {m : Message} (hi : w.tasks[i]? = some r) (hj : w.tasks[j]? = some r')
    (hr : r.delivered = some m) (hr' : r'.delivered = some m) : i = j := by
  obtain ⟨s, hs, hin⟩ := hw.working i r hi m hr
  obtain ⟨s', hs', hin'⟩ := hw.working j r' hj m hr'
  obtain rfl := hw.once s s' m hin hin'
  exact hx.one i r hi j r' hj s hs hs'

/-- The session of a task has nothing in flight but the message the task works on. -/
theorem inflight_of_held {w : World} (hw : Settled w) (hx : Exclusive w) {i : ℕ} {r : Run}
    {s : SessionId} {m : Message} (hi : w.tasks[i]? = some r) (hs : r.held = some s)
    (hm : (s, m) ∈ w.inflight) : r.delivered = some m := by
  obtain ⟨j, r', hj, hs', hd⟩ := hw.worked (s, m) hm
  obtain rfl := hx.one i r hi j r' hj s hs hs'
  rw [Option.some.inj (hi.symm.trans hj)]
  exact hd

/-! ## Each kind of step keeps the deliveries settled -/

section Steps

variable {w : World} {t : ℕ} {r r' : Run}

theorem settled_spawn (hw : Settled w) {c : Consumer} (hc : c.bclientack = true) :
    Settled { w with tasks := w.tasks ++ [Run.start c] } where
  nodup := hw.nodup
  text := hw.text
  run := Threads.forall_append ⟨hc, trivial⟩ hw.run
  worked p hp := by
    obtain ⟨i, r, hi, h⟩ := hw.worked p hp
    exact ⟨i, r, Threads.getElem?_append_eq_some.mpr (Or.inl hi), h⟩
  working := Threads.forall_append (fun m hm => by cases hm) hw.working
  stored := hw.stored
  once := hw.once

/-- A step that changes neither the broker nor what is in flight, and leaves the task at the
same message. -/
theorem settled_frame (hw : Settled w) (hr : w.tasks[t]? = some r) (hrun : TextRun r')
    (hd : r'.delivered = r.delivered) (hh : r.delivered = none ∨ r'.held = r.held)
    (taken : List SessionId) : Settled { w with taken := taken, tasks := w.tasks.set t r' } where
  nodup := hw.nodup
  text := hw.text
  run := Threads.forall_set hr hrun fun i x _ hx => hw.run i x hx
  worked p hp := by
    obtain ⟨i, x, hi, hxs, hxd⟩ := hw.worked p hp
    by_cases hit : i = t
    · subst hit
      obtain rfl := Option.some.inj (hi.symm.trans hr)
      have hh : r'.held = x.held := by
        rcases hh with h | h
        · rw [hxd] at h
          cases h
        · exact h
      exact ⟨i, r', (Threads.getElem?_set_eq_some hr).mpr (Or.inl ⟨rfl, rfl⟩),
        hh.trans hxs, hd.trans hxd⟩
    · exact ⟨i, x, (Threads.getElem?_set_eq_some hr).mpr (Or.inr ⟨hit, hi⟩), hxs, hxd⟩
  working := by
    refine Threads.forall_set hr ?_ fun i x _ hx => hw.working i x hx
    intro m hm
    have hm' : r.delivered = some m := hd ▸ hm
    obtain ⟨s, hs, hin⟩ := hw.working t r hr m hm'
    rcases hh with h | h
    · rw [hm'] at h
      cases h
    · exact ⟨s, h.trans hs, hin⟩
  stored := hw.stored
  once := hw.once

/-- A delivery puts the message in flight on the session of the task. -/
theorem settled_deliver (hw : Settled w) (hr : w.tasks[t]? = some r) (hrun : TextRun r')
    {s : SessionId} {m : Message} (hd : r.delivered = none) (hs' : r'.held = some s)
    (hd' : r'.delivered = some m) (hm : m ∈ w.broker) (hfree : ∀ p ∈ w.inflight, p.2 ≠ m) :
    Settled { w with inflight := w.inflight ++ [(s, m)], tasks := w.tasks.set t r' } where
  nodup := hw.nodup
  text := hw.text
  run := Threads.forall_set hr hrun fun i x _ hx => hw.run i x hx
  worked p hp := by
    rcases List.mem_append.mp hp with hp | hp
    · obtain ⟨i, x, hi, hxs, hxd⟩ := hw.worked p hp
      refine ⟨i, x, (Threads.getElem?_set_eq_some hr).mpr (Or.inr ⟨?_, hi⟩), hxs, hxd⟩
      rintro rfl
      obtain rfl := Option.some.inj (hi.symm.trans hr)
      rw [hxd] at hd
      cases hd
    · obtain rfl := List.mem_singleton.mp hp
      exact ⟨t, r', (Threads.getElem?_set_eq_some hr).mpr (Or.inl ⟨rfl, rfl⟩), hs', hd'⟩
  working := by
    refine Threads.forall_set hr ?_ fun i x _ hx m' hm' => ?_
    · intro m' hm'
      obtain rfl := Option.some.inj (hm'.symm.trans hd')
      exact ⟨s, hs', List.mem_append.mpr (Or.inr (List.mem_singleton.mpr rfl))⟩
    · obtain ⟨s', hs', hin⟩ := hw.working i x hx m' hm'
      exact ⟨s', hs', List.mem_append.mpr (Or.inl hin)⟩
  stored p hp := by
    rcases List.mem_append.mp hp with hp | hp
    · exact hw.stored p hp
    · obtain rfl := List.mem_singleton.mp hp
      exact hm
  once s₁ s₂ m' h₁ h₂ := by
    simp only [List.mem_append, List.mem_singleton, Prod.mk.injEq] at h₁ h₂
    rcases h₁ with h₁ | ⟨rfl, rfl⟩ <;> rcases h₂ with h₂ | ⟨rfl, h₂⟩
    · exact hw.once s₁ s₂ m' h₁ h₂
    · subst h₂
      exact (hfree _ h₁ rfl).elim
    · exact (hfree _ h₂ rfl).elim
    · rfl

/-- An acknowledgement or a recover of the session leaves nothing in flight on it; the
broker may lose messages that were in flight there. -/
theorem settled_release (hw : Settled w) (hx : Exclusive w) (hr : w.tasks[t]? = some r)
    (hrun : TextRun r') {s : SessionId} (hs : r.held = some s) (hd' : r'.delivered = none)
    {broker : List Message} (hsub : broker.Sublist w.broker)
    (hkeep : ∀ m ∈ w.broker, (s, m) ∉ w.inflight → m ∈ broker) :
    Settled { w with broker := broker, inflight := w.inflight.filter (fun p => p.1 ≠ s),
                     tasks := w.tasks.set t r' } where
  nodup := hw.nodup.sublist hsub
  text m hm := hw.text m (hsub.subset hm)
  run := Threads.forall_set hr hrun fun i x _ hx => hw.run i x hx
  worked p hp := by
    rw [List.mem_filter, decide_eq_true_eq] at hp
    obtain ⟨i, x, hi, hxs, hxd⟩ := hw.worked p hp.1
    refine ⟨i, x, (Threads.getElem?_set_eq_some hr).mpr (Or.inr ⟨?_, hi⟩), hxs, hxd⟩
    rintro rfl
    obtain rfl := Option.some.inj (hi.symm.trans hr)
    exact hp.2 (Option.some.inj (hxs.symm.trans hs))
  working := by
    refine Threads.forall_set hr (fun m hm => ?_) fun i x hi hxi m hm => ?_
    · rw [hd'] at hm
      cases hm
    · obtain ⟨s', hs', hin⟩ := hw.working i x hxi m hm
      refine ⟨s', hs', List.mem_filter.mpr ⟨hin, decide_eq_true ?_⟩⟩
      rintro rfl
      exact hi (hx.one i x hxi t r hr s' hs' hs)
  stored p hp := by
    rw [List.mem_filter, decide_eq_true_eq] at hp
    refine hkeep p.2 (hw.stored p hp.1) fun hin => hp.2 ?_
    exact hw.once p.1 s p.2 hp.1 hin
  once s₁ s₂ m h₁ h₂ :=
    hw.once s₁ s₂ m (List.mem_filter.mp h₁).1 (List.mem_filter.mp h₂).1

/-- The message and the session of a task are the same before and after a `process` call
that returns, in client-acknowledge mode. -/
theorem process_frame {m : Message} {text : String} {ar : AckResult}
    (hack : r.consumer.bclientack = true) (hpc : r.pc = .process m text)
    (hr' : r' = { r with
      pc :=
        if r.consumer.bclientack then
          if ar = .queueRemove then .acknowledge m else .recover m
        else .isrun }) :
    r'.delivered = r.delivered ∧ r'.held = r.held ∧
      acking r' = if ar = .queueRemove then some m else none := by
  subst hr'
  cases ar <;> simp [hack, hpc, Run.delivered, Run.held, acking]

end Steps

/-- Every quiet step keeps the deliveries settled. -/
theorem settled_step {w w' : World} {a : Action} (hw : Settled w) (hx : Exclusive w)
    (ha : Quiet a) (h : w.step a = some w') : Settled w' := by
  cases a with
  | spawn c =>
      simp only [World.step, Option.some.injEq] at h
      exact h ▸ settled_spawn hw ha
  | act t e =>
      obtain ⟨r, r', w₁, hr, hstep, hk, rfl⟩ := step_act h
      have hrun : TextRun r' := by
        refine textRun_step (hw.run t r hr) hstep ?_
        rintro m rfl
        cases hk with
        | silent _ he => cases he
        | deliver s _ _ _ _ _ _ _ hm => exact hw.text m hm
        | abandon _ _ he => cases he
      cases hk with
      | take s hs hr0 hd ha0 hr' hd' =>
          exact settled_frame hw hr hrun (hd'.trans hd.symm) (Or.inl hd) _
      | silent _ _ hh hd => exact settled_frame hw hr hrun hd (Or.inr hh) w.taken
      | deliver s m hs hd _ hs' hd' _ hm hfree =>
          exact settled_deliver hw hr hrun hd hs' hd' hm hfree
      | process m text ar hpc hr' =>
          obtain ⟨hd, hh, -⟩ := process_frame (hw.run t r hr).1 hpc hr'
          exact settled_frame hw hr hrun hd (Or.inr hh) w.taken
      | acknowledge s m hs hpc hr' =>
          refine settled_release hw hx hr hrun hs (by rw [hr']; rfl) List.filter_sublist ?_
          intro m' hm' hnot
          exact List.mem_filter.mpr ⟨hm', decide_eq_true hnot⟩
      | acknowledgeOther s m hs hpc hr' =>
          have hno := (hw.run t r hr).2
          rw [hpc] at hno
          exact hno.elim
      | recover s m hs hpc hr' =>
          exact settled_release hw hx hr hrun hs (by rw [hr']; rfl) (List.Sublist.refl _)
            fun m' hm' _ => hm'
      | close s hs hpc hr' =>
          have hd : r.delivered = none := by simp [Run.delivered, hpc]
          exact settled_frame hw hr hrun (by rw [hd, hr']; rfl) (Or.inl hd) _
      | abandon _ _ he => exact absurd he (by rw [show e.throws = false from ha]; decide)

/-! ## The simulation -/

/-- Some task is about to acknowledge the message. -/
def acked (w : World) (m : Message) : Bool :=
  w.tasks.any fun r => decide (acking r = some m)

theorem acked_iff {w : World} {m : Message} :
    acked w m = true ↔ ∃ (i : ℕ) (r : Run), w.tasks[i]? = some r ∧ acking r = some m := by
  simp only [acked, List.any_eq_true, decide_eq_true_eq]
  constructor
  · rintro ⟨r, hr, hm⟩
    obtain ⟨i, hi⟩ := List.mem_iff_getElem?.mp hr
    exact ⟨i, r, hi, hm⟩
  · rintro ⟨i, r, hi, hm⟩
    exact ⟨r, List.mem_iff_getElem?.mpr ⟨i, hi⟩, hm⟩

/-- A message about to be acknowledged is one the task works on. -/
theorem delivered_of_acking {r : Run} {m : Message} (h : acking r = some m) :
    r.delivered = some m := by
  cases hpc : r.pc <;> simp [acking, hpc, Run.delivered] at h ⊢
  exact h

/-- The acknowledgements to come after task `t` has moved. -/
theorem acked_set {w w' : World} {t : ℕ} {r r' : Run} {m : Message}
    (hr : w.tasks[t]? = some r) (ht : w'.tasks = w.tasks.set t r') :
    acked w' m = true ↔
      acking r' = some m ∨
        ∃ (i : ℕ) (x : Run), i ≠ t ∧ w.tasks[i]? = some x ∧ acking x = some m := by
  rw [acked_iff, ht]
  constructor
  · rintro ⟨i, x, hx, hm⟩
    rcases (Threads.getElem?_set_eq_some hr).mp hx with ⟨-, rfl⟩ | ⟨hi, hx⟩
    · exact Or.inl hm
    · exact Or.inr ⟨i, x, hi, hx, hm⟩
  · rintro (hm | ⟨i, x, hi, hx, hm⟩)
    · exact ⟨t, r', (Threads.getElem?_set_eq_some hr).mpr (Or.inl ⟨rfl, rfl⟩), hm⟩
    · exact ⟨i, x, (Threads.getElem?_set_eq_some hr).mpr (Or.inr ⟨hi, hx⟩), hm⟩

/-- A task that acknowledges nothing before and after its step changes nothing here. -/
theorem acked_set_of_none {w w' : World} {t : ℕ} {r r' : Run} (hr : w.tasks[t]? = some r)
    (ht : w'.tasks = w.tasks.set t r') (ha : acking r = none) (ha' : acking r' = none)
    (m : Message) : acked w' m = acked w m := by
  rw [Bool.eq_iff_iff, acked_set hr ht, acked_iff]
  constructor
  · rintro (hm | ⟨i, x, -, hx, hm⟩)
    · rw [ha'] at hm
      cases hm
    · exact ⟨i, x, hx, hm⟩
  · rintro ⟨i, x, hx, hm⟩
    refine Or.inr ⟨i, x, ?_, hx, hm⟩
    rintro rfl
    rw [Option.some.inj (hx.symm.trans hr), ha] at hm
    cases hm

/-- What the at-least-once queue holds in the state `w`: a message that is about to be
acknowledged has already left it. -/
def queueOf (w : World) : List Message := w.broker.filter fun m => !acked w m

/-- The abstract queue `q` stands for the state `w`. -/
def Represents (w : World) (q : List Message) : Prop :=
  Settled w ∧ Exclusive w ∧ q = queueOf w

/-- A `process` call that returns is a step of the abstract queue. -/
theorem process_step {w : World} {t : ℕ} {r r' : Run} {m : Message} {text : String}
    {ar : AckResult} (hw : Settled w) (hx : Exclusive w) (hr : w.tasks[t]? = some r)
    (hpc : r.pc = .process m text) (hack : acking r' = if ar = .queueRemove then some m else none) :
    (AtLeastOnce.machine Message.textOf).step (queueOf w)
        ⟨m, text, decide (ar = .queueRemove)⟩ =
      some (queueOf { w with tasks := w.tasks.set t r' }) := by
  have hd : r.delivered = some m := by simp [Run.delivered, hpc]
  have hnone : acking r = none := by simp [acking, hpc]
  obtain ⟨s, -, hin⟩ := hw.working t r hr m hd
  -- no other task works on `m`, so nobody is about to acknowledge it
  have hother : ∀ (i : ℕ) (x : Run), w.tasks[i]? = some x → acking x ≠ some m := by
    intro i x hxi hm
    obtain rfl := same_task hw hx hxi hr (delivered_of_acking hm) hd
    rw [Option.some.inj (hxi.symm.trans hr), hnone] at hm
    cases hm
  have hfree : acked w m = false := by
    rw [Bool.eq_false_iff]
    intro hm
    obtain ⟨i, x, hxi, hm⟩ := acked_iff.mp hm
    exact hother i x hxi hm
  have hmem : m ∈ queueOf w :=
    List.mem_filter.mpr ⟨hw.stored _ hin, by rw [hfree]; rfl⟩
  have htext : m.textOf = text := by
    have h := (hw.run t r hr).2
    rw [hpc] at h
    simp only [Message.textOf, show m.body = .text text from h]
  rw [AtLeastOnce.step_eq_some]
  refine ⟨⟨hmem, htext⟩, ?_⟩
  cases ar with
  | queueRetry =>
      rw [if_neg (by simp)]
      exact List.filter_congr fun x _ =>
        congrArg (!·) (acked_set_of_none hr rfl hnone hack x).symm
  | queueRemove =>
      have hnd : (queueOf w).Nodup := hw.nodup.filter _
      rw [if_pos (by simp), hnd.erase_eq_filter]
      unfold queueOf
      rw [List.filter_filter]
      refine List.filter_congr fun x _ => ?_
      have hacked : acked { w with tasks := w.tasks.set t r' } x = true ↔
          x = m ∨ acked w x = true := by
        rw [acked_set hr rfl, hack, if_pos rfl, Option.some.injEq, acked_iff]
        constructor
        · rintro (rfl | ⟨i, y, -, hy, hm⟩)
          · exact Or.inl rfl
          · exact Or.inr ⟨i, y, hy, hm⟩
        · rintro (rfl | ⟨i, y, hy, hm⟩)
          · exact Or.inl rfl
          · refine Or.inr ⟨i, y, ?_, hy, hm⟩
            rintro rfl
            rw [Option.some.inj (hy.symm.trans hr), hnone] at hm
            cases hm
      by_cases hxm : x = m
      · rw [hacked.mpr (Or.inl hxm), hxm]
        simp
      · have heq : acked { w with tasks := w.tasks.set t r' } x = acked w x := by
          rw [Bool.eq_iff_iff, hacked]
          exact or_iff_right hxm
        rw [heq]
        simp [hxm]

/-- An acknowledgement takes from the broker the message that had left the abstract queue. -/
theorem queueOf_acknowledge {w : World} {t : ℕ} {r r' : Run} {s : SessionId} {m : Message}
    (hw : Settled w) (hx : Exclusive w) (hr : w.tasks[t]? = some r) (hs : r.held = some s)
    (hpc : r.pc = .acknowledge m) (ha' : acking r' = none) :
    queueOf { w with broker := w.broker.filter (fun m => (s, m) ∉ w.inflight),
                     inflight := w.inflight.filter (fun p => p.1 ≠ s),
                     tasks := w.tasks.set t r' } = queueOf w := by
  have hd : r.delivered = some m := by simp [Run.delivered, hpc]
  have hack : acking r = some m := by simp [acking, hpc]
  obtain ⟨s', hs', hin⟩ := hw.working t r hr m hd
  obtain rfl := Option.some.inj (hs.symm.trans hs')
  unfold queueOf
  rw [List.filter_filter]
  refine List.filter_congr fun x _ => ?_
  by_cases hxm : x = m
  · -- `m` itself is in flight here, and about to be acknowledged in `w`
    subst hxm
    have : acked w x = true := acked_iff.mpr ⟨t, r, hr, hack⟩
    simp [hin, this]
  · -- nothing else is in flight on the session
    have hnot : (s, x) ∉ w.inflight := fun h =>
      hxm (Option.some.inj ((inflight_of_held hw hx hr hs h).symm.trans hd))
    have heq : acked { w with broker := w.broker.filter (fun m => (s, m) ∉ w.inflight),
                              inflight := w.inflight.filter (fun p => p.1 ≠ s),
                              tasks := w.tasks.set t r' } x = acked w x := by
      rw [Bool.eq_iff_iff, acked_iff (w := w)]
      refine Iff.trans (acked_set hr rfl) ?_
      rw [ha']
      constructor
      · rintro (h | ⟨i, y, -, hy, hm⟩)
        · cases h
        · exact ⟨i, y, hy, hm⟩
      · rintro ⟨i, y, hy, hm⟩
        refine Or.inr ⟨i, y, ?_, hy, hm⟩
        rintro rfl
        rw [Option.some.inj (hy.symm.trans hr), hack] at hm
        exact hxm (Option.some.inj hm).symm
    rw [heq]
    simp [hnot]

/-- Steps of the other kinds do not touch the broker and acknowledge nothing. -/
theorem queueOf_of_none {w w₁ : World} {t : ℕ} {r r' : Run} (hr : w.tasks[t]? = some r)
    (ha : acking r = none) (ha' : acking r' = none) (hb : w₁.broker = w.broker) :
    queueOf { w₁ with tasks := w.tasks.set t r' } = queueOf w := by
  have hacked : ∀ x, acked { w₁ with tasks := w.tasks.set t r' } x = acked w x :=
    acked_set_of_none hr rfl ha ha'
  unfold queueOf
  simp only [hacked]
  rw [hb]

/-- **The consumers simulate the at-least-once queue.** -/
theorem represents_simulation :
    Machine.Simulation World.machine (AtLeastOnce.machine Message.textOf) Represents
      (fun _ a => Quiet a) processed := by
  constructor
  rintro w q a w' ⟨hw, hx, rfl⟩ ha h
  change w.step a = some w' at h
  have hw' := settled_step hw hx ha h
  have hx' := exclusive_step hx h
  -- a step that shows nothing only has to keep the queue
  have hsilent : processed a = [] → queueOf w' = queueOf w →
      ∃ q', (AtLeastOnce.machine Message.textOf).run (queueOf w) (processed a) = some q' ∧
        Represents w' q' := by
    intro hp hq
    refine ⟨queueOf w, ?_, hw', hx', hq.symm⟩
    rw [hp]
    rfl
  cases a with
  | spawn c =>
      simp only [World.step, Option.some.injEq] at h
      subst h
      refine hsilent rfl ?_
      unfold queueOf acked
      simp [Run.start, acking]
  | act t e =>
      obtain ⟨r, r', w₁, hr, hstep, hk, rfl⟩ := step_act h
      cases hk with
      | take s _ _ _ hac _ _ hac' => exact hsilent rfl (queueOf_of_none hr hac hac' rfl)
      | silent _ he _ _ hac hac' =>
          refine hsilent ?_ (queueOf_of_none hr hac hac' rfl)
          unfold shows at he
          unfold processed
          split <;> simp_all
      | deliver s m _ _ hac _ _ hac' => exact hsilent rfl (queueOf_of_none hr hac hac' rfl)
      | process m text ar hpc hr' =>
          obtain ⟨-, -, hack⟩ := process_frame (hw.run t r hr).1 hpc hr'
          refine ⟨_, ?_, hw', hx', rfl⟩
          rw [processed, Machine.run_cons, process_step hw hx hr hpc hack]
          rfl
      | acknowledge s m hs hpc hr' =>
          exact hsilent rfl (queueOf_acknowledge hw hx hr hs hpc (by rw [hr']; rfl))
      | acknowledgeOther s m hs hpc hr' =>
          have hno := (hw.run t r hr).2
          rw [hpc] at hno
          exact hno.elim
      | recover s m hs hpc hr' =>
          exact hsilent rfl (queueOf_of_none hr (by simp [acking, hpc]) (by rw [hr']; rfl) rfl)
      | close s hs hpc hr' =>
          exact hsilent rfl (queueOf_of_none hr (by simp [acking, hpc]) (by rw [hr']; rfl) rfl)
      | abandon _ _ he => exact absurd he (by rw [show e.throws = false from ha]; decide)

/-! ## The queue over whole runs -/

/-- Messages numbered in their order are distinct. -/
theorem messagesOf_nodup (bodies : List Body) : (messagesOf bodies).Nodup := by
  apply List.Nodup.of_map Message.id
  have hids : (messagesOf bodies).map Message.id = List.range bodies.length := by
    apply List.ext_getElem
    · simp [messagesOf]
    · intro i h₁ h₂
      simp [messagesOf]
  rw [hids]
  exact List.nodup_range

theorem messagesOf_isText (texts : List String) :
    ∀ m ∈ messagesOf (texts.map Body.text), m.isText = true := by
  intro m hm
  simp only [messagesOf, List.mem_mapIdx, List.getElem_map] at hm
  obtain ⟨i, hi, rfl⟩ := hm
  rfl

/-- **Client-acknowledge consumption neither loses nor double-removes a message.**  For any
number of consumers in client-acknowledge mode on a queue of text messages, after any run
without exceptions: at a loop head nothing is in flight on the session; the `process` calls
of the run are a run of the at-least-once queue, which then holds what the broker holds less
the messages whose acknowledgement is the next call of their task; and a message has left it
exactly when one `process` call on its text, and only one, returned `QUEUE_REMOVE`. -/
theorem client_ack_at_least_once (texts : List String) (as : List Action) (w : World)
    (hquiet : ∀ a ∈ as, Quiet a)
    (hrun : World.machine.run (World.init (messagesOf (texts.map Body.text))) as = some w) :
    (∀ (i : ℕ) (r : Run) (s : SessionId), w.tasks[i]? = some r → r.pc = .isrun →
      r.session = some s → w.consumedBy s = []) ∧
    Machine.Simulation World.machine (AtLeastOnce.machine Message.textOf) Represents
      (fun _ a => Quiet a) processed ∧
    Represents w (queueOf w) ∧
    (AtLeastOnce.machine Message.textOf).run (messagesOf (texts.map Body.text))
      (as.flatMap processed) = some (w.broker.filter fun m => !acked w m) ∧
    (∀ m ∈ messagesOf (texts.map Body.text),
      (m ∉ w.broker ∨ acked w m = true ↔
        AtLeastOnce.removals m (as.flatMap processed) = 1) ∧
      AtLeastOnce.removals m (as.flatMap processed) ≤ 1) := by
  have hnodup := messagesOf_nodup (texts.map Body.text)
  have h0 : Represents (World.init (messagesOf (texts.map Body.text)))
      (messagesOf (texts.map Body.text)) := by
    refine ⟨settled_init hnodup (messagesOf_isText texts), exclusive_init _, ?_⟩
    simp [queueOf, World.init, acked]
  obtain ⟨q, hq, hw, hx, rfl⟩ :=
    represents_simulation.run h0 (Machine.meets_of_forall _ fun a ha _ => hquiet a ha) hrun
  refine ⟨?_, represents_simulation, ⟨hw, hx, rfl⟩, hq, ?_⟩
  · intro i r s hi hpc hs
    have hheld : r.held = some s := by simp [Run.held, hpc, hs]
    rw [World.consumedBy, List.map_eq_nil_iff, List.filter_eq_nil_iff]
    rintro ⟨s', m⟩ hp hps
    have hps : s' = s := by simpa using hps
    subst hps
    have hd := inflight_of_held hw hx hi hheld hp
    simp [Run.delivered, hpc] at hd
  · intro m hm
    obtain ⟨hleft, hone⟩ := AtLeastOnce.run_spec hnodup hq hm
    refine ⟨?_, hone⟩
    rw [← hleft, queueOf, List.mem_filter, not_and_or]
    simp

/-- Two consumers and two messages with the same text: the first message is retried, then
removed; the second is removed by the other consumer in between. -/
def twoConsumers : List Action :=
  let c := Consumer.new "TEST.FOO" 0 false true 3000
  let d : Destination := ⟨.queue, "TEST.FOO"⟩
  let a : Message := ⟨0, .text "x"⟩
  let b : Message := ⟨1, .text "x"⟩
  [.spawn c, .spawn c,
    .act 0 (.takeSession (.ok 0)), .act 1 (.takeSession (.ok 1)),
    .act 0 (.createDestination d (.ok ())), .act 0 (.createCachedConsumer (.ok ())),
    .act 1 (.createDestination d (.ok ())), .act 1 (.createCachedConsumer (.ok ())),
    .act 0 (.isrun true), .act 0 (.receive (.ok (some a))), .act 0 (.getText a (.ok "x")),
    .act 1 (.isrun true), .act 1 (.receive (.ok (some b))), .act 1 (.getText b (.ok "x")),
    .act 0 (.process a "x" (.returns .queueRetry)),
    .act 1 (.process b "x" (.returns .queueRemove)), .act 0 (.recover (.ok ())),
    .act 1 (.acknowledge b (.ok ())), .act 1 (.isrun true),
    .act 1 (.receive (.ok (some a))), .act 1 (.getText a (.ok "x")),
    .act 1 (.process a "x" (.returns .queueRemove)), .act 1 (.acknowledge a (.ok ()))]

/-- In the run of `twoConsumers` each message is removed exactly once. -/
theorem client_ack_at_least_once_two_consumers :
    ∃ w, World.machine.run (World.init (messagesOf (["x", "x"].map Body.text)))
        twoConsumers = some w ∧ w.broker = [] ∧
      AtLeastOnce.removals ⟨0, .text "x"⟩ (twoConsumers.flatMap processed) = 1 ∧
      AtLeastOnce.removals ⟨1, .text "x"⟩ (twoConsumers.flatMap processed) = 1 := by
  refine ⟨_, rfl, rfl, ?_⟩
  obtain ⟨-, -, -, -, h⟩ := client_ack_at_least_once ["x", "x"] twoConsumers _ (by decide) rfl
  exact ⟨(h ⟨0, .text "x"⟩ (by decide)).1.mp (Or.inl (by decide)),
    (h ⟨1, .text "x"⟩ (by decide)).1.mp (Or.inl (by decide))⟩

end DsAmq.Analysis
