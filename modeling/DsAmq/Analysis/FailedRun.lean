import DsAmq.Analysis.ClientAck

/-!
# What a failed run leaves behind on its session

A run that ends by the `break` of a handler gives its session back without recovering it
(`DSAMQConsumer.h:221-233`), so the message it was working on stays in flight there.  A task
that is given the session later acknowledges it together with its own message, although
nobody has processed it: `failed_run_acknowledged_by_next_task` shows this for a `getText`,
a `process` and a `recover` that throws.

An `acknowledge` that throws does no such harm: the message it leaves behind has had its
`QUEUE_REMOVE`.  As long as none of the other three throws a `CMSException`, every message
that an acknowledgement covers has been processed with the result `QUEUE_REMOVE` since its
last delivery (`acknowledge_covers_removed`).  The invariant is `Accounted`: a delivery in
flight has its `QUEUE_REMOVE`, or is the message its session's holder works on, or its
session is stuck with a run that ended by an exception and never gave it back.
-/

set_option autoImplicit false

namespace DsAmq.Analysis

open DsAmq.Library DsAmq.Model

/-- Whether `m` has been processed with `QUEUE_REMOVE` since its last delivery, after the
action `a`, when `b` says so before it. -/
def track (m : Message) (b : Bool) : Action → Bool
  | .act _ (.receive (.ok (some m'))) => if m' = m then false else b
  | .act _ (.process m' _ (.returns .queueRemove)) => if m' = m then true else b
  | _ => b

/-- A `process` call on `m` has returned `QUEUE_REMOVE` since the last delivery of `m`. -/
def removedSince (m : Message) (as : List Action) : Bool :=
  as.foldl (track m) false

/-- If the action `a`, taken in `w` after the actions `as`, is an `acknowledge` call, then
every message it covers has been processed with `QUEUE_REMOVE` since its last delivery. -/
def CoversRemoved (as : List Action) (w : World) (a : Action) : Prop :=
  ∀ (t : ℕ) (m : Message) (o : Outcome Unit), a = .act t (.acknowledge m o) →
    ∀ (r : Run) (s : SessionId), w.tasks[t]? = some r → r.session = some s →
      ∀ m' ∈ w.consumedBy s, removedSince m' as = true

/-- No `getText`, `process` or `recover` call throws a `CMSException`, and every task is in
client-acknowledge mode. -/
def KeepsHold : Action → Prop
  | .spawn c => c.bclientack = true
  | .act _ (.getText _ o) => o.throws = false
  | .act _ (.process _ _ (.throwsCms _)) => False
  | .act _ (.recover o) => o.throws = false
  | _ => True

theorem removedSince_concat (m : Message) (as : List Action) (a : Action) :
    removedSince m (as ++ [a]) = track m (removedSince m as) a := by
  simp [removedSince, List.foldl_append]

/-- Apart from deliveries, no call takes a verdict back. -/
theorem removedSince_mono {t : ℕ} {e : Event} {m : Message} {as : List Action}
    (he : ∀ m, e ≠ .receive (.ok (some m))) (hm : removedSince m as = true) :
    removedSince m (as ++ [.act t e]) = true := by
  rw [removedSince_concat, hm]
  unfold track
  split
  · rename_i hc
    cases hc
    exact (he _ rfl).elim
  · split <;> rfl
  · rfl

/-- The invariant: every delivery in flight is accounted for. -/
structure Accounted (as : List Action) (w : World) : Prop where
  exclusive : Exclusive w
  text : ∀ m ∈ w.broker, m.isText = true
  run : ∀ (i : ℕ) (r : Run), w.tasks[i]? = some r → TextRun r
  working : ∀ (i : ℕ) (r : Run), w.tasks[i]? = some r → ∀ m, r.delivered = some m →
    ∃ s, r.held = some s ∧ (s, m) ∈ w.inflight
  removed : ∀ (i : ℕ) (r : Run), w.tasks[i]? = some r → ∀ m, acking r = some m →
    removedSince m as = true
  accounted : ∀ p ∈ w.inflight, removedSince p.2 as = true ∨
    ∃ (i : ℕ) (r : Run), w.tasks[i]? = some r ∧ r.held = some p.1 ∧
      (r.delivered = some p.2 ∨ r.pc = .threw)

/-- What an acknowledgement covers in an accounted state. -/
theorem coversRemoved_of_accounted {as : List Action} {w w' : World} {a : Action}
    (hw : Accounted as w) (h : w.step a = some w') : CoversRemoved as w a := by
  rintro t m o rfl r s hr hs m' hm'
  obtain ⟨r₀, r', w₁, hr₀, hstep, -, -⟩ := step_act h
  obtain rfl := Option.some.inj (hr₀.symm.trans hr)
  have hpc : r₀.pc = .acknowledge m := by
    have htext := (hw.run t r₀ hr).2
    cases hpc : r₀.pc <;> simp [Run.step, hpc] at hstep htext ⊢
    exact hstep.1.symm
  have hin : (s, m') ∈ w.inflight := by
    simp only [World.consumedBy, List.mem_map, List.mem_filter, decide_eq_true_eq] at hm'
    obtain ⟨⟨s', m''⟩, ⟨hin, rfl⟩, rfl⟩ := hm'
    exact hin
  rcases hw.accounted _ hin with h | ⟨i, x, hx, hxs, hxd⟩
  · exact h
  · -- the holder of the session is the task that acknowledges
    have hheld : r₀.held = some s := by simp [Run.held, hpc, hs]
    obtain rfl := hw.exclusive.one i x hx t r₀ hr s hxs hheld
    obtain rfl := Option.some.inj (hx.symm.trans hr)
    rcases hxd with hxd | hxd
    · obtain rfl : m = m' := by simpa [Run.delivered, hpc] using hxd
      exact hw.removed i x hx m (by simp [acking, hpc])
    · rw [hpc] at hxd
      cases hxd

/-! ## Each kind of step keeps the account -/

section Steps

variable {as : List Action} {w : World} {t : ℕ} {r r' : Run} {a : Action}

/-- A step that puts nothing in flight, and after which the message of the moved task, if it
was in flight for that task's sake only, is still accounted for. -/
theorem accounted_frame (hw : Accounted as w) (hr : w.tasks[t]? = some r)
    {w₁ : World} (hx' : Exclusive { w₁ with tasks := w.tasks.set t r' })
    (hrun : TextRun r') (hb : ∀ m ∈ w₁.broker, m ∈ w.broker)
    (hin : ∀ p ∈ w₁.inflight, p ∈ w.inflight)
    (hmono : ∀ m, removedSince m as = true → removedSince m (as ++ [a]) = true)
    (hack : ∀ m, acking r' = some m → removedSince m (as ++ [a]) = true)
    (hkeep : ∀ (i : ℕ) (x : Run) (s : SessionId) (m : Message), i ≠ t →
      w.tasks[i]? = some x → x.held = some s → (s, m) ∈ w.inflight → (s, m) ∈ w₁.inflight)
    (hmoved : ∀ m, r'.delivered = some m → ∃ s, r'.held = some s ∧ (s, m) ∈ w₁.inflight)
    (hleft : ∀ p ∈ w₁.inflight, r.held = some p.1 → r.delivered = some p.2 →
      removedSince p.2 (as ++ [a]) = true ∨
        r'.held = some p.1 ∧ (r'.delivered = some p.2 ∨ r'.pc = .threw))
    (hstuck : r.pc ≠ .threw) :
    Accounted (as ++ [a]) { w₁ with tasks := w.tasks.set t r' } where
  exclusive := hx'
  text m hm := hw.text m (hb m hm)
  run := Threads.forall_set hr hrun fun i x _ hx => hw.run i x hx
  working := by
    refine Threads.forall_set hr hmoved fun i x hi hx m hm => ?_
    obtain ⟨s, hs, hsm⟩ := hw.working i x hx m hm
    exact ⟨s, hs, hkeep i x s m hi hx hs hsm⟩
  removed := by
    refine Threads.forall_set hr hack fun i x _ hx m hm => ?_
    exact hmono m (hw.removed i x hx m hm)
  accounted p hp := by
    rcases hw.accounted p (hin p hp) with h | ⟨i, x, hx, hxs, hxd⟩
    · exact Or.inl (hmono p.2 h)
    · by_cases hi : i = t
      · subst hi
        obtain rfl := Option.some.inj (hx.symm.trans hr)
        rcases hxd with hxd | hxd
        · refine (hleft p hp hxs hxd).imp_right fun h => ?_
          exact ⟨i, r', (Threads.getElem?_set_eq_some hr).mpr (Or.inl ⟨rfl, rfl⟩), h⟩
        · exact (hstuck hxd).elim
      · exact Or.inr ⟨i, x, (Threads.getElem?_set_eq_some hr).mpr (Or.inr ⟨hi, hx⟩), hxs, hxd⟩

/-- A step that leaves the broker and the deliveries in flight as they are. -/
theorem accounted_keep (hw : Accounted as w) (hr : w.tasks[t]? = some r)
    {w₁ : World} (hx' : Exclusive { w₁ with tasks := w.tasks.set t r' })
    (hrun : TextRun r') (hb : w₁.broker = w.broker) (hin : w₁.inflight = w.inflight)
    (hmono : ∀ m, removedSince m as = true → removedSince m (as ++ [a]) = true)
    (hack : ∀ m, acking r' = some m → removedSince m (as ++ [a]) = true)
    (hmoved : ∀ m, r'.delivered = some m → ∃ s, r'.held = some s ∧ (s, m) ∈ w.inflight)
    (hleft : ∀ p : SessionId × Message, r.held = some p.1 → r.delivered = some p.2 →
      removedSince p.2 (as ++ [a]) = true ∨
        r'.held = some p.1 ∧ (r'.delivered = some p.2 ∨ r'.pc = .threw))
    (hstuck : r.pc ≠ .threw) :
    Accounted (as ++ [a]) { w₁ with tasks := w.tasks.set t r' } := by
  refine accounted_frame hw hr hx' hrun ?_ ?_ hmono hack ?_ ?_ (fun p _ => hleft p) hstuck
  · rw [hb]
    exact fun m hm => hm
  · rw [hin]
    exact fun p hp => hp
  · rw [hin]
    exact fun i x s m _ _ _ hm => hm
  · rw [hin]
    exact hmoved

/-- A step of the task that works on the same message as before. -/
theorem accounted_same (hw : Accounted as w) (hr : w.tasks[t]? = some r)
    (hx' : Exclusive { w with tasks := w.tasks.set t r' }) (hrun : TextRun r')
    (hmono : ∀ m, removedSince m as = true → removedSince m (as ++ [a]) = true)
    (hack : ∀ m, acking r' = some m → removedSince m (as ++ [a]) = true)
    (hh : r'.held = r.held) (hd : r'.delivered = r.delivered) (hstuck : r.pc ≠ .threw) :
    Accounted (as ++ [a]) { w with tasks := w.tasks.set t r' } := by
  refine accounted_keep hw hr hx' hrun rfl rfl hmono hack ?_ ?_ hstuck
  · intro m hm
    obtain ⟨s, hs, hin⟩ := hw.working t r hr m (hd ▸ hm)
    exact ⟨s, hh.trans hs, hin⟩
  · intro p hp hpd
    exact Or.inr ⟨hh.trans hp, Or.inl (hd.trans hpd)⟩

/-- An `acknowledge` or `recover` call: nothing is in flight on the session any more. -/
theorem accounted_clear (hw : Accounted as w) (hr : w.tasks[t]? = some r) {s : SessionId}
    {w₁ : World} (hx' : Exclusive { w₁ with tasks := w.tasks.set t r' })
    (hrun : TextRun r') (hb : ∀ m ∈ w₁.broker, m ∈ w.broker)
    (hin : w₁.inflight = w.inflight.filter fun p => p.1 ≠ s)
    (hmono : ∀ m, removedSince m as = true → removedSince m (as ++ [a]) = true)
    (hs : r.held = some s) (hbet : between r'.pc = true) (hstuck : r.pc ≠ .threw) :
    Accounted (as ++ [a]) { w₁ with tasks := w.tasks.set t r' } := by
  refine accounted_frame hw hr hx' hrun hb ?_ hmono ?_ ?_ ?_ ?_ hstuck
  · intro p hp
    rw [hin] at hp
    exact (List.mem_filter.mp hp).1
  · intro m hm
    rw [acking_of_between hbet] at hm
    cases hm
  · -- the deliveries to the other tasks are on other sessions
    intro i x s' m hi hx hxs hm
    rw [hin]
    refine List.mem_filter.mpr ⟨hm, decide_eq_true ?_⟩
    rintro rfl
    exact hi (hw.exclusive.one i x hx t r hr s' hxs hs)
  · intro m hm
    rw [delivered_of_between hbet] at hm
    cases hm
  · intro p hp hps _
    rw [hin] at hp
    exact absurd (Option.some.inj (hps.symm.trans hs))
      (of_decide_eq_true (List.mem_filter.mp hp).2)

/-- A delivery starts the account of the message anew. -/
theorem accounted_deliver (hw : Accounted as w) (hr : w.tasks[t]? = some r) {s : SessionId}
    {m : Message}
    (hx' : Exclusive { w with inflight := w.inflight ++ [(s, m)], tasks := w.tasks.set t r' })
    (hrun : TextRun r') (hd : r.delivered = none) (hs' : r'.held = some s)
    (hd' : r'.delivered = some m) (ha' : acking r' = none)
    (hfree : ∀ p ∈ w.inflight, p.2 ≠ m) (hstuck : r.pc ≠ .threw) :
    Accounted (as ++ [.act t (.receive (.ok (some m)))])
      { w with inflight := w.inflight ++ [(s, m)], tasks := w.tasks.set t r' } := by
  have hmono : ∀ m', m' ≠ m → removedSince m' as = true →
      removedSince m' (as ++ [.act t (.receive (.ok (some m)))]) = true := by
    intro m' hm' h
    rw [removedSince_concat, track, if_neg (Ne.symm hm'), h]
  constructor
  · exact hx'
  · exact hw.text
  · exact Threads.forall_set hr hrun fun i x _ hx => hw.run i x hx
  · refine Threads.forall_set hr ?_ fun i x _ hx m' hm' => ?_
    · intro m' hm'
      obtain rfl := Option.some.inj (hm'.symm.trans hd')
      exact ⟨s, hs', List.mem_append.mpr (Or.inr (List.mem_singleton.mpr rfl))⟩
    · obtain ⟨s', hxs, hin⟩ := hw.working i x hx m' hm'
      exact ⟨s', hxs, List.mem_append.mpr (Or.inl hin)⟩
  · refine Threads.forall_set hr (fun m' hm' => ?_) fun i x _ hx m' hm' => ?_
    · rw [ha'] at hm'
      cases hm'
    · obtain ⟨s', -, hin⟩ := hw.working i x hx m' (delivered_of_acking hm')
      exact hmono m' (hfree _ hin) (hw.removed i x hx m' hm')
  · intro p hp
    rcases List.mem_append.mp hp with hp | hp
    · rcases hw.accounted p hp with h | ⟨i, x, hx, hxs, hxd⟩
      · exact Or.inl (hmono p.2 (hfree p hp) h)
      · refine Or.inr ⟨i, x, (Threads.getElem?_set_eq_some hr).mpr (Or.inr ⟨?_, hx⟩), hxs, hxd⟩
        rintro rfl
        obtain rfl := Option.some.inj (hx.symm.trans hr)
        rcases hxd with hxd | hxd
        · rw [hd] at hxd
          cases hxd
        · exact hstuck hxd
    · obtain rfl := List.mem_singleton.mp hp
      exact Or.inr ⟨t, r', (Threads.getElem?_set_eq_some hr).mpr (Or.inl ⟨rfl, rfl⟩), hs',
        Or.inl hd'⟩

end Steps

/-- The only call that can throw and break the loop is an `acknowledge`. -/
theorem acking_of_thrown {r r' : Run} {t : ℕ} {e : Event} {m : Message} (htext : TextRun r)
    (hstep : r.step e = some r') (ha : KeepsHold (.act t e)) (he : e.throws = true)
    (hd : r.delivered = some m) (hpc' : r'.pc = .close) : acking r = some m := by
  cases hpc : r.pc with
  | getText m' =>
      obtain ⟨text, rfl, -, -⟩ | ⟨msg, rfl, -⟩ := (Run.step_getText hpc).mp hstep
      · cases he
      · cases ha
  | acknowledgeOther m' =>
      have hno := htext.2
      rw [hpc] at hno
      exact hno.elim
  | process m' text =>
      obtain ⟨ar, rfl, -⟩ | ⟨msg, rfl, -⟩ | ⟨rfl, rfl⟩ := (Run.step_process hpc).mp hstep
      · cases he
      · exact ha.elim
      · cases hpc'
  | acknowledge m' =>
      have hm : m' = m := by simpa [Run.delivered, hpc] using hd
      simp [acking, hpc, hm]
  | recover m' =>
      obtain ⟨o, rfl, -⟩ := (Run.step_recover hpc).mp hstep
      have ha : o.throws = false := ha
      rw [show o.throws = true from he] at ha
      cases ha
  | _ => simp [Run.delivered, hpc] at hd

/-- A new task has nothing in flight. -/
theorem accounted_spawn {as : List Action} {w w' : World} {c : Consumer} (hw : Accounted as w)
    (hc : c.bclientack = true) (h : w.step (.spawn c) = some w') :
    Accounted (as ++ [.spawn c]) w' := by
  have hx' := exclusive_step hw.exclusive h
  simp only [World.step, Option.some.injEq] at h
  subst h
  have hmono : ∀ m, removedSince m (as ++ [.spawn c]) = removedSince m as := by
    intro m
    rw [removedSince_concat]
    rfl
  constructor
  · exact hx'
  · exact hw.text
  · exact Threads.forall_append ⟨hc, trivial⟩ hw.run
  · exact Threads.forall_append (fun m hm => by cases hm) hw.working
  · refine Threads.forall_append (fun m hm => by cases hm) fun i x hx m hm => ?_
    rw [hmono]
    exact hw.removed i x hx m hm
  · intro p hp
    rw [hmono]
    rcases hw.accounted p hp with hp | ⟨i, x, hx, hxp⟩
    · exact Or.inl hp
    · exact Or.inr ⟨i, x, Threads.getElem?_append_eq_some.mpr (Or.inl hx), hxp⟩

/-- A task goes on with text messages only. -/
theorem textRun_of_kind {as : List Action} {w w₁ : World} {t : ℕ} {e : Event} {r r' : Run}
    (hw : Accounted as w) (hr : w.tasks[t]? = some r) (hstep : r.step e = some r')
    (hk : Kind w r r' e w₁) : TextRun r' := by
  refine textRun_step (hw.run t r hr) hstep ?_
  rintro m rfl
  cases hk with
  | silent _ he => cases he
  | deliver s _ _ _ _ _ _ _ hm => exact hw.text m hm
  | abandon _ _ _ hd _ hpc =>
      have hpc : r.pc = .receive := by
        cases hpc : r.pc <;> simp [Run.step, hpc] at hstep ⊢
      simp [Run.delivered, hpc] at hd

/-- Every step without one of the three harmful exceptions keeps the account. -/
theorem accounted_step {as : List Action} {w w' : World} {a : Action} (hw : Accounted as w)
    (ha : KeepsHold a) (h : w.step a = some w') : Accounted (as ++ [a]) w' := by
  have hx' := exclusive_step hw.exclusive h
  cases a with
  | spawn c => exact accounted_spawn hw ha h
  | act t e =>
      obtain ⟨r, r', w₁, hr, hstep, hk, rfl⟩ := step_act h
      have hstuck : r.pc ≠ .threw := by
        intro hpc
        rw [Run.step_ended (Or.inr hpc)] at hstep
        cases hstep
      have hrun := textRun_of_kind hw hr hstep hk
      have hmono : (∀ m, e ≠ .receive (.ok (some m))) → ∀ m, removedSince m as = true →
          removedSince m (as ++ [.act t e]) = true := fun he _ hm => removedSince_mono he hm
      cases hk with
      | take s hs hr0 hd ha0 hr' hd' ha' =>
          exact accounted_keep hw hr hx' hrun rfl rfl (hmono (by simp)) (by simp [ha'])
            (by simp [hd']) (by simp [hr0]) hstuck
      | silent _ he hh hd hac hac' =>
          refine accounted_same hw hr hx' hrun (hmono ?_) (by simp [hac']) hh hd hstuck
          rintro m rfl
          cases he
      | deliver s m hs hd _ hs' hd' ha' hm hfree =>
          exact accounted_deliver hw hr hx' hrun hd hs' hd' ha' hfree hstuck
      | process m text ar hpc hr' =>
          obtain ⟨hd, hh, hack⟩ := process_frame (hw.run t r hr).1 hpc hr'
          refine accounted_same hw hr hx' hrun (hmono (by simp)) ?_ hh hd hstuck
          intro m' hm'
          rw [hack] at hm'
          cases ar with
          | queueRemove =>
              obtain rfl := Option.some.inj hm'
              rw [removedSince_concat]
              simp only [track, if_true]
          | queueRetry => cases hm'
      | acknowledge s m hs hpc hr' =>
          have hbet : between r'.pc = true := by rw [hr']; rfl
          exact accounted_clear hw hr hx' hrun (fun m hm => (List.mem_filter.mp hm).1) rfl
            (hmono (by simp)) hs hbet hstuck
      | acknowledgeOther s m hs hpc hr' =>
          have hno := (hw.run t r hr).2
          rw [hpc] at hno
          exact hno.elim
      | recover s m hs hpc hr' =>
          have hbet : between r'.pc = true := by rw [hr']; rfl
          exact accounted_clear hw hr hx' hrun (fun m hm => hm) rfl (hmono (by simp)) hs hbet
            hstuck
      | close s hs hpc hr' =>
          have hd : r.delivered = none := by simp [Run.delivered, hpc]
          have hd' : r'.delivered = none := by rw [hr']; rfl
          have hack : acking r' = none := by rw [hr']; rfl
          exact accounted_keep hw hr hx' hrun rfl rfl (hmono (by simp)) (by simp [hack])
            (by simp [hd']) (by simp [hd]) hstuck
      | abandon _ m he hd hh hpc =>
          have hbet : between r'.pc = true := by rcases hpc with h | h <;> rw [h] <;> rfl
          have hno : ∀ m, e ≠ .receive (.ok (some m)) := by
            rintro m' rfl
            cases he
          refine accounted_keep hw hr hx' hrun rfl rfl (hmono hno)
            (by simp [acking_of_between hbet]) (by simp [delivered_of_between hbet]) ?_ hstuck
          -- only an `acknowledge`, or an exception that leaves `run`, can throw here
          intro p hp hpd
          rcases hpc with hpc' | hpc'
          · have hack := acking_of_thrown (hw.run t r hr) hstep ha he hd hpc'
            obtain rfl := Option.some.inj (hpd.symm.trans hd)
            exact Or.inl (hmono hno _ (hw.removed t r hr _ hack))
          · exact Or.inr ⟨hh.trans hp, Or.inr hpc'⟩

/-- **An acknowledgement covers processed messages only.**  In every run of tasks in
client-acknowledge mode on a queue of text messages, with any exceptions but a
`CMSException` from `getText`, `process` or `recover`: whenever a task calls `acknowledge`,
every message in flight on its session has been processed with the result `QUEUE_REMOVE`
since its last delivery. -/
theorem acknowledge_covers_removed (texts : List String) (as : List Action) (a : Action)
    (w w' : World) (hhold : ∀ x ∈ as, KeepsHold x)
    (hrun : World.machine.run (World.init (messagesOf (texts.map Body.text))) as = some w)
    (hstep : World.machine.step w a = some w') : CoversRemoved as w a := by
  have h0 : Accounted [] (World.init (messagesOf (texts.map Body.text))) := by
    constructor
    · exact exclusive_init _
    · exact messagesOf_isText texts
    all_goals simp [World.init]
  have hw : Accounted as w :=
    Machine.run_inv_history (P := fun _ x => KeepsHold x)
      (fun as s x s' hs hx h => accounted_step hs hx h) h0
      (Machine.meets_of_forall _ fun a ha _ => hhold a ha) hrun
  exact coversRemoved_of_accounted hw hstep

/-- The start of a run of a task, up to the loop head. -/
def toLoopHead (t : ℕ) (s : SessionId) : List Action :=
  [.spawn (Consumer.new "TEST.FOO" t false true 3000), .act t (.takeSession (.ok s)),
    .act t (.createDestination ⟨.queue, "TEST.FOO"⟩ (.ok ())),
    .act t (.createCachedConsumer (.ok ()))]

/-- Task `0` receives the first message and handles it by `calls`, the last of which throws
and breaks its loop; task `1`, its successor, gets the same session, receives the second
message and processes it with the result `QUEUE_REMOVE`. -/
def failedThenNext (calls : List Event) : List Action :=
  let a : Message := ⟨0, .text "a"⟩
  let b : Message := ⟨1, .text "b"⟩
  toLoopHead 0 0 ++ [.act 0 (.isrun true), .act 0 (.receive (.ok (some a)))] ++
    calls.map (.act 0) ++ [.act 0 (.close (.ok ()))] ++
    toLoopHead 1 0 ++ [.act 1 (.isrun true), .act 1 (.receive (.ok (some b))),
      .act 1 (.getText b (.ok "b")), .act 1 (.process b "b" (.returns .queueRemove))]

/-- An `acknowledge` that throws is harmless: the successor's acknowledgement covers both
messages, and both have had their `QUEUE_REMOVE`. -/
theorem acknowledge_covers_removed_after_failed_acknowledge :
    ∃ w, World.machine.run (World.init (messagesOf (["a", "b"].map Body.text)))
        (failedThenNext [.getText ⟨0, .text "a"⟩ (.ok "a"),
          .process ⟨0, .text "a"⟩ "a" (.returns .queueRemove),
          .acknowledge ⟨0, .text "a"⟩ (.cms "transport")]) = some w ∧
      w.consumedBy 0 = [⟨0, .text "a"⟩, ⟨1, .text "b"⟩] ∧
      CoversRemoved
        (failedThenNext [.getText ⟨0, .text "a"⟩ (.ok "a"),
          .process ⟨0, .text "a"⟩ "a" (.returns .queueRemove),
          .acknowledge ⟨0, .text "a"⟩ (.cms "transport")])
        w (.act 1 (.acknowledge ⟨1, .text "b"⟩ (.ok ()))) := by
  refine ⟨_, rfl, rfl, ?_⟩
  refine acknowledge_covers_removed ["a", "b"] _ _ _ _ ?_ rfl rfl
  simp [failedThenNext, toLoopHead, KeepsHold, Consumer.new, Outcome.throws]

/-- After the calls `calls` of the first run, the acknowledgement of the next task takes both
messages from the broker, and covers one that has had no `QUEUE_REMOVE`. -/
def TakesUnprocessed (calls : List Event) : Prop :=
  ∃ w w', World.machine.run (World.init (messagesOf (["a", "b"].map Body.text)))
      (failedThenNext calls) = some w ∧
    World.machine.step w (.act 1 (.acknowledge ⟨1, .text "b"⟩ (.ok ()))) = some w' ∧
    w.broker = messagesOf (["a", "b"].map Body.text) ∧ w'.broker = [] ∧
    ¬ CoversRemoved (failedThenNext calls) w (.act 1 (.acknowledge ⟨1, .text "b"⟩ (.ok ())))

/-- **The defect.**  When `getText`, `process` or `recover` throws, the acknowledgement of
the next task on the session covers a message that has had no `QUEUE_REMOVE`, and takes it
from the broker. -/
theorem failed_run_acknowledged_by_next_task :
    TakesUnprocessed [.getText ⟨0, .text "a"⟩ (.cms "conversion")] ∧
      TakesUnprocessed [.getText ⟨0, .text "a"⟩ (.ok "a"),
        .process ⟨0, .text "a"⟩ "a" (.throwsCms "in process")] ∧
      TakesUnprocessed [.getText ⟨0, .text "a"⟩ (.ok "a"),
        .process ⟨0, .text "a"⟩ "a" (.returns .queueRetry), .recover (.cms "transport")] := by
  refine ⟨?_, ?_, ?_⟩
  all_goals
    refine ⟨_, _, rfl, rfl, rfl, rfl, fun h => ?_⟩
    have hbad := h 1 _ _ rfl _ 0 rfl rfl ⟨0, .text "a"⟩ (by decide)
    exact absurd hbad (by decide)

end DsAmq.Analysis
