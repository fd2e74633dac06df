import DsAmq.Model.Delivery
import DsAmq.Analysis.RunSteps
import DsAmq.Library.Threads

/-!
# What one call of a task can do to the broker and to the session pool

`Kind w r r' e w₁` lists what a call `e` of a task can do when it takes the task from `r` to
`r'`: `w₁` is the world after the call, apart from the task itself.  It speaks of a task
through three values only: the session it holds (`Run.held`), the message its loop body is
working on (`Run.delivered`) and the message it is about to acknowledge (`acking`).
`World.step_act` shows that every step of a task is of one of these kinds; the invariants of
the consumer side are proved over the kinds.
-/

set_option autoImplicit false

namespace DsAmq.Analysis

open DsAmq.Library DsAmq.Model

/-- The message that the run is about to acknowledge because its `process` call returned
`QUEUE_REMOVE`. -/
def acking (r : Run) : Option Message :=
  match r.pc with
  | .acknowledge m => some m
  | _ => none

/-- The call delivers a message or is a `process` call that returns. -/
def shows : Event → Bool
  | .receive (.ok (some _)) => true
  | .process _ _ (.returns _) => true
  | _ => false

/-- The kinds of steps of a task. -/
inductive Kind (w : World) (r r' : Run) : Event → World → Prop
  | take (s : SessionId) (hs : s ∉ w.taken) (hr : r.held = none) (hd : r.delivered = none)
      (ha : acking r = none) (hr' : r'.held = some s) (hd' : r'.delivered = none)
      (ha' : acking r' = none) :
      Kind w r r' (.takeSession (.ok s)) { w with taken := s :: w.taken }
  | silent (e : Event) (he : shows e = false) (hh : r'.held = r.held)
      (hd : r'.delivered = r.delivered) (ha : acking r = none) (ha' : acking r' = none) :
      Kind w r r' e w
  | deliver (s : SessionId) (m : Message) (hr : r.held = some s) (hd : r.delivered = none)
      (ha : acking r = none) (hr' : r'.held = some s) (hd' : r'.delivered = some m)
      (ha' : acking r' = none) (hm : m ∈ w.broker) (hfree : ∀ p ∈ w.inflight, p.2 ≠ m) :
      Kind w r r' (.receive (.ok (some m))) { w with inflight := w.inflight ++ [(s, m)] }
  | process (m : Message) (text : String) (ar : AckResult) (hpc : r.pc = .process m text)
      (hr' : r' = { r with
        pc :=
          if r.consumer.bclientack then
            if ar = .queueRemove then .acknowledge m else .recover m
          else .isrun }) :
      Kind w r r' (.process m text (.returns ar)) w
  | acknowledge (s : SessionId) (m : Message) (hs : r.held = some s)
      (hpc : r.pc = .acknowledge m) (hr' : r' = { r with pc := .isrun }) :
      Kind w r r' (.acknowledge m (.ok ()))
        { w with
          broker := w.broker.filter fun m => (s, m) ∉ w.inflight
          inflight := w.inflight.filter fun p => p.1 ≠ s }
  | acknowledgeOther (s : SessionId) (m : Message) (hs : r.held = some s)
      (hpc : r.pc = .acknowledgeOther m) (hr' : r' = { r with pc := .process m "" }) :
      Kind w r r' (.acknowledge m (.ok ()))
        { w with
          broker := w.broker.filter fun m => (s, m) ∉ w.inflight
          inflight := w.inflight.filter fun p => p.1 ≠ s }
  | recover (s : SessionId) (m : Message) (hs : r.held = some s)
      (hpc : r.pc = .recover m) (hr' : r' = { r with pc := .isrun }) :
      Kind w r r' (.recover (.ok ()))
        { w with inflight := w.inflight.filter fun p => p.1 ≠ s }
  | close (s : SessionId) (hs : r.held = some s) (hpc : r.pc = .close)
      (hr' : r' = { r with pc := .returned }) :
      Kind w r r' (.close (.ok ())) { w with taken := w.taken.filter fun s' => s' ≠ s }
  | abandon (e : Event) (m : Message) (he : e.throws = true) (hd : r.delivered = some m)
      (hh : r'.held = r.held) (hpc : r'.pc = .close ∨ r'.pc = .threw) :
      Kind w r r' e w

/-- The run has taken its session and its loop body is not working on a message. -/
def between : RunPc → Bool
  | .createDestination | .createCachedConsumer | .isrun | .receive | .close | .threw => true
  | _ => false

theorem held_of_between {r : Run} (h : between r.pc = true) : r.held = r.session := by
  cases hpc : r.pc <;> simp [between, hpc, Run.held] at h ⊢

theorem delivered_of_between {r : Run} (h : between r.pc = true) : r.delivered = none := by
  cases hpc : r.pc <;> simp [between, hpc, Run.delivered] at h ⊢

theorem acking_of_between {r : Run} (h : between r.pc = true) : acking r = none := by
  cases hpc : r.pc <;> simp [between, hpc, acking] at h ⊢

/-- A call between two such places that shows nothing is silent. -/
theorem Kind.of_between {w : World} {r r' : Run} {e : Event} (he : shows e = false)
    (hs : r'.session = r.session) (h : between r.pc = true) (h' : between r'.pc = true) :
    Kind w r r' e w :=
  .silent e he (by rw [held_of_between h, held_of_between h', hs])
    (by rw [delivered_of_between h, delivered_of_between h'])
    (acking_of_between h) (acking_of_between h')

/-- A call that throws while the loop body works on a message leaves the message behind. -/
theorem Kind.of_abandon {w : World} {r r' : Run} {e : Event} {m : Message}
    (he : e.throws = true) (hd : r.delivered = some m) (hs : r'.session = r.session)
    (hpc : r'.pc = .close ∨ r'.pc = .threw) : Kind w r r' e w := by
  refine .abandon e m he hd ?_ hpc
  have hr : r.held = r.session := by
    cases hpc : r.pc <;> simp [Run.delivered, hpc, Run.held] at hd ⊢
  rw [hr, held_of_between (by rcases hpc with h | h <;> rw [h] <;> rfl), hs]

/-- Every call of a task is of one of the kinds. -/
theorem kind_of_step {w w₁ : World} {r r' : Run} {e : Event} (hr : r.step e = some r')
    (hw : w.effect r.session e = some w₁) : Kind w r r' e w₁ := by
  have hb : ∀ {pc}, r.pc = pc → between pc = true → between r.pc = true := fun h hp => h ▸ hp
  have hd : ∀ {m}, (r.pc = .getText m ∨ r.pc = .acknowledgeOther m ∨ r.pc = .acknowledge m ∨
      r.pc = .recover m) → r.delivered = some m := by
    rintro m (h | h | h | h) <;> simp [Run.delivered, h]
  cases hpc : r.pc with
  | takeSession =>
      obtain ⟨msg, rfl, rfl⟩ | ⟨s, rfl, rfl⟩ := (Run.step_takeSession hpc).mp hr
      · cases hw
        exact .silent _ rfl (by simp [Run.held, hpc]) (by simp [Run.delivered, hpc])
          (by simp [acking, hpc]) rfl
      · simp only [World.effect, Option.ite_none_left_eq_some, Option.some.injEq] at hw
        obtain ⟨hs, rfl⟩ := hw
        have hbet : between (Run.afterTakeSession r.consumer) = true := by
          unfold Run.afterTakeSession
          split <;> rfl
        exact .take s hs (by simp [Run.held, hpc]) (by simp [Run.delivered, hpc])
          (by simp [acking, hpc]) (held_of_between hbet) (delivered_of_between hbet)
          (acking_of_between hbet)
  | createDestination =>
      obtain ⟨d, -, ⟨rfl, rfl⟩ | ⟨msg, rfl, rfl⟩⟩ := (Run.step_createDestination hpc).mp hr <;>
      · cases hw
        exact .of_between rfl rfl (hb hpc rfl) rfl
  | createCachedConsumer =>
      obtain ⟨rfl, rfl⟩ | ⟨msg, rfl, rfl⟩ := (Run.step_createCachedConsumer hpc).mp hr <;>
      · cases hw
        exact .of_between rfl rfl (hb hpc rfl) rfl
  | isrun =>
      obtain ⟨b, rfl, rfl⟩ := (Run.step_isrun hpc).mp hr
      cases hw
      exact .of_between rfl rfl (hb hpc rfl) (by cases b <;> rfl)
  | receive =>
      obtain ⟨rfl, rfl⟩ | ⟨m, rfl, rfl⟩ | ⟨msg, rfl, rfl⟩ := (Run.step_receive hpc).mp hr
      · cases hw
        exact .of_between rfl rfl (hb hpc rfl) rfl
      · simp only [World.effect, Option.bind_eq_some_iff, Option.ite_none_right_eq_some,
          Option.some.injEq] at hw
        obtain ⟨s, hs, ⟨hm, hfree⟩, rfl⟩ := hw
        have hbet := hb hpc rfl
        refine .deliver s m ((held_of_between hbet).trans hs) (delivered_of_between hbet)
          (acking_of_between hbet) ?_ ?_ ?_ hm hfree
        all_goals cases m.isText <;> simp [Run.held, Run.delivered, acking, hs]
      · cases hw
        exact .of_between rfl rfl (hb hpc rfl) rfl
  | getText m =>
      obtain ⟨text, rfl, -, rfl⟩ | ⟨msg, rfl, rfl⟩ := (Run.step_getText hpc).mp hr
      · cases hw
        exact .silent _ rfl (by simp [Run.held, hpc]) (by simp [Run.delivered, hpc])
          (by simp [acking, hpc]) rfl
      · cases hw
        exact .of_abandon rfl (hd (.inl hpc)) rfl (Or.inl rfl)
  | acknowledgeOther m =>
      obtain ⟨rfl, rfl⟩ | ⟨msg, rfl, rfl⟩ := (Run.step_acknowledgeOther hpc).mp hr
      · simp only [World.effect, Option.map_eq_some_iff] at hw
        obtain ⟨s, hs, rfl⟩ := hw
        exact .acknowledgeOther s m (by simp [Run.held, hpc, hs]) hpc rfl
      · cases hw
        exact .of_abandon rfl (hd (.inr (.inl hpc))) rfl (Or.inl rfl)
  | process m text =>
      have hdel : r.delivered = some m := by simp [Run.delivered, hpc]
      obtain ⟨ar, rfl, rfl⟩ | ⟨msg, rfl, rfl⟩ | ⟨rfl, rfl⟩ := (Run.step_process hpc).mp hr
      · cases hw
        exact .process m text ar hpc rfl
      · cases hw
        exact .of_abandon rfl hdel rfl (Or.inl rfl)
      · cases hw
        exact .of_abandon rfl hdel rfl (Or.inr rfl)
  | acknowledge m =>
      obtain ⟨o, rfl, rfl⟩ := (Run.step_acknowledge hpc).mp hr
      cases o with
      | ok u =>
          simp only [World.effect, Option.map_eq_some_iff] at hw
          obtain ⟨s, hs, rfl⟩ := hw
          exact .acknowledge s m (by simp [Run.held, hpc, hs]) hpc rfl
      | cms msg =>
          cases hw
          exact .of_abandon rfl (hd (.inr (.inr (.inl hpc)))) rfl (Or.inl rfl)
  | recover m =>
      obtain ⟨o, rfl, rfl⟩ := (Run.step_recover hpc).mp hr
      cases o with
      | ok u =>
          simp only [World.effect, Option.map_eq_some_iff] at hw
          obtain ⟨s, hs, rfl⟩ := hw
          exact .recover s m (by simp [Run.held, hpc, hs]) hpc rfl
      | cms msg =>
          cases hw
          exact .of_abandon rfl (hd (.inr (.inr (.inr hpc)))) rfl (Or.inl rfl)
  | close =>
      obtain ⟨o, rfl, rfl⟩ := (Run.step_close hpc).mp hr
      cases o with
      | ok u =>
          simp only [World.effect, Option.map_eq_some_iff] at hw
          obtain ⟨s, hs, rfl⟩ := hw
          exact .close s (by simp [Run.held, hpc, hs]) hpc rfl
      | cms msg =>
          cases hw
          exact .of_between rfl rfl (hb hpc rfl) rfl
  | returned => simp [Run.step_ended (Or.inl hpc)] at hr
  | threw => simp [Run.step_ended (Or.inr hpc)] at hr

/-- A step of a task: the task that takes it, and what it does. -/
theorem step_act {w w' : World} {t : ℕ} {e : Event} (h : w.step (.act t e) = some w') :
    ∃ r r' w₁, w.tasks[t]? = some r ∧ r.step e = some r' ∧ Kind w r r' e w₁ ∧
      w' = { w₁ with tasks := w.tasks.set t r' } := by
  simp only [World.step, Option.bind_eq_some_iff, Option.map_eq_some_iff] at h
  obtain ⟨r, hr, r', hr', w₁, hw, rfl⟩ := h
  exact ⟨r, r', w₁, hr, hr', kind_of_step hr' hw, rfl⟩

/-! ## A session belongs to one task -/

/-- The session that the run holds changes only when it takes or gives back a session. -/
theorem Kind.held_cases {w w₁ : World} {r r' : Run} {e : Event} (h : Kind w r r' e w₁) :
    (r'.held = r.held ∧ w₁.taken = w.taken) ∨
      (∃ s, s ∉ w.taken ∧ r'.held = some s ∧ w₁.taken = s :: w.taken) ∨
      (∃ s, r.held = some s ∧ r'.held = none ∧
        w₁.taken = w.taken.filter fun s' => s' ≠ s) := by
  cases h with
  | take s hs _ _ _ hr' => exact .inr (.inl ⟨s, hs, hr', rfl⟩)
  | silent _ _ hh => exact .inl ⟨hh, rfl⟩
  | deliver s m hr _ _ hr' => exact .inl ⟨hr'.trans hr.symm, rfl⟩
  | process m text ar hpc hr' =>
      refine .inl ⟨?_, rfl⟩
      subst hr'
      cases r.consumer.bclientack <;> cases ar <;> simp [Run.held, hpc]
  | acknowledge s m hs hpc hr' | acknowledgeOther s m hs hpc hr' | recover s m hs hpc hr' =>
      refine .inl ⟨?_, rfl⟩
      subst hr'
      simp [Run.held, hpc]
  | close s hs hpc hr' => exact .inr (.inr ⟨s, hs, by rw [hr']; rfl, rfl⟩)
  | abandon _ _ _ _ hh => exact .inl ⟨hh, rfl⟩

/-- No two tasks hold the same session, and the sessions they hold are taken. -/
structure Exclusive (w : World) : Prop where
  taken : ∀ (i : ℕ) (r : Run), w.tasks[i]? = some r → ∀ s, r.held = some s → s ∈ w.taken
  one : ∀ (i : ℕ) (r : Run), w.tasks[i]? = some r → ∀ (j : ℕ) (r' : Run),
    w.tasks[j]? = some r' → ∀ s, r.held = some s → r'.held = some s → i = j

theorem exclusive_init (broker : List Message) : Exclusive (World.init broker) :=
  ⟨fun i r h => by simp [World.init] at h, fun i r h => by simp [World.init] at h⟩

/-- A task has moved: its session is taken and held by no other task, and the sessions of the
others are still taken. -/
theorem exclusive_set {w w₁ : World} {t : ℕ} {r r' : Run} (hw : Exclusive w)
    (hr : w.tasks[t]? = some r) (hmoved : ∀ s, r'.held = some s → s ∈ w₁.taken)
    (hothers : ∀ (i : ℕ) (x : Run) (s : SessionId), i ≠ t → w.tasks[i]? = some x →
      x.held = some s → s ∈ w₁.taken ∧ r'.held ≠ some s) :
    Exclusive { w₁ with tasks := w.tasks.set t r' } := by
  constructor
  · refine Threads.forall_set hr hmoved fun i x hi hx s hs => ?_
    exact (hothers i x s hi hx hs).1
  · refine Threads.forall_set hr ?_ fun i x hi hx => ?_
    · refine Threads.forall_set hr (fun _ _ _ => rfl) fun j x hj hx s hs hxs => ?_
      exact absurd hs (hothers j x s hj hx hxs).2
    · refine Threads.forall_set hr ?_ fun j y _ hy => hw.one i x hx j y hy
      intro s hxs hs
      exact absurd hs (hothers i x s hi hx hxs).2

/-- Every step keeps the sessions apart. -/
theorem exclusive_step {w w' : World} {a : Action} (hw : Exclusive w)
    (h : w.step a = some w') : Exclusive w' := by
  cases a with
  | spawn c =>
      simp only [World.step, Option.some.injEq] at h
      subst h
      have hnew : ∀ s, (Run.start c).held ≠ some s := fun s hs => by cases hs
      constructor
      · exact Threads.forall_append (fun s hs => (hnew s hs).elim) hw.taken
      · refine Threads.forall_append (fun j r' _ s hs => (hnew s hs).elim) fun i r hi => ?_
        exact Threads.forall_append (fun s _ hs => (hnew s hs).elim) (hw.one i r hi)
  | act t e =>
      obtain ⟨r, r', w₁, hr, -, hk, rfl⟩ := step_act h
      have hone : ∀ (j : ℕ) (x : Run) (s : SessionId), j ≠ t → w.tasks[j]? = some x →
          x.held = some s → r.held ≠ some s :=
        fun j x s hj hx hx' hs => hj (hw.one j x hx t r hr s hx' hs)
      rcases hk.held_cases with ⟨hh, ht⟩ | ⟨s, hs, hh, ht⟩ | ⟨s, hs, hh, ht⟩
      · -- the session stays where it is
        refine exclusive_set hw hr ?_ ?_
        · intro s hs
          rw [ht]
          exact hw.taken t r hr s (hh ▸ hs)
        · intro i x s hi hx hxs
          rw [ht, hh]
          exact ⟨hw.taken i x hx s hxs, hone i x s hi hx hxs⟩
      · -- the session was not taken, so no other task holds it
        refine exclusive_set hw hr ?_ ?_
        · intro s' hs'
          rw [ht, Option.some.inj (hs'.symm.trans hh)]
          exact List.mem_cons_self
        · intro i x s' hi hx hxs
          have htaken := hw.taken i x hx s' hxs
          refine ⟨ht ▸ List.mem_cons_of_mem s htaken, ?_⟩
          intro hs'
          rw [Option.some.inj (hs'.symm.trans hh)] at htaken
          exact hs htaken
      · -- the task gives its session back, and no other task holds it
        refine exclusive_set hw hr (by simp [hh]) ?_
        intro i x s' hi hx hxs
        refine ⟨?_, by simp [hh]⟩
        rw [ht, List.mem_filter]
        refine ⟨hw.taken i x hx s' hxs, decide_eq_true ?_⟩
        rintro rfl
        exact hone i x s' hi hx hxs hs

end DsAmq.Analysis
