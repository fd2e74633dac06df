import DsAmq.Analysis.ClientAck
import DsAmq.Analysis.FaithfulSend
import DsAmq.Library.OpenQueue
import DsAmq.Model.Pipeline

/-!
# From `sendmessage` to `process`

Producers and consumers together, on one queue: the sends that were accepted are, in any order, the
messages that are still to be consumed and those whose `process` call returned `QUEUE_REMOVE`
(`sent_messages_conserved`).  So a text for which `sendmessage` returned true is not lost, and no
text is removed twice or invented.

The consumers are in client-acknowledge mode, and no call of theirs throws while its loop body works
on a message (`Calm`).  Such a world simulates the at-least-once queue (`queueOf_step`), and a send
that is accepted adds one message to it (`queueOf_arrive`); the conservation law of the abstract
queue with arrivals does the rest.
-/

set_option autoImplicit false

namespace DsAmq.Analysis

open DsAmq.Model DsAmq.Library

/-! ## The consumers -/

/-- Every task is in client-acknowledge mode, and no call throws while the loop body works on a
message. -/
def Calm (w : World) : Action → Prop
  | .spawn c => c.bclientack = true
  | .act t e => e.throws = true → ∀ r ∈ w.tasks[t]?, r.delivered = none

instance decidableCalm (w : World) : (a : Action) → Decidable (Calm w a)
  | .spawn c => inferInstanceAs (Decidable (c.bclientack = true))
  | .act t e =>
      inferInstanceAs (Decidable (e.throws = true → ∀ r ∈ w.tasks[t]?, r.delivered = none))

variable {w w' : World} {a : Action}

/-- A call that throws between two messages touches neither the broker nor what is in flight. -/
theorem thrown_step {t : ℕ} {e : Event} (hcalm : Calm w (.act t e)) (hthrows : e.throws = true)
    (h : w.step (.act t e) = some w') :
    ∃ r r', w.tasks[t]? = some r ∧ r.step e = some r' ∧ shows e = false ∧ r'.held = r.held ∧
      r'.delivered = r.delivered ∧ acking r = none ∧ acking r' = none ∧
      w' = { w with tasks := w.tasks.set t r' } := by
  obtain ⟨r, r', w₁, hr, hstep, hkind, rfl⟩ := step_act h
  have hnone : r.delivered = none := hcalm hthrows r hr
  cases hkind with
  | silent _ hshows hheld hdelivered hack hack' =>
      exact ⟨r, r', hr, hstep, hshows, hheld, hdelivered, hack, hack', rfl⟩
  | abandon _ m _ hd =>
      rw [hnone] at hd
      cases hd
  | take | deliver | process | acknowledge | acknowledgeOther | recover | close => cases hthrows

/-- A calm step keeps the deliveries settled. -/
theorem settled_of_calm (hw : Settled w) (hx : Exclusive w) (hcalm : Calm w a)
    (h : w.step a = some w') : Settled w' := by
  cases a with
  | spawn c => exact settled_step (a := .spawn c) hw hx hcalm h
  | act t e =>
      cases hthrows : e.throws with
      | false => exact settled_step (a := .act t e) hw hx hthrows h
      | true =>
          obtain ⟨r, r', hr, hstep, hshows, hheld, hdelivered, -, -, rfl⟩ :=
            thrown_step hcalm hthrows h
          have hrun : TextRun r' := by
            refine textRun_step (hw.run t r hr) hstep ?_
            rintro m rfl
            cases hshows
          exact settled_frame hw hr hrun hdelivered (.inr hheld) w.taken

/-- A calm step is a step of the at-least-once queue, or shows nothing. -/
theorem queueOf_step (hw : Settled w) (hx : Exclusive w) (hcalm : Calm w a)
    (h : w.step a = some w') :
    (AtLeastOnce.machine Message.textOf).run (queueOf w) (processed a) = some (queueOf w') := by
  have hquiet : Quiet a →
      (AtLeastOnce.machine Message.textOf).run (queueOf w) (processed a) = some (queueOf w') := by
    intro hquiet
    obtain ⟨q, hq, -, -, rfl⟩ :=
      represents_simulation.step w (queueOf w) a w' ⟨hw, hx, rfl⟩ hquiet h
    exact hq
  cases a with
  | spawn c => exact hquiet hcalm
  | act t e =>
      cases hthrows : e.throws with
      | false => exact hquiet hthrows
      | true =>
          obtain ⟨r, r', hr, -, hshows, -, -, hack, hack', rfl⟩ := thrown_step hcalm hthrows h
          have hsilent : processed (.act t e) = [] := by
            unfold shows at hshows
            unfold processed
            split <;> simp_all
          rw [hsilent, Machine.run_nil, queueOf_of_none hr hack hack' rfl]

/-- A step of the consumers adds nothing to the broker. -/
theorem broker_subset_of_step (h : w.step a = some w') : ∀ m ∈ w'.broker, m ∈ w.broker := by
  intro m hm
  cases a with
  | spawn c =>
      cases h
      exact hm
  | act t e =>
      obtain ⟨r, r', w₁, -, -, hkind, rfl⟩ := step_act h
      cases hkind with
      | acknowledge | acknowledgeOther => exact (List.mem_filter.mp hm).1
      | take | silent | deliver | process | recover | close | abandon => exact hm

/-! ## A message arrives -/

/-- A message that arrives leaves the deliveries settled. -/
theorem settled_arrive {m : Message} (hw : Settled w) (hfresh : m ∉ w.broker)
    (htext : m.isText = true) : Settled { w with broker := w.broker ++ [m] } where
  nodup := by
    rw [List.nodup_append]
    refine ⟨hw.nodup, List.nodup_singleton m, ?_⟩
    rintro x hx y hy rfl
    exact hfresh (List.mem_singleton.mp hy ▸ hx)
  text x hx := by
    rcases List.mem_append.mp hx with hx | hx
    · exact hw.text x hx
    · rw [List.mem_singleton.mp hx]
      exact htext
  run := hw.run
  worked := hw.worked
  working := hw.working
  stored p hp := List.mem_append_left _ (hw.stored p hp)
  once := hw.once

/-- A message that arrives is put into the abstract queue. -/
theorem queueOf_arrive {m : Message} (hw : Settled w) (hfresh : m ∉ w.broker) :
    queueOf { w with broker := w.broker ++ [m] } = queueOf w ++ [m] := by
  have hacked : acked w m = false := by
    rw [Bool.eq_false_iff]
    intro hm
    obtain ⟨i, r, hi, hack⟩ := acked_iff.mp hm
    obtain ⟨s, -, hin⟩ := hw.working i r hi m (delivered_of_acking hack)
    exact hfresh (hw.stored _ hin)
  have hsame : ∀ x, acked { w with broker := w.broker ++ [m] } x = acked w x := fun x => rfl
  unfold queueOf
  simp only [hsame, List.filter_append, List.filter_singleton, hacked, Bool.not_false, cond_true]

/-! ## Producers and consumers -/

variable {n : ℕ} {d : Destination} {uri : String} {s s' : Pipeline}

/-- The consumers are calm. -/
def CalmStep (s : Pipeline) : PipelineAction → Prop
  | .send _ => True
  | .consume a => Calm s.world a

instance decidableCalmStep (s : Pipeline) : (a : PipelineAction) → Decidable (CalmStep s a)
  | .send _ => isTrue trivial
  | .consume a => decidableCalm s.world a

/-- A step of the consumers shows at most one `process` call. -/
theorem processed_cases (a : Action) : processed a = [] ∨ ∃ p, processed a = [p] := by
  unfold processed
  split
  · exact .inr ⟨_, rfl⟩
  · exact .inl rfl

/-- What a step shows of the queue: a message that arrives, or a `process` call that returns. -/
def shown (uri : String) (s : Pipeline) :
    PipelineAction → Option (OpenQueue.Event Message String)
  | .send a => ((s.send.step a).bind fun send => (s.arrivals uri send).head?).map .put
  | .consume a => (processed a).head?.map .processed

/-- The history of the queue over a run. -/
def history (uri : String) (s : Pipeline) (as : List PipelineAction) :
    List (OpenQueue.Event Message String) :=
  (Pipeline.machine uri).collect (shown uri) s as

theorem queuedMessages_append {sends : List (ℕ × Sent)} {x : ℕ × Sent}
    (hx : x.2.destination = Destination.select false uri) :
    queuedMessages uri (sends ++ [x]) =
      queuedMessages uri sends ++ [⟨sends.length, .text x.2.body⟩] := by
  simp [queuedMessages, List.zipIdx_append, hx]

theorem queuedMessages_nodup (uri : String) (sends : List (ℕ × Sent)) :
    (queuedMessages uri sends).Nodup := by
  apply List.Nodup.of_map Message.id
  unfold queuedMessages
  rw [List.map_map]
  have hsub : ((sends.zipIdx.filter fun x =>
      x.1.2.destination = Destination.select false uri).map Prod.snd).Sublist
        (sends.zipIdx.map Prod.snd) :=
    List.filter_sublist.map _
  refine List.Nodup.sublist hsub ?_
  rw [List.zipIdx_map_snd]
  exact List.nodup_range'

/-- A step of the producers accepts nothing, or one send to the destination of the pool. -/
theorem accepted_of_step {s s' : SendSystem} {a : SendAction} (howned : Owned n d s)
    (hfaithful : SendsFaithfully d s) (h : s.step a = some s') :
    s'.shared.accepted = s.shared.accepted ∨
      ∃ t msg, s'.shared.accepted = s.shared.accepted ++ [(t, ⟨d, msg, .persistent⟩)] := by
  cases a with
  | begin msg =>
      cases h
      exact .inl rfl
  | act t r =>
      obtain ⟨c, g', c', hc, hcall, rfl⟩ := act_eq_some h
      obtain ⟨-, hext, -⟩ := move_faithful howned.slots howned.configured
        (fun k hk => mem_held hc hk) (hfaithful.calls t c hc) (howned.move hc hcall)
      rcases hext.accepted with heq | ⟨-, heq⟩
      · exact .inl heq
      · exact .inr ⟨t, c.strMessage, heq⟩

/-- The invariant: the history of the queue leads the abstract queue to what the world stands for,
and what was put is what was accepted. -/
structure Conserved (n : ℕ) (uri : String) (out : List (OpenQueue.Event Message String))
    (s : Pipeline) : Prop where
  owned : Owned n (Destination.select false uri) s.send
  faithful : SendsFaithfully (Destination.select false uri) s.send
  settled : Settled s.world
  exclusive : Exclusive s.world
  queue : (OpenQueue.machine Message.textOf).run [] out = some (queueOf s.world)
  puts : OpenQueue.puts out = queuedMessages uri s.send.shared.accepted
  below : ∀ m ∈ s.world.broker, m.id < s.send.shared.accepted.length

/-- A step of the producers. -/
theorem Conserved.send {out : List (OpenQueue.Event Message String)} {a : SendAction}
    (h : Conserved n uri out s) (hstep : s.step uri (.send a) = some s') :
    Conserved n uri (out ++ (shown uri s (.send a)).toList) s' := by
  obtain ⟨send, hsend, rfl⟩ := Option.map_eq_some_iff.mp hstep
  have howned := owned_step h.owned hsend
  have hfaithful := sendsFaithfully_step h.owned h.faithful hsend
  rcases accepted_of_step h.owned h.faithful hsend with hsame | ⟨t, msg, happ⟩
  · have hnone : s.arrivals uri send = [] := by simp [Pipeline.arrivals, hsame]
    have hshown : shown uri s (.send a) = none := by simp [shown, hsend, hnone]
    rw [hshown, hnone]
    simp only [Option.toList_none, List.append_nil]
    refine ⟨howned, hfaithful, h.settled, h.exclusive, h.queue, ?_, ?_⟩
    · rw [h.puts, hsame]
    · rw [hsame]
      exact h.below
  · -- the message is numbered by the sends before it, so that it is new to the broker
    have hqueued : queuedMessages uri send.shared.accepted =
        queuedMessages uri s.send.shared.accepted ++
          [⟨s.send.shared.accepted.length, .text msg⟩] := by
      rw [happ, queuedMessages_append rfl]
    have hone : s.arrivals uri send = [⟨s.send.shared.accepted.length, .text msg⟩] := by
      unfold Pipeline.arrivals
      rw [hqueued, List.drop_left]
    have hshown : shown uri s (.send a) =
        some (.put ⟨s.send.shared.accepted.length, .text msg⟩) := by
      simp [shown, hsend, hone]
    have hfresh : (⟨s.send.shared.accepted.length, .text msg⟩ : Message) ∉ s.world.broker := by
      intro hmem
      exact Nat.lt_irrefl _ (h.below _ hmem)
    rw [hshown, hone]
    refine ⟨howned, hfaithful, settled_arrive h.settled hfresh rfl,
      ⟨h.exclusive.taken, h.exclusive.one⟩, ?_, ?_, ?_⟩
    · rw [Machine.run_append, h.queue, queueOf_arrive h.settled hfresh]
      rfl
    · rw [hqueued, ← h.puts]
      simp [OpenQueue.puts, OpenQueue.Event.putOf]
    · intro m hm
      rw [happ, List.length_append, List.length_singleton]
      rcases List.mem_append.mp hm with hm | hm
      · exact Nat.lt_succ_of_lt (h.below m hm)
      · rw [List.mem_singleton.mp hm]
        exact Nat.lt_succ_self _

/-- A step of the consumers. -/
theorem Conserved.consume {out : List (OpenQueue.Event Message String)} {a : Action}
    (h : Conserved n uri out s) (hcalm : Calm s.world a)
    (hstep : s.step uri (.consume a) = some s') :
    Conserved n uri (out ++ (shown uri s (.consume a)).toList) s' := by
  simp only [Pipeline.step] at hstep
  split at hstep
  · cases hstep
  · obtain ⟨world, hworld, rfl⟩ := Option.map_eq_some_iff.mp hstep
    have hqueue := queueOf_step h.settled h.exclusive hcalm hworld
    refine ⟨h.owned, h.faithful, settled_of_calm h.settled h.exclusive hcalm hworld,
      exclusive_step h.exclusive hworld, ?_, ?_, ?_⟩
    · rw [Machine.run_append, h.queue, Option.bind_some]
      rcases processed_cases a with hp | ⟨p, hp⟩
      · rw [hp] at hqueue
        simpa [shown, hp] using hqueue
      · rw [hp] at hqueue
        simpa [shown, hp, OpenQueue.machine, Machine.run_cons] using hqueue
    · rw [← h.puts]
      rcases processed_cases a with hp | ⟨p, hp⟩ <;>
        simp [shown, hp, OpenQueue.puts, OpenQueue.Event.putOf]
    · intro m hm
      exact h.below m (broker_subset_of_step hworld m hm)

/-- The manager of a created pool and an empty queue. -/
theorem conserved_init {w₀ w : MgrWorld} {cr : CreateCall}
    {modes : SessionId → Destination → DeliveryMode} (hcreated : CreatedBy w₀ cr w)
    (hqueue : givenDestination w₀.mgr cr = Destination.select false uri) :
    Conserved (min cr.nPoolSize.toNat 50) uri [] (.init w modes) := by
  have hnil := SendSystem.machine.run_nil (.init w modes)
  refine ⟨?_, ?_, settled_init List.nodup_nil (by simp), exclusive_init [], rfl, rfl, ?_⟩
  · rw [← hqueue]
    exact owned_of_run hcreated hnil
  · rw [← hqueue]
    exact (sendsFaithfully_of_run hcreated hnil).1
  · simp [Pipeline.init, World.init]

/-- What was accepted is still to be consumed or was removed. -/
theorem Conserved.perm {out : List (OpenQueue.Event Message String)} (h : Conserved n uri out s) :
    (queueOf s.world ++ OpenQueue.removed out).Perm
      (queuedMessages uri s.send.shared.accepted) := by
  have hperm := OpenQueue.run_perm h.queue
  rw [List.nil_append, h.puts] at hperm
  exact hperm

/-- **From `sendmessage` to `process`, nothing is lost and nothing is removed twice.**  The
producers of a created pool for the queue `uri` and any number of client-acknowledge consumers on
that queue, in any interleaving, with any answers of the library to the producers, and no consumer
call throwing while its loop body works on a message.  In every state that is reached: the sends
that were accepted are, in some order, the messages still to be consumed and the messages whose
`process` call returned `QUEUE_REMOVE`; all of them are distinct; `process` was only ever called on
one of them, with its own text; and a call of `sendmessage` that returned has exactly one of them,
with its text, if it returned true, and none if it returned false. -/
theorem sent_messages_conserved {w₀ w : MgrWorld} {cr : CreateCall} {uri : String}
    {modes : SessionId → Destination → DeliveryMode} {as : List PipelineAction} {s : Pipeline}
    (hcreated : CreatedBy w₀ cr w)
    (hqueue : givenDestination w₀.mgr cr = Destination.select false uri)
    (hcalm : (Pipeline.machine uri).Meets CalmStep (.init w modes) as)
    (hrun : (Pipeline.machine uri).run (.init w modes) as = some s) :
    (queueOf s.world ++ OpenQueue.removed (history uri (.init w modes) as)).Perm
        (queuedMessages uri s.send.shared.accepted) ∧
      (queuedMessages uri s.send.shared.accepted).Nodup ∧
      (∀ p, .processed p ∈ history uri (.init w modes) as →
        p.message ∈ queuedMessages uri s.send.shared.accepted ∧ p.message.textOf = p.content) ∧
      ∀ (t : ℕ) c b, s.send.calls[t]? = some c → c.pc = .ended (.returned b) →
        acceptedBy s.send.shared t =
          if b then [⟨Destination.select false uri, c.strMessage, .persistent⟩] else [] := by
  have h : Conserved (min cr.nPoolSize.toNat 50) uri (history uri (.init w modes) as) s := by
    refine Machine.run_inv_collect (M := Pipeline.machine uri) ?_ (conserved_init hcreated hqueue)
      hcalm hrun
    intro out s a s' h hcalm hstep
    cases a with
    | send a => exact h.send hstep
    | consume a => exact h.consume hcalm hstep
  refine ⟨h.perm, queuedMessages_nodup uri _, ?_, ?_⟩
  · intro p hp
    have hprocessed := OpenQueue.processed_of_run h.queue hp
    rw [List.nil_append, h.puts] at hprocessed
    exact hprocessed
  · intro t c b hc hpc
    have hsends := (h.faithful.calls t c hc).sends b (by simp [verdict, hpc])
    rw [hsends]
    cases b <;> rfl

/-- A text is sent; the first consumer fails at `receive`, before it has a message, and the second
one asks for a retry, gets the message again and removes it. -/
def sentAndConsumed : List PipelineAction :=
  let c := Consumer.new "orders" 0 false true 3000
  let d : Destination := ⟨.queue, "orders"⟩
  let m : Message := ⟨0, .text "x"⟩
  ([.begin "x", .act 0 .tau, .act 0 .tau, .act 0 (.session (.ok (some 7))), .act 0 .tau,
    .act 0 .tau, .act 0 .tau, .act 0 .tau, .act 0 .tau, .act 0 (.call (.ok ())),
    .act 0 (.call (.ok ())), .act 0 (.call (.ok ())), .act 0 (.call (.ok ())),
    .act 0 (.call (.ok ()))] : List SendAction).map .send ++
  ([.spawn c, .act 0 (.takeSession (.ok 0)), .act 0 (.createDestination d (.ok ())),
    .act 0 (.createCachedConsumer (.ok ())), .act 0 (.isrun true),
    .act 0 (.receive (.cms "lost")), .act 0 (.close (.ok ())), .spawn c,
    .act 1 (.takeSession (.ok 0)), .act 1 (.createDestination d (.ok ())),
    .act 1 (.createCachedConsumer (.ok ())), .act 1 (.isrun true),
    .act 1 (.receive (.ok (some m))), .act 1 (.getText m (.ok "x")),
    .act 1 (.process m "x" (.returns .queueRetry)), .act 1 (.recover (.ok ())),
    .act 1 (.isrun true), .act 1 (.receive (.ok (some m))), .act 1 (.getText m (.ok "x")),
    .act 1 (.process m "x" (.returns .queueRemove)),
    .act 1 (.acknowledge m (.ok ()))] : List Action).map .consume

theorem sent_messages_conserved_one :
    ∃ s, (Pipeline.machine "orders").run (.init oneProducer fun _ _ => .nonPersistent)
        sentAndConsumed = some s ∧ s.world.broker = [] ∧
      (OpenQueue.removed (history "orders" (.init oneProducer fun _ _ => .nonPersistent)
        sentAndConsumed)).Perm [⟨0, .text "x"⟩] := by
  have hcalm : (Pipeline.machine "orders").Meets CalmStep
      (.init oneProducer fun _ _ => .nonPersistent) sentAndConsumed := by
    decide +kernel
  have hstate : ((Pipeline.machine "orders").run (.init oneProducer fun _ _ => .nonPersistent)
      sentAndConsumed).map (fun s => (s.world.broker, s.send.shared.accepted)) =
      some ([], [(0, ⟨⟨.queue, "orders"⟩, "x", .persistent⟩)]) := by
    decide +kernel
  obtain ⟨s, hrun, hstate⟩ := Option.map_eq_some_iff.mp hstate
  obtain ⟨hbroker, haccepted⟩ := Prod.mk.inj hstate
  obtain ⟨hperm, -⟩ := sent_messages_conserved oneProducer_createdBy rfl hcalm hrun
  refine ⟨s, hrun, hbroker, ?_⟩
  rw [queueOf, hbroker, haccepted] at hperm
  exact hperm

end DsAmq.Analysis
