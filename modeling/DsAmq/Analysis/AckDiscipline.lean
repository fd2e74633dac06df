import DsAmq.Analysis.RunSteps

/-!
# What the consumer loop does with each delivered message

In client-acknowledge mode each delivery should be handled by one `process` call and then,
according to its result, by one `acknowledge` or one `recover`.  The calls made for a
delivery are those up to the next loop head (`bodyCalls`), and `Disciplined` is the law they
should follow.

The law holds for `TextMessage`s.  A message of another kind is acknowledged before it is
processed (`DSAMQConsumer.h:203-206` does not end the iteration), and acknowledged or
recovered a second time after it.  So the deliveries of a run without exceptions are all
disciplined exactly when all of its messages are text messages
(`deliveries_disciplined_iff`).

The proof reads the loop body backwards: `Pending pc calls` is what the body still has to
do at `pc`, and `run_pending` shows, by induction on the calls of the run, that it does it.
-/

set_option autoImplicit false

namespace DsAmq.Analysis

open DsAmq.Library DsAmq.Model

/-- The message that a `receive` returned. -/
def received : Event → Option Message
  | .receive (.ok (some m)) => some m
  | _ => none

/-- The calls that handle a message. -/
def handles : Event → Bool
  | .process _ _ _ | .acknowledge _ _ | .recover _ => true
  | _ => false

/-- The calls that handle a message, up to the next loop head. -/
def bodyCalls : List Event → List Event
  | [] => []
  | .isrun _ :: _ => []
  | e :: es => if handles e then e :: bodyCalls es else bodyCalls es

/-- The deliveries of a trace, each with the calls that handle it. -/
def deliveries : List Event → List (Message × List Event)
  | [] => []
  | e :: es =>
      match received e with
      | some m => (m, bodyCalls es) :: deliveries es
      | none => deliveries es

/-- The one call that has to follow a `process` with this result. -/
def verdictCall (m : Message) (ar : AckResult) : Event :=
  if ar = .queueRemove then .acknowledge m (.ok ()) else .recover (.ok ())

/-- **The law of one delivery**: one `process` call, then the one call its result asks for,
and nothing else. -/
def Disciplined (d : Message × List Event) : Prop :=
  ∃ text ar, d.2 = [.process d.1 text (.returns ar), verdictCall d.1 ar]

/-- What the rest of an iteration does when the loop stands at `pc`. -/
def Pending (pc : RunPc) (calls : List Event) : Prop :=
  match pc with
  | .isrun => calls = []
  | .getText m => Disciplined (m, calls)
  | .acknowledgeOther m => ∃ rest, calls = .acknowledge m (.ok ()) :: rest
  | .process m text => ∃ ar, calls = [.process m text (.returns ar), verdictCall m ar]
  | .acknowledge m => calls = [.acknowledge m (.ok ())]
  | .recover _ => calls = [.recover (.ok ())]
  | _ => True

/-- In client-acknowledge mode, a run without exceptions that has finished its iterations
has done, from every place of the loop body on, what the body has to do from there. -/
theorem run_pending {r r' : Run} {es : List Event} (hrun : Run.machine.run r es = some r')
    (hack : r.consumer.bclientack = true) (hes : ∀ e ∈ es, e.throws = false)
    (hend : r'.delivered = none) : Pending r.pc (bodyCalls es) := by
  induction es generalizing r with
  | nil =>
      rw [Machine.run_nil, Option.some.injEq] at hrun
      subst hrun
      cases hpc : r.pc <;> simp [Run.delivered, hpc, Pending, bodyCalls] at hend ⊢
  | cons e es ih =>
      obtain ⟨t, ht, hrun⟩ := Machine.run_cons_eq_some.mp hrun
      have hack' : t.consumer.bclientack = true := (Run.step_bclientack ht).trans hack
      have he : e.throws = false := hes e List.mem_cons_self
      have hnext := ih hrun hack' fun e' h' => hes e' (List.mem_cons_of_mem e h')
      change r.step e = some t at ht
      cases hpc : r.pc with
      | isrun =>
          obtain ⟨b, rfl, -⟩ := (Run.step_isrun hpc).mp ht
          rfl
      | getText m =>
          obtain ⟨text, rfl, -, rfl⟩ | ⟨msg, rfl, -⟩ := (Run.step_getText hpc).mp ht
          · obtain ⟨ar, har⟩ := hnext
            exact ⟨text, ar, har⟩
          · cases he
      | acknowledgeOther m =>
          obtain ⟨rfl, -⟩ | ⟨msg, rfl, -⟩ := (Run.step_acknowledgeOther hpc).mp ht
          · exact ⟨bodyCalls es, rfl⟩
          · cases he
      | process m text =>
          obtain ⟨ar, rfl, rfl⟩ | ⟨msg, rfl, -⟩ | ⟨rfl, -⟩ := (Run.step_process hpc).mp ht
          · refine ⟨ar, ?_⟩
            have hcons : bodyCalls (.process m text (.returns ar) :: es) =
                .process m text (.returns ar) :: bodyCalls es := rfl
            rw [hcons]
            -- the result decides which of the two calls the loop stands at now
            cases ar with
            | queueRemove =>
                simp only [hack, if_true] at hnext
                rw [show bodyCalls es = [.acknowledge m (.ok ())] from hnext]
                rfl
            | queueRetry =>
                simp only [hack, if_true, reduceCtorEq, if_false] at hnext
                rw [show bodyCalls es = [.recover (.ok ())] from hnext]
                rfl
          · cases he
          · cases he
      | acknowledge m =>
          obtain ⟨o, rfl, rfl⟩ := (Run.step_acknowledge hpc).mp ht
          cases o with
          | ok u => exact congrArg (Event.acknowledge m (.ok ()) :: ·) hnext
          | cms msg => cases he
      | recover m =>
          obtain ⟨o, rfl, rfl⟩ := (Run.step_recover hpc).mp ht
          cases o with
          | ok u => exact congrArg (Event.recover (.ok ()) :: ·) hnext
          | cms msg => cases he
      | _ => trivial

/-- A `receive` that returns a message leads to `getText` or to the acknowledgement of a
message that is not a text. -/
theorem pc_of_received {r t : Run} {e : Event} {m : Message} (ht : r.step e = some t)
    (hm : received e = some m) :
    t.pc = if m.isText then .getText m else .acknowledgeOther m := by
  have he : e = .receive (.ok (some m)) := by
    unfold received at hm
    split at hm
    · rw [Option.some.inj hm]
    · cases hm
  subst he
  have hpc : r.pc = .receive := by
    cases hpc : r.pc <;> simp [Run.step, hpc] at ht ⊢
  obtain ⟨h, -⟩ | ⟨m', h, rfl⟩ | ⟨msg, h, -⟩ := (Run.step_receive hpc).mp ht
  · cases h
  · cases h
    rfl
  · cases h

/-- What the calls for one delivery are, by the kind of its message. -/
theorem disciplined_iff_isText {r t r' : Run} {e : Event} {es : List Event} {m : Message}
    (ht : r.step e = some t) (hm : received e = some m)
    (hrun : Run.machine.run t es = some r') (hack : t.consumer.bclientack = true)
    (hes : ∀ e ∈ es, e.throws = false) (hend : r'.delivered = none) :
    Disciplined (m, bodyCalls es) ↔ m.isText = true := by
  have hpc := pc_of_received ht hm
  have hp := run_pending hrun hack hes hend
  cases hb : m.isText with
  | true =>
      rw [hpc, hb, if_pos rfl] at hp
      exact ⟨fun _ => rfl, fun _ => hp⟩
  | false =>
      rw [hpc, hb, if_neg Bool.false_ne_true] at hp
      obtain ⟨rest, hrest⟩ := hp
      refine ⟨?_, fun h => by cases h⟩
      rintro ⟨text, ar, h⟩
      rw [show bodyCalls es = _ from hrest, List.cons.injEq] at h
      cases h.1

/-- **The deliveries of a client-acknowledge run are disciplined exactly when every message
it received is a text message.** -/
theorem deliveries_disciplined_iff {c : Consumer} {r : Run} {es : List Event}
    (hack : c.bclientack = true) (hes : ∀ e ∈ es, e.throws = false)
    (hrun : Run.machine.run (Run.start c) es = some r) (hend : r.delivered = none) :
    (∀ d ∈ deliveries es, Disciplined d) ↔
      ∀ m, Event.receive (.ok (some m)) ∈ es → m.isText = true := by
  -- the loop may stand anywhere when the rest of the trace begins
  suffices h : ∀ (r₀ : Run), r₀.consumer.bclientack = true →
      Run.machine.run r₀ es = some r →
      ((∀ d ∈ deliveries es, Disciplined d) ↔
        ∀ m, Event.receive (.ok (some m)) ∈ es → m.isText = true) from
    h (Run.start c) hack hrun
  clear hrun hack
  induction es with
  | nil => simp [deliveries]
  | cons e es ih =>
      intro r₀ hack hrun
      obtain ⟨t, ht, hrun⟩ := Machine.run_cons_eq_some.mp hrun
      have hack' : t.consumer.bclientack = true := (Run.step_bclientack ht).trans hack
      have hes' : ∀ e ∈ es, e.throws = false := fun e' h' => hes e' (List.mem_cons_of_mem e h')
      have hrest := ih hes' t hack' hrun
      cases hm : received e with
      | some m =>
          have hone := disciplined_iff_isText ht hm hrun hack' hes' hend
          have he : ∀ m', Event.receive (.ok (some m')) = e ↔ m' = m := by
            intro m'
            constructor
            · rintro rfl
              exact Option.some.inj hm
            · rintro rfl
              unfold received at hm
              split at hm
              · rw [Option.some.inj hm]
              · cases hm
          have hcons : deliveries (e :: es) = (m, bodyCalls es) :: deliveries es := by
            simp only [deliveries, hm]
          rw [hcons, List.forall_mem_cons, hrest, hone]
          simp only [List.mem_cons, he]
          constructor
          · rintro ⟨h1, h2⟩ m' (rfl | h')
            · exact h1
            · exact h2 m' h'
          · intro h
            exact ⟨h m (Or.inl rfl), fun m' h' => h m' (Or.inr h')⟩
      | none =>
          have he : ∀ m', Event.receive (.ok (some m')) ≠ e := by
            rintro m' rfl
            cases hm
          simp only [deliveries, hm, List.mem_cons, he, hrest, false_or]

/-- A run that receives the message `m`, handles it by `calls`, and is then stopped. -/
def oneDelivery (m : Message) (calls : List Event) : List Event :=
  [.takeSession (.ok 0), .createDestination ⟨.queue, "TEST.FOO"⟩ (.ok ()),
    .createCachedConsumer (.ok ()), .isrun true, .receive (.ok none), .isrun true,
    .receive (.ok (some m))] ++ calls ++ [.isrun false, .close (.ok ())]

/-- The run of `oneDelivery` on a text message that is to be retried. -/
theorem deliveries_disciplined_iff_retried_text :
    (∀ d ∈ deliveries (oneDelivery ⟨0, .text "a"⟩
        [.getText ⟨0, .text "a"⟩ (.ok "a"),
          .process ⟨0, .text "a"⟩ "a" (.returns .queueRetry), .recover (.ok ())]),
      Disciplined d) ↔
    ∀ m, Event.receive (.ok (some m)) ∈ oneDelivery ⟨0, .text "a"⟩
        [.getText ⟨0, .text "a"⟩ (.ok "a"),
          .process ⟨0, .text "a"⟩ "a" (.returns .queueRetry), .recover (.ok ())] →
      m.isText = true :=
  deliveries_disciplined_iff (c := Consumer.new "TEST.FOO" 0 false true 3000)
    (r := ⟨⟨some ⟨.queue, "TEST.FOO"⟩, false, "TEST.FOO", true, "", 3000, 0, some 0⟩, some 0,
      .returned⟩) rfl (by decide) rfl rfl

/-- A message that is not a text, and whose `process` asks for a retry, is acknowledged
before it is processed: it is gone from the broker when the retry is asked for. -/
theorem other_message_not_disciplined :
    let es := oneDelivery ⟨0, .other⟩
      [.acknowledge ⟨0, .other⟩ (.ok ()),
        .process ⟨0, .other⟩ "" (.returns .queueRetry), .recover (.ok ())]
    (Consumer.new "TEST.FOO" 0 false true 3000).bclientack = true ∧
      (∀ e ∈ es, e.throws = false) ∧
      (Run.machine.run (Run.start (Consumer.new "TEST.FOO" 0 false true 3000)) es).map
        Run.pc = some .returned ∧
      ¬ ∀ d ∈ deliveries es, Disciplined d := by
  refine ⟨rfl, by decide, rfl, ?_⟩
  intro h
  obtain ⟨text, ar, hd⟩ := h (⟨0, .other⟩, [.acknowledge ⟨0, .other⟩ (.ok ()),
    .process ⟨0, .other⟩ "" (.returns .queueRetry), .recover (.ok ())]) (by decide)
  cases hd

end DsAmq.Analysis
