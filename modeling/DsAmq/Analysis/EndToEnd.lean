import DsAmq.Analysis.Conservation
import DsAmq.Analysis.DeployedTasks

/-!
# From `sendmessage` to the return of `StopProcess`

A program of consumers from `StartProcess` to `StopProcess`, with its worker threads, beside the
producers of the same queue.  The tasks that the pool makes are client-acknowledge consumers of that
queue (`Deployed.task`), so that what the program does with the queue is a run of the pipeline, and
the conservation law of the pipeline holds of it.  When `StopProcess` has returned, every `run` is
over (`Deployed.ended`): then no delivery is open, and what was sent and not removed is in the broker
(`deployment_conserves`).
-/

set_option autoImplicit false

namespace DsAmq.Analysis

open DsAmq.Model DsAmq.Library

variable {n : ℕ} {uri : String} {a : StartArgs} {v : PoolWorld} {s s' : Deployment}
  {x : DeploymentAction} {out : List (OpenQueue.Event Message String)}

/-- What a step shows of the queue. -/
def shownBy (uri : String) (s : Deployment) :
    DeploymentAction → Option (OpenQueue.Event Message String)
  | .send x => shown uri s.pipeline (.send x)
  | .call p e => (s.runs p).bind fun t => shown uri s.pipeline (.consume (.act t e))
  | _ => none

/-- The history of the queue over a run of the program. -/
def queueLog (uri : String) (a : StartArgs) (s : Deployment) (xs : List DeploymentAction) :
    List (OpenQueue.Event Message String) :=
  (Deployment.machine uri a).collect (shownBy uri) s xs

/-- No call of a `run` throws while its loop body works on a message, and no wait of `StopProcess`
is given up. -/
def CalmDeployment (s : Deployment) : DeploymentAction → Prop
  | .call p e => ∀ t ∈ s.runs p, Calm s.pipeline.world (.act t e)
  | .pool x => TerminationSeen s.pool x
  | _ => True

instance decidableCalmDeployment (s : Deployment) :
    (x : DeploymentAction) → Decidable (CalmDeployment s x)
  | .call p e => inferInstanceAs (Decidable (∀ t ∈ s.runs p, Calm s.pipeline.world (.act t e)))
  | .pool x => inferInstanceAs (Decidable (TerminationSeen s.pool x))
  | .send _ | .start _ | .begin _ _ => isTrue trivial

theorem waitsSeen_of_calm (h : CalmDeployment s x) : WaitsSeen s x := by
  cases x with
  | pool x => exact h
  | _ => trivial

/-- The call of `StartProcess` is for client-acknowledge consumers of the queue. -/
structure ForQueue (uri : String) (a : StartArgs) : Prop where
  destURI : a.destURI = uri
  useTopic : a.useTopic = false
  clientAck : a.clientAck = true

/-- A task of the pool is a client-acknowledge consumer of the queue. -/
theorem ForQueue.task (h : ForQueue uri a) (id : ℤ) :
    Pipeline.elsewhere uri (.spawn (taskOf a id)) = false ∧ (taskOf a id).bclientack = true := by
  constructor
  · simp [Pipeline.elsewhere, taskOf, Consumer.new, h.destURI, h.useTopic]
  · exact h.clientAck

/-- **The step lemma**: a step of the program is a step of the pipeline, or none. -/
theorem conserved_deployment (hargs : ForQueue uri a) (hdeployed : Deployed a v s)
    (h : Conserved n uri out s.pipeline) (hcalm : CalmDeployment s x)
    (hstep : s.step uri a x = some s') :
    Conserved n uri (out ++ (shownBy uri s x).toList) s'.pipeline := by
  have hquiet : shownBy uri s x = none →
      s'.pipeline = s.pipeline → Conserved n uri (out ++ (shownBy uri s x).toList) s'.pipeline := by
    intro hnone hsame
    rw [hnone, hsame, Option.toList_none, List.append_nil]
    exact h
  cases deployMove_of_step hstep with
  | send hsend => exact h.send hsend
  | start | complete | after | stop => exact hquiet rfl rfl
  | @begin e p c hp hnone hc =>
      obtain ⟨id, rfl⟩ := hdeployed.task hp hc
      obtain ⟨hhere, hack⟩ := hargs.task id
      exact h.consume (a := .spawn (taskOf a id)) hack (by simp [Pipeline.step, hhere, World.step])
  | @call p e t world ht hworld =>
      have hshown : shownBy uri s (.call p e) = shown uri s.pipeline (.consume (.act t e)) := by
        simp [shownBy, ht]
      rw [hshown]
      exact h.consume (hcalm t ht) (by simp [Pipeline.step, Pipeline.elsewhere, hworld])

/-- Where every `run` is over, no delivery is open and nothing is about to be acknowledged. -/
theorem settled_ended {w : World} (h : Settled w) (hended : ∀ y ∈ w.tasks, y.ended = true) :
    w.inflight = [] ∧ queueOf w = w.broker := by
  have hnone : ∀ y ∈ w.tasks, y.delivered = none := by
    intro y hy
    have hpc := hended y hy
    unfold Run.ended at hpc
    rw [Bool.or_eq_true, decide_eq_true_eq, decide_eq_true_eq] at hpc
    unfold Run.delivered
    rcases hpc with hpc | hpc <;> rw [hpc]
  constructor
  · rw [List.eq_nil_iff_forall_not_mem]
    intro d hd
    obtain ⟨i, y, hy, -, hdelivered⟩ := h.worked d hd
    rw [hnone y (List.mem_of_getElem? hy)] at hdelivered
    cases hdelivered
  · unfold queueOf
    rw [List.filter_eq_self]
    intro m _
    rw [Bool.not_eq_true', Bool.eq_false_iff]
    intro hacked
    obtain ⟨i, y, hy, hack⟩ := acked_iff.mp hacked
    have hdelivered := delivered_of_acking hack
    rw [hnone y (List.mem_of_getElem? hy)] at hdelivered
    cases hdelivered

/-- **From `sendmessage` to the return of `StopProcess`, nothing is lost.**  A program of consumers,
for the queue `uri` in client-acknowledge mode and of any size, whose pool had no tasks before, and
the producers of a created pool for that queue: all statements of `StartProcess`, `afterExecute`,
`StopProcess`, `sendmessage` and of the runs, in any interleaving, with any answers of the library,
refused tasks included, as long as no consumer call throws while its loop body works on a message
and no wait of `StopProcess` is given up.  In every state that is reached, the sends that were
accepted are, in some order, the messages still to be consumed and the messages whose `process` call
returned `QUEUE_REMOVE`, all distinct.  When `StopProcess` has returned, every `run` is over, no
delivery is open, and what was accepted and not removed is in the broker. -/
theorem deployment_conserves {m₀ m : MgrWorld} {cr : CreateCall}
    {modes : SessionId → Destination → DeliveryMode} {ops : List PoolOp}
    {xs : List DeploymentAction} (hcreated : CreatedBy m₀ cr m)
    (hqueue : givenDestination m₀.mgr cr = Destination.select false uri)
    (hv : PoolWorld.machine.run .new ops = some v) (hempty : v.pool.sTask = ∅)
    (hargs : ForQueue uri a)
    (hcalm : (Deployment.machine uri a).Meets CalmDeployment (.init m modes v) xs)
    (hrun : (Deployment.machine uri a).run (.init m modes v) xs = some s) :
    (queueOf s.pipeline.world ++ OpenQueue.removed (queueLog uri a (.init m modes v) xs)).Perm
        (queuedMessages uri s.pipeline.send.shared.accepted) ∧
      (queuedMessages uri s.pipeline.send.shared.accepted).Nodup ∧
      (s.pool.stop = .returned →
        (∀ y ∈ s.pipeline.world.tasks, y.ended = true) ∧ s.pipeline.world.inflight = [] ∧
        (s.pipeline.world.broker ++
          OpenQueue.removed (queueLog uri a (.init m modes v) xs)).Perm
            (queuedMessages uri s.pipeline.send.shared.accepted)) := by
  obtain ⟨S, hreg⟩ := registered_of_run hv
  have hinit : Deployed a v (.init m modes v) := deployed_init (hreg.accepted_eq_nil hempty)
  obtain ⟨hdeployed, hconserved⟩ : Deployed a v s ∧
      Conserved (min cr.nPoolSize.toNat 50) uri (queueLog uri a (.init m modes v) xs)
        s.pipeline := by
    refine Machine.run_inv_collect (M := Deployment.machine uri a)
      (I := fun out s => Deployed a v s ∧ Conserved _ uri out s.pipeline) ?_
      ⟨hinit, conserved_init hcreated hqueue⟩ hcalm hrun
    intro out s x s' h hcalm hstep
    exact ⟨deployed_step h.1 (waitsSeen_of_calm hcalm) hstep, conserved_deployment hargs h.1 h.2 hcalm hstep⟩
  refine ⟨hconserved.perm, queuedMessages_nodup uri _, ?_⟩
  intro hstop
  have hended := hdeployed.ended (by rw [hstop]; rfl)
  obtain ⟨hinflight, hbroker⟩ := settled_ended hconserved.settled hended
  refine ⟨hended, hinflight, ?_⟩
  rw [← hbroker]
  exact hconserved.perm

/-- A whole call of `sendmessage`, the `t`-th on one producer; the first one makes the
destination. -/
def sendCall (t : ℕ) (text : String) : List SendAction :=
  [.begin text, .act t .tau, .act t .tau, .act t (.session (.ok (some 7)))] ++
  List.replicate 5 (.act t .tau) ++
  List.replicate (if t = 0 then 5 else 4) (.act t (.call (.ok ()))) ++
  [.act t .tau, .act t (.call (.ok ())), .act t .tau, .act t .tau, .act t .tau]

/-- Two texts are sent.  A pool of one task consumes the first of them; while `StopProcess` shuts it
down, the task completes, and the one that is to replace it is refused. -/
def twoSentOneConsumed : List DeploymentAction :=
  let m : Message := ⟨0, .text "x"⟩
  (sendCall 0 "x" ++ sendCall 1 "y").map .send ++
  [.start .tau, .start .tau, .start .tau, .start (.call (.ok ())), .start (.redelivery .policy),
   .start (.call (.ok ())), .start .tau, .start (.call (.ok ())), .start .tau,
   .start (.executor none), .start (.address 5), .start .tau, .start (.execute .ok),
   .begin 0 5, .call 5 (.takeSession (.ok 0)), .start .tau,
   .call 5 (.createDestination ⟨.queue, "orders"⟩ (.ok ())),
   .call 5 (.createCachedConsumer (.ok ())), .start .tau, .call 5 (.isrun true),
   .call 5 (.receive (.ok (some m))), .call 5 (.getText m (.ok "x")), .pool (.stop .tau),
   .call 5 (.process m "x" (.returns .queueRemove)), .call 5 (.acknowledge m (.ok ())),
   .call 5 (.isrun false), .call 5 (.close (.ok ())), .pool (.complete 0 5), .pool (.stop .tau),
   .pool (.after 0 .tau), .pool (.after 0 .tau), .pool (.after 0 .tau),
   .pool (.after 0 (.address 6)), .pool (.stop .tau), .pool (.after 0 .tau),
   .pool (.after 0 (.execute (.rejected "shut down"))), .pool (.stop .tau), .pool (.after 0 .tau),
   .pool (.stop (.awaited .terminated))] ++
  List.replicate 6 (.pool (.stop .tau))

theorem deployment_conserves_two_sent_one_consumed :
    ∃ s, (Deployment.machine "orders" ⟨"broker", "orders", false, true, 3000, 1⟩).run
        (.init oneProducer (fun _ _ => .nonPersistent) .new) twoSentOneConsumed = some s ∧
      s.pool.stop = .returned ∧
      (s.pipeline.world.broker ++ OpenQueue.removed
        (queueLog "orders" ⟨"broker", "orders", false, true, 3000, 1⟩
          (.init oneProducer (fun _ _ => .nonPersistent) .new) twoSentOneConsumed)).Perm
        [⟨0, .text "x"⟩, ⟨1, .text "y"⟩] := by
  have hcalm : (Deployment.machine "orders" ⟨"broker", "orders", false, true, 3000, 1⟩).Meets
      CalmDeployment (.init oneProducer (fun _ _ => .nonPersistent) .new) twoSentOneConsumed := by
    decide +kernel
  have hstate : ((Deployment.machine "orders" ⟨"broker", "orders", false, true, 3000, 1⟩).run
      (.init oneProducer (fun _ _ => .nonPersistent) .new) twoSentOneConsumed).map
        (fun s => (s.pool.stop, queuedMessages "orders" s.pipeline.send.shared.accepted)) =
      some (.returned, [⟨0, .text "x"⟩, ⟨1, .text "y"⟩]) := by
    decide +kernel
  obtain ⟨s, hrun, hs⟩ := Option.map_eq_some_iff.mp hstate
  obtain ⟨hstop, haccepted⟩ := Prod.mk.inj hs
  have hargs : ForQueue "orders" ⟨"broker", "orders", false, true, 3000, 1⟩ := ⟨rfl, rfl, rfl⟩
  obtain ⟨-, -, hend⟩ := deployment_conserves oneProducer_createdBy rfl
    (PoolWorld.machine.run_nil .new) rfl hargs hcalm hrun
  obtain ⟨-, -, hperm⟩ := hend hstop
  exact ⟨s, hrun, hstop, haccepted ▸ hperm⟩

end DsAmq.Analysis
