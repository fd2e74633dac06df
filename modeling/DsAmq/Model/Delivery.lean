import DsAmq.Model.Consumer

/-!
# Consumers, pooled sessions and the broker

Any number of `CDSAMQConsumer::run` calls (`tasks`, numbered in the order they begin) on the
sessions of one session pool and the messages of one broker queue.  A message stays in the
broker until it is acknowledged; `inflight` holds the deliveries that are neither
acknowledged nor recovered, each with its session.  What the library does at a call:

* `takeSession` gives out a session that is not taken, new or given back earlier;
* `receive` gives a message of the broker that is not in flight, in any order;
* `acknowledge` acknowledges every message in flight on the session (`cms/Message.h:139-164`);
* `recover` hands them back for delivery (`cms/Session.h:184-200`);
* `close` only gives the session back to the pool (`PooledSession.h:80-86`).

A call that throws has no effect here.  A `spawn` is the start of a new task object, by
`StartProcess` or by `afterExecute`.
-/

set_option autoImplicit false

namespace DsAmq.Model

/-- The broker queue, the session pool and the tasks. -/
structure World where
  broker : List Message
  inflight : List (SessionId × Message)
  taken : List SessionId
  tasks : List Run
deriving DecidableEq, Repr

/-- A new task begins, or a task makes its next call. -/
inductive Action where
  | spawn (c : Consumer)
  | act (t : ℕ) (e : Event)
deriving DecidableEq, Repr

/-- The messages with these bodies, numbered in their order. -/
def messagesOf (bodies : List Body) : List Message :=
  bodies.mapIdx fun i b => ⟨i, b⟩

namespace World

/-- The broker holds the messages, no session is taken and no task has begun. -/
def init (broker : List Message) : World := ⟨broker, [], [], []⟩

/-- The messages consumed by the session that are neither acknowledged nor recovered: what a
session-wide acknowledgement covers. -/
def consumedBy (w : World) (s : SessionId) : List Message :=
  (w.inflight.filter fun p => p.1 = s).map Prod.snd

/-- What a call does to the broker and to the session pool; `s` is the session of the task. -/
def effect (w : World) (s : Option SessionId) (e : Event) : Option World :=
  match e with
  | .takeSession (.ok s') => if s' ∈ w.taken then none else some { w with taken := s' :: w.taken }
  | .receive (.ok (some m)) => s.bind fun s =>
      if m ∈ w.broker ∧ ∀ p ∈ w.inflight, p.2 ≠ m then
        some { w with inflight := w.inflight ++ [(s, m)] }
      else none
  | .acknowledge _ (.ok _) => s.map fun s =>
      { w with
        broker := w.broker.filter fun m => (s, m) ∉ w.inflight
        inflight := w.inflight.filter fun p => p.1 ≠ s }
  | .recover (.ok _) => s.map fun s =>
      { w with inflight := w.inflight.filter fun p => p.1 ≠ s }
  | .close (.ok _) => s.map fun s => { w with taken := w.taken.filter fun s' => s' ≠ s }
  | _ => some w

/-- One action. -/
def step (w : World) (a : Action) : Option World :=
  match a with
  | .spawn c => some { w with tasks := w.tasks ++ [Run.start c] }
  | .act t e =>
      w.tasks[t]?.bind fun r =>
        (r.step e).bind fun r' =>
          (w.effect r.session e).map fun w' => { w' with tasks := w.tasks.set t r' }

/-- The consumers and the broker as a machine. -/
def machine : Library.Machine World Action := ⟨step⟩

end World

end DsAmq.Model
