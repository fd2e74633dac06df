import DsAmq.Model.SendSystem
import DsAmq.Model.Delivery

/-!
# Producers, the broker and consumers

The `sendmessage` calls of one manager and the `CDSAMQConsumer::run` calls of the tasks on one
queue of one broker, all interleaved.  A send to the queue that a session accepted is in the queue
from then on; sends to other destinations do not come here.  Messages are numbered in the order in
which they were accepted.  Only tasks that consume from the queue begin here.
-/

set_option autoImplicit false

namespace DsAmq.Model

/-- The messages of the queue `uri` that accepted sends become. -/
def queuedMessages (uri : String) (sends : List (ℕ × Sent)) : List Message :=
  (sends.zipIdx.filter fun x => x.1.2.destination = Destination.select false uri).map
    fun x => ⟨x.2, .text x.1.2.body⟩

/-- The producers, and the broker queue with its consumers. -/
structure Pipeline where
  send : SendSystem
  world : World

/-- A step of the producers or of the consumers. -/
inductive PipelineAction where
  | send (a : SendAction)
  | consume (a : Action)
deriving DecidableEq, Repr

namespace Pipeline

/-- A manager whose calls have not begun, and an empty queue. -/
def init (w : MgrWorld) (modes : SessionId → Destination → DeliveryMode) : Pipeline :=
  ⟨.init w modes, .init []⟩

/-- The messages that come into the queue when the producers move on to `send`. -/
def arrivals (uri : String) (s : Pipeline) (send : SendSystem) : List Message :=
  (queuedMessages uri send.shared.accepted).drop
    (queuedMessages uri s.send.shared.accepted).length

/-- The action starts a task on another destination. -/
def elsewhere (uri : String) : Action → Bool
  | .spawn c => decide (Destination.select c.busetopic c.strDestURI ≠ Destination.select false uri)
  | .act _ _ => false

/-- One step. -/
def step (uri : String) (s : Pipeline) : PipelineAction → Option Pipeline
  | .send a =>
      (s.send.step a).map fun send =>
        ⟨send, { s.world with broker := s.world.broker ++ s.arrivals uri send }⟩
  | .consume a =>
      if elsewhere uri a then none else (s.world.step a).map fun world => { s with world := world }

/-- All interleavings, on the queue `uri`. -/
def machine (uri : String) : Library.Machine Pipeline PipelineAction := ⟨step uri⟩

end Pipeline

end DsAmq.Model
