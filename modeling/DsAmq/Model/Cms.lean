import Mathlib.Data.List.Basic

/-!
# What the wrapper uses of the CMS library

The library (`include/activemq-cpp-3.9.5`) is not part of the wrapper; this file holds the
values the wrapper exchanges with it and the bookkeeping its headers promise:

* `Outcome`: a CMS call either returns or throws a `CMSException` with a message;
* messages, destinations, acknowledge and delivery modes;
* `Cms`: which connections exist, which have been destroyed (every destruction is
  recorded, so that a second one would show), and which connections each
  `ResourceLifecycleManager` owns.  Deleting a manager closes and destroys every connection
  added to it (`ResourceLifecycleManager.h:32-46`).
-/

set_option autoImplicit false

namespace DsAmq.Model

/-- How a CMS call ends: it returns a value, or throws a `CMSException` with this
`getMessage()`. -/
inductive Outcome (α : Type) where
  | ok (a : α)
  | cms (message : String)
deriving DecidableEq, Repr

/-- The call threw. -/
def Outcome.throws {α : Type} : Outcome α → Bool
  | .ok _ => false
  | .cms _ => true

/-- A session of the session pool. -/
abbrev SessionId := ℕ

/-- A connection made by `ActiveMQConnectionFactory::createConnection`. -/
abbrev ConnectionId := ℕ

/-- A `ResourceLifecycleManager` object. -/
abbrev ResourcemgrId := ℕ

/-- The two kinds of `cms::Destination`. -/
inductive DestinationKind where
  | topic
  | queue
deriving DecidableEq, Repr

/-- A `cms::Destination`: what `createTopic` or `createQueue` makes of a URI. -/
structure Destination where
  kind : DestinationKind
  uri : String
deriving DecidableEq, Repr

/-- The destination that `useTopic` and a URI select: `createTopic(uri)` or
`createQueue(uri)`. -/
def Destination.select (useTopic : Bool) (uri : String) : Destination :=
  ⟨if useTopic then .topic else .queue, uri⟩

/-- The body of a message: the `dynamic_cast` to `TextMessage` succeeds on `text` only. -/
inductive Body where
  | text (s : String)
  | other
deriving DecidableEq, Repr

/-- A message of the broker.  Messages with the same body are told apart by `id`. -/
structure Message where
  id : ℕ
  body : Body
deriving DecidableEq, Repr

/-- The message is a `TextMessage`. -/
def Message.isText (m : Message) : Bool :=
  match m.body with
  | .text _ => true
  | .other => false

/-- The text of a `TextMessage`, and the empty text of any other message. -/
def Message.textOf (m : Message) : String :=
  match m.body with
  | .text s => s
  | .other => ""

/-- `cms::Session::AcknowledgeMode`, the two modes the wrapper asks for.
SOURCE: cms/Session.h:108-134 -/
inductive AcknowledgeMode where
  | clientAcknowledge
  | autoAcknowledge
deriving DecidableEq, Repr

/-- The mode chosen from the client-acknowledge flag.
SOURCE: DSAMQProducerPoolMgr.cpp:186-188, DSAMQConsumerPool.h:226-228 -/
def AcknowledgeMode.select (clientAck : Bool) : AcknowledgeMode :=
  if clientAck then .clientAcknowledge else .autoAcknowledge

/-- `cms::DeliveryMode`. -/
inductive DeliveryMode where
  | persistent
  | nonPersistent
deriving DecidableEq, Repr

/-- A `SessionPool`: the connection it creates sessions on, their acknowledge mode, and the
manager of their life cycle.
SOURCE: activemq/cmsutil/SessionPool.h:55-80 -/
structure SessionPool where
  connection : ConnectionId
  ackMode : AcknowledgeMode
  resourcemgr : ResourcemgrId
deriving DecidableEq, Repr

/-- The connections and the resource managers of the process.  Both are numbered in the
order of their creation. -/
structure Cms where
  /-- The number of connections created. -/
  connections : ℕ
  /-- Every destruction of a connection, the latest last. -/
  destroyed : List ConnectionId
  /-- The connections added to each resource manager. -/
  managed : List (List ConnectionId)
  /-- Every deletion of a resource manager, the latest last. -/
  deletedMgrs : List ResourcemgrId
deriving DecidableEq, Repr

namespace Cms

/-- No connection and no manager has been made. -/
def init : Cms := ⟨0, [], [], []⟩

/-- `factory->createConnection()`, when it returns. -/
def createConnection (c : Cms) : ConnectionId × Cms :=
  (c.connections, { c with connections := c.connections + 1 })

/-- `delete connection`. -/
def deleteConnection (c : Cms) (k : ConnectionId) : Cms :=
  { c with destroyed := c.destroyed ++ [k] }

/-- `new ResourceLifecycleManager()`. -/
def newResourcemgr (c : Cms) : ResourcemgrId × Cms :=
  (c.managed.length, { c with managed := c.managed ++ [[]] })

/-- `resourcemgr->addConnection(connection)`, when it returns. -/
def addConnection (c : Cms) (g : ResourcemgrId) (k : ConnectionId) : Cms :=
  { c with managed := c.managed.set g (c.managed.getD g [] ++ [k]) }

/-- `delete resourcemgr`: the destructor closes and destroys the connections added to it.
SOURCE: activemq/cmsutil/ResourceLifecycleManager.h:32-75 -/
def deleteResourcemgr (c : Cms) (g : ResourcemgrId) : Cms :=
  { c with
    destroyed := c.destroyed ++ c.managed.getD g []
    deletedMgrs := c.deletedMgrs ++ [g] }

/-- The connection exists and has not been destroyed. -/
def Live (c : Cms) (k : ConnectionId) : Prop := k < c.connections ∧ k ∉ c.destroyed

instance (c : Cms) (k : ConnectionId) : Decidable (c.Live k) :=
  inferInstanceAs (Decidable (k < c.connections ∧ k ∉ c.destroyed))

end Cms

end DsAmq.Model
