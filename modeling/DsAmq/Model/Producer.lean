import Mathlib.Algebra.Group.Nat.Defs
import DsAmq.Model.Cms
import DsAmq.Library.Machine

/-!
# `CDSAMQProducer`

A pooled producer: the destination it sends to, created on its first send and kept, and its
place in the pool.  `Producer.sendmessage` is the whole call; the outcome of every library
call it may make is an argument.  `ProducerLife.machine` runs any sequence of calls on one
producer, and keeps account of the destination it was last configured for.
-/

set_option autoImplicit false

namespace DsAmq.Model

/-- A value stored in an `unsigned int`. -/
def wrap32 (n : ℕ) : ℕ := n % 2 ^ 32

/-- `std::string::npos` on the 32-bit platform of the build; as an `unsigned int` it is the
same number on a 64-bit one. -/
def npos : ℕ := 2 ^ 32 - 1

/-- The data members of `CDSAMQProducer`.
SOURCE: DSAMQProducer.h:65-73 -/
structure Producer where
  destination : Option Destination
  busetopic : Bool
  bclientack : Bool
  strBrokerURI : String
  strDestURI : String
  strError : String
  nposition : ℕ
deriving DecidableEq, Repr

/-- A send that the session accepted. -/
structure Sent where
  destination : Destination
  body : String
  mode : DeliveryMode
deriving DecidableEq, Repr

/-- The outcomes of the library calls of `CDSAMQProducer::sendmessage`, in their order. -/
structure SendOutcomes where
  createDestination : Outcome Unit
  createCachedProducer : Outcome Unit
  setDeliveryMode : Outcome Unit
  createTextMessage : Outcome Unit
  send : Outcome Unit
deriving DecidableEq, Repr

namespace Producer

/-- The default constructor.
SOURCE: DSAMQProducer.cpp:19-29 -/
def new : Producer := ⟨none, false, true, "", "", "", npos⟩

/-- SOURCE: DSAMQProducer.cpp:51-54 -/
def setIndex (p : Producer) (nposition : ℕ) : Producer :=
  { p with nposition := wrap32 nposition }

/-- SOURCE: DSAMQProducer.cpp:66-76 -/
def setURIInfo (p : Producer) (brokerURI destURI : String) (useTopic clientAck : Bool) :
    Producer :=
  { p with
    strBrokerURI := brokerURI
    strDestURI := destURI
    busetopic := useTopic
    bclientack := clientAck }

/-- `cleanup`, which is also what `close` and the destructor do; `delete m_destination`
may throw.
SOURCE: DSAMQProducer.cpp:61-64, 83-100 -/
def cleanup (p : Producer) (delete : Outcome Unit) : Producer :=
  let error :=
    match p.destination, delete with
    | some _, .cms msg => msg
    | _, _ => "producer cleanup"
  { p with destination := none, strError := error ++ "|" ++ "complete" }

/-- The destination that the producer is configured for. -/
def target (p : Producer) : Destination := Destination.select p.busetopic p.strDestURI

/-- `sendmessage`: the result, the producer afterwards and the send the session accepted.
SOURCE: DSAMQProducer.cpp:102-170 -/
def sendmessage (p : Producer) (session : Option SessionId) (strMessage : String)
    (o : SendOutcomes) : Bool × Producer × Option Sent :=
  if session.isNone then
    (false, { p with strError := "in sendmessage, session object NULL" }, none)
  else if strMessage.isEmpty then
    (false, { p with strError := "in sendmessage, message is emtpy" }, none)
  else
    match (if p.destination.isNone then o.createDestination else .ok ()) with
    | .cms msg =>
        (false, { p with strError := "in sendmessage, exception occured, " ++ msg }, none)
    | .ok _ =>
        let d := p.destination.getD p.target
        let p := { p with destination := some d }
        match o.createCachedProducer, o.setDeliveryMode, o.createTextMessage, o.send with
        | .cms msg, _, _, _ =>
            (false, { p with strError := "in sendmessage, exception occured, " ++ msg }, none)
        | .ok _, .cms msg, _, _ =>
            (false, { p with strError := "in sendmessage, exception occured, " ++ msg }, none)
        | .ok _, .ok _, .cms msg, _ =>
            (false, { p with strError := "in sendmessage, fail to create message, " ++ msg },
              none)
        | .ok _, .ok _, .ok _, .cms msg =>
            (false, { p with strError := "in sendmessage, fail to send message, " ++ msg },
              none)
        | .ok _, .ok _, .ok _, .ok _ => (true, p, some ⟨d, strMessage, .persistent⟩)

end Producer

/-! ## Any sequence of calls -/

/-- A public call on a producer, its place in the pool apart. -/
inductive ProducerOp where
  | setURIInfo (brokerURI destURI : String) (useTopic clientAck : Bool)
  | close (delete : Outcome Unit)
  | sendmessage (session : Option SessionId) (strMessage : String) (o : SendOutcomes)
deriving DecidableEq, Repr

/-- The producer, and the destination that the last `setURIInfo` named, if there was one. -/
structure ProducerLife where
  producer : Producer
  configured : Option Destination
deriving DecidableEq, Repr

namespace ProducerLife

/-- A new producer, by either constructor. -/
def start (p : Producer) : ProducerLife := ⟨p, none⟩

/-- The producer after a call. -/
def exec (s : ProducerLife) : ProducerOp → ProducerLife
  | .setURIInfo b d t a => ⟨s.producer.setURIInfo b d t a, some (Destination.select t d)⟩
  | .close delete => ⟨s.producer.cleanup delete, s.configured⟩
  | .sendmessage session msg o => ⟨(s.producer.sendmessage session msg o).2.1, s.configured⟩

/-- The send that the session accepts during the call. -/
def accepted (s : ProducerLife) : ProducerOp → Option Sent
  | .sendmessage session msg o => (s.producer.sendmessage session msg o).2.2
  | _ => none

/-- Any sequence of calls on one producer. -/
def machine : Library.Machine ProducerLife ProducerOp := ⟨fun s op => some (s.exec op)⟩

end ProducerLife

end DsAmq.Model
