import Mathlib.Data.Int.Notation
import DsAmq.Model.Cms
import DsAmq.Library.Machine

/-!
# `CDSAMQConsumer::run`

The consumer task of `DSAMQConsumer.h`, one atomic step for each call it makes.  The state
of a run is the task object, the session it took and a program counter (`Run`).  A step
reads the event that happened, which is the call together with what the library, the user's
`process` or the stop flag answered: `Run.step r e` is the state after the call `e`, and
`none` where the loop does not make that call next.  Throwing calls go where the three
nested handlers of the source send them.
-/

set_option autoImplicit false

namespace DsAmq.Model

/-- The result of the user's `process`.
SOURCE: DSAMQTask.h:17-21 -/
inductive AckResult where
  | queueRemove
  | queueRetry
deriving DecidableEq, Repr

/-- How `CDSAMQTask::process` ends: the user's code may return, throw a `CMSException`, or
throw anything else. -/
inductive ProcessOutcome where
  | returns (r : AckResult)
  | throwsCms (message : String)
  | throwsOther
deriving DecidableEq, Repr

/-- The data members of `CDSAMQConsumer`.  `processTaskID` is the `m_nTaskID` of the
contained `CDSAMQTask`, which `set_task_id` fills.
SOURCE: DSAMQConsumer.h:86-95, DSAMQTask.h:29-35 -/
structure Consumer where
  destination : Option Destination
  busetopic : Bool
  strDestURI : String
  bclientack : Bool
  strError : String
  nTimeout : ℤ
  nTaskID : ℤ
  processTaskID : Option ℤ
deriving DecidableEq, Repr

/-- The constructor.
SOURCE: DSAMQConsumer.h:100-116 -/
def Consumer.new (destURI : String) (nTaskID : ℤ) (useTopic clientAck : Bool)
    (nTimeout : ℤ) : Consumer where
  destination := none
  busetopic := useTopic
  strDestURI := destURI
  bclientack := clientAck
  strError := ""
  nTimeout := nTimeout
  nTaskID := nTaskID
  processTaskID := none

/-- Where a run stands: the call it makes next, with the locals that are in scope.  In the
order of the source: lines 160, 166-172, 175, the loop head 180, 187, 201, the
acknowledgement of a message that is not a `TextMessage` at 205, 211, 216, 218 and 233. -/
inductive RunPc where
  | takeSession
  | createDestination
  | createCachedConsumer
  | isrun
  | receive
  | getText (m : Message)
  | acknowledgeOther (m : Message)
  | process (m : Message) (text : String)
  | acknowledge (m : Message)
  | recover (m : Message)
  | close
  | returned
  | threw
deriving DecidableEq, Repr

/-- A call of `run` with its answer.  The `none` that `receive` returns is the NULL after a
time-out. -/
inductive Event where
  | takeSession (o : Outcome SessionId)
  | createDestination (d : Destination) (o : Outcome Unit)
  | createCachedConsumer (o : Outcome Unit)
  | isrun (b : Bool)
  | receive (o : Outcome (Option Message))
  | getText (m : Message) (o : Outcome String)
  | process (m : Message) (text : String) (o : ProcessOutcome)
  | acknowledge (m : Message) (o : Outcome Unit)
  | recover (o : Outcome Unit)
  | close (o : Outcome Unit)
deriving DecidableEq, Repr

/-- The call threw an exception of any type. -/
def Event.throws : Event → Bool
  | .takeSession o => o.throws
  | .createDestination _ o => o.throws
  | .createCachedConsumer o => o.throws
  | .isrun _ => false
  | .receive o => o.throws
  | .getText _ o => o.throws
  | .process _ _ (.returns _) => false
  | .process _ _ _ => true
  | .acknowledge _ o => o.throws
  | .recover o => o.throws
  | .close o => o.throws

/-- A run of the task object `consumer`, with the session it took. -/
structure Run where
  consumer : Consumer
  session : Option SessionId
  pc : RunPc
deriving DecidableEq, Repr

namespace Run

/-- `run` has just been called on the task object. -/
def start (c : Consumer) : Run := ⟨c, none, .takeSession⟩

/-- The next call when the destination is needed: an existing one is used again. -/
def afterTakeSession (c : Consumer) : RunPc :=
  if c.destination.isNone then .createDestination else .createCachedConsumer

/-- One call of `CDSAMQConsumer::run`.
SOURCE: DSAMQConsumer.h:158-237 -/
def step (r : Run) (e : Event) : Option Run :=
  match r.pc, e with
  -- outside every `try`: an exception leaves `run`
  | .takeSession, .takeSession (.cms _) => some { r with session := none, pc := .threw }
  | .takeSession, .takeSession (.ok s) =>
      some { consumer := { r.consumer with processTaskID := some r.consumer.nTaskID }
             session := some s
             pc := afterTakeSession r.consumer }
  -- inside the outer `try`
  | .createDestination, .createDestination d o =>
      if d = Destination.select r.consumer.busetopic r.consumer.strDestURI then
        match o with
        | .ok _ =>
            some { r with consumer := { r.consumer with destination := some d }
                          pc := .createCachedConsumer }
        | .cms msg =>
            some { r with
              consumer := { r.consumer with
                strError := "[consumer] in run, exception occured2, " ++ msg }
              pc := .close }
      else none
  | .createCachedConsumer, .createCachedConsumer (.ok _) =>
      some { r with
        consumer := { r.consumer with
          nTimeout := if r.consumer.nTimeout ≤ 0 then 3000 else r.consumer.nTimeout }
        pc := .isrun }
  | .createCachedConsumer, .createCachedConsumer (.cms msg) =>
      some { r with
        consumer := { r.consumer with
          strError := "[consumer] in run, exception occured2, " ++ msg }
        pc := .close }
  | .isrun, .isrun b => some { r with pc := if b then .receive else .close }
  -- a time-out goes back to the loop head, an exception breaks the loop
  | .receive, .receive (.ok none) => some { r with pc := .isrun }
  | .receive, .receive (.ok (some m)) =>
      some { r with pc := if m.isText then .getText m else .acknowledgeOther m }
  | .receive, .receive (.cms msg) =>
      some { r with
        consumer := { r.consumer with strError := "receive exception, " ++ msg }
        pc := .close }
  -- from here to the end of the loop body, the inner handler breaks the loop
  | .getText m, .getText m' o =>
      if m' = m then
        match o with
        | .ok text => if m.body = .text text then some { r with pc := .process m text } else none
        | .cms _ => some { r with pc := .close }
      else none
  | .acknowledgeOther m, .acknowledge m' o =>
      if m' = m then
        match o with
        | .ok _ => some { r with pc := .process m "" }
        | .cms _ => some { r with pc := .close }
      else none
  | .process m text, .process m' text' o =>
      if m' = m ∧ text' = text then
        match o with
        | .returns ar =>
            some { r with
              pc :=
                if r.consumer.bclientack then
                  if ar = .queueRemove then .acknowledge m else .recover m
                else .isrun }
        | .throwsCms _ => some { r with pc := .close }
        | .throwsOther => some { r with pc := .threw }
      else none
  | .acknowledge m, .acknowledge m' o =>
      if m' = m then some { r with pc := if o.throws then .close else .isrun } else none
  | .recover _, .recover o => some { r with pc := if o.throws then .close else .isrun }
  -- outside every `try` again
  | .close, .close o => some { r with pc := if o.throws then .threw else .returned }
  | _, _ => none

/-- The run as a machine over its calls. -/
def machine : Library.Machine Run Event := ⟨step⟩

/-- The message that the loop body is working on. -/
def delivered (r : Run) : Option Message :=
  match r.pc with
  | .getText m | .acknowledgeOther m | .process m _ | .acknowledge m | .recover m => some m
  | _ => none

/-- The session that the run has taken and not given back.  A run that ends by an exception
keeps its session. -/
def held (r : Run) : Option SessionId :=
  match r.pc with
  | .takeSession | .returned => none
  | _ => r.session

end Run

end DsAmq.Model
