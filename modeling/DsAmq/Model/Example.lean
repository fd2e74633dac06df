import DsAmq.Model.SendSystem

/-!
# The producers of the sample program

`main` creates the pool and the session pool, makes a `ProducerThread` for each thread that is asked
for, the `k`-th with the messages from `10 * k` on, and starts them all.  Each thread sends its ten
messages one after the other through the one manager.  A thread that `sendmessage` throws out of
does not go on; what is printed when a message was not sent is left out.
-/

set_option autoImplicit false

namespace DsAmq.Model

/-- A `ProducerThread` in its loop: the member `m_nStart`, the local `i`, and the call of
`sendmessage` that it is in, if any, by its number. -/
structure ProducerThread where
  nStart : ℕ
  i : ℕ
  call : Option ℕ
deriving DecidableEq, Repr

/-- `nMessageCnt` -/
def nMessageCnt : ℕ := 10

/-- `sprintf(message, "send message #%d", n)` -/
def messageText (n : ℕ) : String := "send message #" ++ Nat.repr n

/-- The program after `main` has started the threads. -/
structure Example where
  threads : List ProducerThread
  send : SendSystem

/-- A thread calls `sendmessage`, comes back from it, or a call makes a step. -/
inductive ExampleAction where
  | call (k : ℕ)
  | back (k : ℕ)
  | act (t : ℕ) (r : Reply)
deriving DecidableEq, Repr

namespace Example

/-- The threads are made with the offsets 0, 10, …
SOURCE: example.cpp:103-126 -/
def init (nThreadCnt : ℕ) (w : MgrWorld) (modes : SessionId → Destination → DeliveryMode) :
    Example :=
  ⟨(List.range nThreadCnt).map fun k => ⟨nMessageCnt * k, 0, none⟩, .init w modes⟩

/-- The call `t` has returned. -/
def hasReturned (s : Example) (t : ℕ) : Bool :=
  match s.send.calls[t]? with
  | some c =>
      match c.pc with
      | .ended (.returned _) => true
      | _ => false
  | none => false

/-- One step of the program.
SOURCE: example.cpp:30-43 -/
def step (s : Example) : ExampleAction → Option Example
  | .call k =>
      match s.threads[k]? with
      | none => none
      | some p =>
          if p.call = none ∧ p.i < nMessageCnt then
            (s.send.step (.begin (messageText (p.nStart + p.i)))).map fun send =>
              ⟨s.threads.set k { p with call := some s.send.calls.length }, send⟩
          else none
  | .back k =>
      match s.threads[k]? with
      | none => none
      | some p =>
          if p.call.any s.hasReturned then
            some { s with threads := s.threads.set k { p with i := p.i + 1, call := none } }
          else none
  | .act t r => (s.send.step (.act t r)).map fun send => { s with send := send }

/-- All interleavings of the threads. -/
def machine : Library.Machine Example ExampleAction := ⟨step⟩

end Example

end DsAmq.Model
