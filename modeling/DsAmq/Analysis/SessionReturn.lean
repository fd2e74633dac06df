import DsAmq.Analysis.RunSteps
import DsAmq.Model.Process

/-!
# Whether a run gives its session back

`run` calls `session->close()` after the outer handler, "return session object to session pool".
Every `CMSException` ends there, from whichever of the three nested handlers it comes.  The
handlers catch nothing else, so that any other exception of the user's `process` leaves `run`
without the call.  The session is closed exactly once in all other runs
(`session_closed_once_iff`).
-/

set_option autoImplicit false

namespace DsAmq.Analysis

open DsAmq.Model DsAmq.Library

/-- The session on which the event calls `session->close()`, whatever the call does. -/
def closedSession (r : Run) : Event → Option SessionId
  | .close _ => r.session
  | _ => none

/-- The call leaves `run` past its handlers: the user's `process` throws what is not a
`CMSException`. -/
def escapes : Event → Bool
  | .process _ _ .throwsOther => true
  | _ => false

variable {r r' : Run} {e : Event} {es : List Event} {s : SessionId}

/-- A run that goes on makes any call but these two, and keeps its session. -/
structure GoesOn (r : Run) (e : Event) (r' : Run) : Prop where
  session : r'.session = r.session
  going : r'.ended = false
  taken : r'.pc ≠ .takeSession
  quiet : closedSession r e = none
  inside : escapes e = false
  once : ∀ o, e ≠ .takeSession o

/-- What one call can do to the session, after it was taken: nothing, or the call is the one
`session->close()`, or it leaves `run`. -/
theorem step_session (htaken : r.pc ≠ .takeSession) (hstep : r.step e = some r') :
    GoesOn r e r' ∨ (∃ o, e = .close o ∧ r'.ended = true) ∨
      (escapes e = true ∧ closedSession r e = none ∧ r'.ended = true) := by
  cases hpc : r.pc with
  | takeSession => exact absurd hpc htaken
  | createDestination =>
      left
      obtain ⟨d, -, ⟨rfl, rfl⟩ | ⟨msg, rfl, rfl⟩⟩ := (Run.step_createDestination hpc).mp hstep
      · exact ⟨rfl, rfl, by simp, rfl, rfl, by simp⟩
      · exact ⟨rfl, rfl, by simp, rfl, rfl, by simp⟩
  | createCachedConsumer =>
      left
      obtain ⟨rfl, rfl⟩ | ⟨msg, rfl, rfl⟩ := (Run.step_createCachedConsumer hpc).mp hstep
      · exact ⟨rfl, rfl, by simp, rfl, rfl, by simp⟩
      · exact ⟨rfl, rfl, by simp, rfl, rfl, by simp⟩
  | isrun =>
      left
      obtain ⟨b, rfl, rfl⟩ := (Run.step_isrun hpc).mp hstep
      cases b <;> exact ⟨rfl, rfl, by simp, rfl, rfl, by simp⟩
  | receive =>
      left
      obtain ⟨rfl, rfl⟩ | ⟨m, rfl, rfl⟩ | ⟨msg, rfl, rfl⟩ := (Run.step_receive hpc).mp hstep
      · exact ⟨rfl, rfl, by simp, rfl, rfl, by simp⟩
      · cases htext : m.isText <;> exact ⟨rfl, by simp [Run.ended], by simp, rfl, rfl, by simp⟩
      · exact ⟨rfl, rfl, by simp, rfl, rfl, by simp⟩
  | getText m =>
      left
      obtain ⟨text, rfl, -, rfl⟩ | ⟨msg, rfl, rfl⟩ := (Run.step_getText hpc).mp hstep
      · exact ⟨rfl, rfl, by simp, rfl, rfl, by simp⟩
      · exact ⟨rfl, rfl, by simp, rfl, rfl, by simp⟩
  | acknowledgeOther m =>
      left
      obtain ⟨rfl, rfl⟩ | ⟨msg, rfl, rfl⟩ := (Run.step_acknowledgeOther hpc).mp hstep
      · exact ⟨rfl, rfl, by simp, rfl, rfl, by simp⟩
      · exact ⟨rfl, rfl, by simp, rfl, rfl, by simp⟩
  | process m text =>
      obtain ⟨ar, rfl, rfl⟩ | ⟨msg, rfl, rfl⟩ | ⟨rfl, rfl⟩ := (Run.step_process hpc).mp hstep
      · left
        refine ⟨rfl, ?_, ?_, rfl, rfl, by simp⟩
        · unfold Run.ended
          grind
        · grind
      · left
        exact ⟨rfl, rfl, by simp, rfl, rfl, by simp⟩
      · right; right
        exact ⟨rfl, rfl, rfl⟩
  | acknowledge m =>
      left
      obtain ⟨o, rfl, rfl⟩ := (Run.step_acknowledge hpc).mp hstep
      cases o <;> exact ⟨rfl, rfl, by simp [Outcome.throws], rfl, rfl, by simp⟩
  | recover m =>
      left
      obtain ⟨o, rfl, rfl⟩ := (Run.step_recover hpc).mp hstep
      cases o <;> exact ⟨rfl, rfl, by simp [Outcome.throws], rfl, rfl, by simp⟩
  | close =>
      right; left
      obtain ⟨o, rfl, rfl⟩ := (Run.step_close hpc).mp hstep
      cases o <;> exact ⟨_, rfl, rfl⟩
  | returned =>
      rw [Run.step_ended (Or.inl hpc)] at hstep
      cases hstep
  | threw =>
      rw [Run.step_ended (Or.inr hpc)] at hstep
      cases hstep

/-- A run that is over makes no further call. -/
theorem run_of_ended (hended : r.ended = true) (hrun : Run.machine.run r es = some r') :
    es = [] := by
  cases es with
  | nil => rfl
  | cons e es =>
      obtain ⟨t, ht, -⟩ := Machine.run_cons_eq_some.mp hrun
      have hpc : r.pc = .returned ∨ r.pc = .threw := by
        unfold Run.ended at hended
        simpa using hended
      have hnone : r.step e = none := Run.step_ended hpc
      rw [show Run.machine.step r e = r.step e from rfl, hnone] at ht
      cases ht

/-- A run that holds a session and comes to its end closes that session once, unless one of its
calls leaves `run`: then it never does. -/
theorem collect_closedSession (htaken : r.pc ≠ .takeSession) (hsession : r.session = some s)
    (hgoing : r.ended = false) (hrun : Run.machine.run r es = some r') (hended : r'.ended = true) :
    Run.machine.collect closedSession r es = if es.any escapes then [] else [s] := by
  induction es generalizing r with
  | nil =>
      rw [Machine.run_nil, Option.some.injEq] at hrun
      rw [← hrun, hgoing] at hended
      cases hended
  | cons e es ih =>
      obtain ⟨t, ht, hrest⟩ := Machine.run_cons_eq_some.mp hrun
      rw [Machine.collect_cons es ht, List.any_cons]
      obtain hgoes | ⟨o, rfl, hlast⟩ | ⟨hescapes, hquiet, hlast⟩ := step_session htaken ht
      · rw [hgoes.quiet, hgoes.inside, Bool.false_or, Option.toList_none, List.nil_append]
        exact ih hgoes.taken (hgoes.session.trans hsession) hgoes.going hrest
      · rw [run_of_ended hlast hrest]
        show r.session.toList ++ [] = [s]
        rw [hsession]
        rfl
      · rw [run_of_ended hlast hrest, hquiet, hescapes]
        rfl

/-- `takeSession` is called only once. -/
theorem takeSession_not_mem (htaken : r.pc ≠ .takeSession)
    (hrun : Run.machine.run r es = some r') (o : Outcome SessionId) :
    Event.takeSession o ∉ es := by
  induction es generalizing r with
  | nil => exact List.not_mem_nil
  | cons e es ih =>
      obtain ⟨t, ht, hrest⟩ := Machine.run_cons_eq_some.mp hrun
      rw [List.mem_cons, not_or]
      obtain hgoes | ⟨o, rfl, hlast⟩ | ⟨hescapes, -, hlast⟩ := step_session htaken ht
      · exact ⟨(hgoes.once o).symm, ih hgoes.taken hrest⟩
      · rw [run_of_ended hlast hrest]
        simp
      · rw [run_of_ended hlast hrest]
        refine ⟨?_, List.not_mem_nil⟩
        rintro rfl
        cases hescapes

/-- Whether a run escapes, read off its calls. -/
theorem any_escapes_eq_false_iff :
    es.any escapes = false ↔ ∀ m text, Event.process m text .throwsOther ∉ es := by
  rw [List.any_eq_false]
  constructor
  · intro h m text hmem
    exact h _ hmem rfl
  · intro h e hmem hescapes
    unfold escapes at hescapes
    split at hescapes
    · exact h _ _ hmem
    · cases hescapes

/-- **When a run gives its session back.**  For every task object, and every run of it that took a
session and has ended, by return or by exception, whatever was received, whenever the flag was
turned off and whatever the calls did: `session->close()` has been called exactly once, on the
session that the run took, if and only if no call of `process` threw an exception that is not a
`CMSException`. -/
theorem session_closed_once_iff {c : Consumer} {es : List Event} {r : Run} {s : SessionId}
    (hrun : Run.machine.run (Run.start c) es = some r) (htake : Event.takeSession (.ok s) ∈ es)
    (hended : r.ended = true) :
    Run.machine.collect closedSession (Run.start c) es = [s] ↔
      ∀ m text, Event.process m text .throwsOther ∉ es := by
  cases es with
  | nil => cases htake
  | cons e es =>
      obtain ⟨t, ht, hrest⟩ := Machine.run_cons_eq_some.mp hrun
      obtain ⟨msg, rfl, rfl⟩ | ⟨s', rfl, hfirst⟩ := (Run.step_takeSession rfl).mp ht
      · -- no session was taken, and the run is over
        rw [run_of_ended rfl hrest] at htake
        simp at htake
      · have hpc : t.pc = .createDestination ∨ t.pc = .createCachedConsumer := by
          rw [hfirst]
          show Run.afterTakeSession c = _ ∨ Run.afterTakeSession c = _
          unfold Run.afterTakeSession
          split <;> simp
        have htaken : t.pc ≠ .takeSession := by
          cases hpc with
          | inl hpc => simp [hpc]
          | inr hpc => simp [hpc]
        have hgoing : t.ended = false := by
          unfold Run.ended
          cases hpc with
          | inl hpc => simp [hpc]
          | inr hpc => simp [hpc]
        have hsession : t.session = some s' := by rw [hfirst]
        have hs : s = s' := by
          obtain heq | hlater := List.mem_cons.mp htake
          · simpa using heq
          · exact absurd hlater (takeSession_not_mem htaken hrest _)
        rw [Machine.collect_cons es ht, ← any_escapes_eq_false_iff, List.any_cons, hs]
        show Run.machine.collect closedSession t es = [s'] ↔ es.any escapes = false
        rw [collect_closedSession htaken hsession hgoing hrest hended]
        cases es.any escapes <;> simp

/-- The calls of a run on a queue that receives one text message, up to the end of `process`. -/
def oneMessage (o : ProcessOutcome) : List Event :=
  [.takeSession (.ok 7), .createDestination (Destination.select false "orders") (.ok ()),
    .createCachedConsumer (.ok ()), .isrun true, .receive (.ok (some ⟨1, .text "a"⟩)),
    .getText ⟨1, .text "a"⟩ (.ok "a"), .process ⟨1, .text "a"⟩ "a" o]

/-- A run that keeps its message, and whose `recover` throws, has closed its session once. -/
theorem failing_recover_closes_session :
    Run.machine.collect closedSession (Run.start (Consumer.new "orders" 1 false true 0))
      (oneMessage (.returns .queueRetry) ++ [.recover (.cms "lost"), .close (.ok ())]) = [7] := by
  have hruns : ((Run.machine.run (Run.start (Consumer.new "orders" 1 false true 0))
      (oneMessage (.returns .queueRetry) ++ [.recover (.cms "lost"), .close (.ok ())])).map
        Run.ended) = some true := by decide
  obtain ⟨r, hrun, hended⟩ := Option.map_eq_some_iff.mp hruns
  apply (session_closed_once_iff hrun (by decide) hended).mpr
  intro m text
  simp [oneMessage]

/-- **A run may end without giving its session back**: `process` throws an exception of its own. -/
theorem escaping_process_keeps_session :
    (Run.machine.run (Run.start (Consumer.new "orders" 1 false true 0))
        (oneMessage .throwsOther)).map Run.ended = some true ∧
      Run.machine.collect closedSession (Run.start (Consumer.new "orders" 1 false true 0))
        (oneMessage .throwsOther) = [] := by
  decide

end DsAmq.Analysis
