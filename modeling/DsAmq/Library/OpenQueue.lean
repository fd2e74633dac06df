import DsAmq.Library.AtLeastOnce

/-!
# The at-least-once queue, with arrivals

The at-least-once queue of `AtLeastOnce`, into which messages are also put.  What was there at the
start and what was put are, in any order, what is there at the end and what was removed
(`run_perm`): no message is lost, invented or removed twice.  Whatever is processed was put
(`processed_of_run`).
-/

set_option autoImplicit false

namespace DsAmq.Library.OpenQueue

open AtLeastOnce

variable {μ γ : Type} [DecidableEq μ] [DecidableEq γ]

/-- A message is put into the queue, or processed. -/
inductive Event (μ γ : Type) where
  | put (m : μ)
  | processed (p : Processed μ γ)

/-- The message that is put. -/
def Event.putOf : Event μ γ → Option μ
  | .put m => some m
  | .processed _ => none

/-- The message that is removed. -/
def Event.removedOf : Event μ γ → Option μ
  | .put _ => none
  | .processed p => if p.removed then some p.message else none

/-- The queue as a machine. -/
def machine (content : μ → γ) : Machine (List μ) (Event μ γ) where
  step q
    | .put m => some (q ++ [m])
    | .processed p => (AtLeastOnce.machine content).step q p

/-- The messages that were put, in their order. -/
def puts (es : List (Event μ γ)) : List μ := es.filterMap Event.putOf

/-- The messages that were removed, in their order. -/
def removed (es : List (Event μ γ)) : List μ := es.filterMap Event.removedOf

variable {content : μ → γ} {q q' : List μ} {es : List (Event μ γ)}

/-- One event: what is there and what is removed by it are what was there and what is put. -/
theorem step_perm {e : Event μ γ} (h : (machine content).step q e = some q') :
    (q' ++ e.removedOf.toList).Perm (q ++ e.putOf.toList) := by
  cases e with
  | put m =>
      cases h
      simp [Event.removedOf, Event.putOf]
  | processed p =>
      obtain ⟨⟨hmem, -⟩, rfl⟩ := step_eq_some.mp h
      cases hr : p.removed with
      | false => simp [Event.removedOf, Event.putOf, hr]
      | true =>
          have hperm := List.perm_cons_erase hmem
          simp only [Event.removedOf, Event.putOf, hr, if_true, Option.toList_some,
            Option.toList_none, List.append_nil]
          exact List.perm_append_comm.trans hperm.symm

/-- **Conservation.** -/
theorem run_perm (h : (machine content).run q es = some q') :
    (q' ++ removed es).Perm (q ++ puts es) := by
  induction es generalizing q with
  | nil =>
      rw [Machine.run_nil, Option.some.injEq] at h
      rw [h]
      exact List.Perm.refl _
  | cons e es ih =>
      obtain ⟨t, ht, h⟩ := Machine.run_cons_eq_some.mp h
      have hremoved : removed (e :: es) = e.removedOf.toList ++ removed es := by
        unfold removed
        rw [List.filterMap_cons]
        cases e.removedOf <;> rfl
      have hputs : puts (e :: es) = e.putOf.toList ++ puts es := by
        unfold puts
        rw [List.filterMap_cons]
        cases e.putOf <;> rfl
      rw [hremoved, hputs]
      calc (q' ++ (e.removedOf.toList ++ removed es)).Perm
            (e.removedOf.toList ++ (q' ++ removed es)) := by
              rw [← List.append_assoc, ← List.append_assoc]
              exact List.perm_append_comm.append_right _
        List.Perm _ (e.removedOf.toList ++ (t ++ puts es)) := (ih h).append_left _
        List.Perm _ ((t ++ e.removedOf.toList) ++ puts es) := by
              rw [← List.append_assoc]
              exact List.perm_append_comm.append_right _
        List.Perm _ ((q ++ e.putOf.toList) ++ puts es) := (step_perm ht).append_right _
        List.Perm _ (q ++ (e.putOf.toList ++ puts es)) := by rw [List.append_assoc]

/-- What the queue holds was there or was put. -/
theorem mem_of_run (h : (machine content).run q es = some q') {m : μ} (hm : m ∈ q') :
    m ∈ q ++ puts es :=
  (run_perm h).mem_iff.mp (List.mem_append_left _ hm)

/-- What is processed was there or was put, and is processed on its own content. -/
theorem processed_of_run (h : (machine content).run q es = some q') {p : Processed μ γ}
    (hp : .processed p ∈ es) : p.message ∈ q ++ puts es ∧ content p.message = p.content := by
  obtain ⟨before, after, rfl⟩ := List.append_of_mem hp
  rw [Machine.run_append, Option.bind_eq_some_iff] at h
  obtain ⟨t, ht, h⟩ := h
  obtain ⟨u, hu, -⟩ := Machine.run_cons_eq_some.mp h
  obtain ⟨⟨hmem, hcontent⟩, -⟩ := step_eq_some.mp hu
  refine ⟨?_, hcontent⟩
  have hm := mem_of_run ht hmem
  rw [puts, List.filterMap_append, ← List.append_assoc]
  exact List.mem_append_left _ hm

end DsAmq.Library.OpenQueue
