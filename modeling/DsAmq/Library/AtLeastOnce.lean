import DsAmq.Library.Machine

/-!
# The at-least-once queue

The abstract queue a consumer with explicit acknowledgement is meant to implement.  Its
state is the list of the messages it holds.  Its only visible action is that somebody has
processed a message it holds, on the message's own content, with a verdict: the message
leaves the queue when the verdict is to remove it, and stays otherwise.

A message may be processed any number of times before it is removed, and never after
(`not_enabled_of_notMem`); over a whole run it leaves the queue exactly when one, and only
one, of its verdicts was to remove it (`run_spec`).
-/

set_option autoImplicit false

namespace DsAmq.Library.AtLeastOnce

variable {μ γ : Type} [DecidableEq μ] [DecidableEq γ]

/-- The visible action: `message` was processed on `content`, and `removed` is the verdict. -/
structure Processed (μ γ : Type) where
  message : μ
  content : γ
  removed : Bool

/-- The queue as a machine: a processed message is one the queue holds, processed on its own
content, and it leaves the queue exactly on the verdict to remove it. -/
def machine (content : μ → γ) : Machine (List μ) (Processed μ γ) where
  step q p :=
    if p.message ∈ q ∧ content p.message = p.content then
      some (if p.removed then q.erase p.message else q)
    else none

/-- The number of verdicts to remove `m` in a list of actions. -/
def removals (m : μ) (ps : List (Processed μ γ)) : ℕ :=
  ps.countP fun p => decide (p.message = m) && p.removed

theorem step_eq_some {content : μ → γ} {q q' : List μ} {p : Processed μ γ} :
    (machine content).step q p = some q' ↔
      (p.message ∈ q ∧ content p.message = p.content) ∧
        (if p.removed then q.erase p.message else q) = q' := by
  simp only [machine, Option.ite_none_right_eq_some, Option.some.injEq]

/-- A message that has left the queue is not processed again. -/
theorem not_enabled_of_notMem {content : μ → γ} {q : List μ} {p : Processed μ γ}
    (h : p.message ∉ q) : (machine content).step q p = none := by
  simp only [machine, h, false_and, if_false]

/-- A step removes at most the message it processes, and only on that verdict. -/
theorem mem_step_iff {content : μ → γ} {q q' : List μ} {p : Processed μ γ} (hq : q.Nodup)
    (h : (machine content).step q p = some q') (m : μ) :
    m ∈ q' ↔ m ∈ q ∧ ¬ (p.message = m ∧ p.removed = true) := by
  obtain ⟨-, rfl⟩ := step_eq_some.mp h
  by_cases hr : p.removed = true
  · rw [if_pos hr, hq.mem_erase_iff]
    constructor
    · rintro ⟨hne, hm⟩
      exact ⟨hm, fun hc => hne hc.1.symm⟩
    · rintro ⟨hm, hne⟩
      exact ⟨fun hc => hne ⟨hc.symm, hr⟩, hm⟩
  · rw [if_neg hr]
    exact ⟨fun hm => ⟨hm, fun hc => hr hc.2⟩, And.left⟩

/-- The messages of the queue stay distinct. -/
theorem nodup_step {content : μ → γ} {q q' : List μ} {p : Processed μ γ} (hq : q.Nodup)
    (h : (machine content).step q p = some q') : q'.Nodup := by
  obtain ⟨-, rfl⟩ := step_eq_some.mp h
  split
  · exact hq.erase p.message
  · exact hq

/-- A message that is not in the queue has no verdict in any run from there. -/
theorem removals_eq_zero_of_notMem {content : μ → γ} {q q' : List μ} (hq : q.Nodup)
    {ps : List (Processed μ γ)} (h : (machine content).run q ps = some q') {m : μ}
    (hm : m ∉ q) : removals m ps = 0 ∧ m ∉ q' := by
  induction ps generalizing q with
  | nil =>
      rw [Machine.run_nil, Option.some.injEq] at h
      exact ⟨rfl, h ▸ hm⟩
  | cons p ps ih =>
      obtain ⟨t, ht, h⟩ := Machine.run_cons_eq_some.mp h
      have hne : p.message ≠ m := by
        rintro rfl
        rw [not_enabled_of_notMem hm] at ht
        cases ht
      have hmt : m ∉ t := fun hc => hm ((mem_step_iff hq ht m).mp hc).1
      obtain ⟨h0, hq'⟩ := ih (nodup_step hq ht) h hmt
      refine ⟨?_, hq'⟩
      simp only [removals, List.countP_cons, hne, decide_false, Bool.false_and,
        Bool.false_eq_true, if_false, Nat.add_zero]
      exact h0

/-- **What a run of the queue does to a message it held.**  The message has left the queue
exactly when one of its verdicts was to remove it, and there is never a second one. -/
theorem run_spec {content : μ → γ} {q q' : List μ} (hq : q.Nodup)
    {ps : List (Processed μ γ)} (h : (machine content).run q ps = some q') {m : μ}
    (hm : m ∈ q) : (m ∉ q' ↔ removals m ps = 1) ∧ removals m ps ≤ 1 := by
  induction ps generalizing q with
  | nil =>
      rw [Machine.run_nil, Option.some.injEq] at h
      subst h
      simp [removals, hm]
  | cons p ps ih =>
      obtain ⟨t, ht, h⟩ := Machine.run_cons_eq_some.mp h
      have hmt := mem_step_iff hq ht m
      by_cases hp : p.message = m ∧ p.removed = true
      · -- this step removes `m`: no later step can
        have hnot : m ∉ t := fun hc => (hmt.mp hc).2 hp
        obtain ⟨h0, hq'⟩ := removals_eq_zero_of_notMem (nodup_step hq ht) h hnot
        have hcount : removals m (p :: ps) = 1 := by
          have h1 : removals m (p :: ps) = removals m ps + 1 := by
            simp only [removals, List.countP_cons, hp.1, hp.2, decide_true, Bool.and_self,
              if_true]
          rw [h1, h0]
        exact ⟨⟨fun _ => hcount, fun _ => hq'⟩, Nat.le_of_eq hcount⟩
      · have hcount : removals m (p :: ps) = removals m ps := by
          have hb : (decide (p.message = m) && p.removed) = false := by
            rw [Bool.and_eq_false_iff]
            by_cases hpm : p.message = m
            · exact Or.inr (Bool.eq_false_iff.mpr fun hr => hp ⟨hpm, hr⟩)
            · exact Or.inl (decide_eq_false hpm)
          simp only [removals, List.countP_cons, hb, Bool.false_eq_true, if_false,
            Nat.add_zero]
        rw [hcount]
        exact ih (nodup_step hq ht) h (hmt.mpr ⟨hm, hp⟩)

end DsAmq.Library.AtLeastOnce
