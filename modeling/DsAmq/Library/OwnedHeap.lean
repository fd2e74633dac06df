import Mathlib.Data.List.Nodup

/-!
# A heap, part of which is in the hands of a program

`OwnedHeap rest heap own` says that the objects of the heap are those at the different addresses `own`,
which the program has in its hands, and those of `rest`, which it has no pointer to.  There is one
rule for each thing that the program does with an address, and `rest` is what remains of the heap
when the program has given everything back.
-/

set_option autoImplicit false

namespace DsAmq.Library

variable {α β : Type}

/-- The heap is `rest` and, at addresses where `rest` has nothing, the objects at `own`. -/
structure OwnedHeap (rest heap : α → Option β) (own : List α) : Prop where
  nodup : own.Nodup
  live : ∀ p ∈ own, (heap p).isSome = true
  apart : ∀ p ∈ own, rest p = none
  frame : ∀ p, p ∉ own → heap p = rest p

namespace OwnedHeap

variable {rest heap heap' : α → Option β} {own own' : List α} {p : α}

/-- The order in which the addresses are listed does not matter. -/
theorem perm (h : OwnedHeap rest heap own) (hown : own.Perm own') : OwnedHeap rest heap own' := by
  refine ⟨hown.nodup_iff.mp h.nodup, ?_, ?_, ?_⟩
  · intro p hp
    exact h.live p (hown.mem_iff.mpr hp)
  · intro p hp
    exact h.apart p (hown.mem_iff.mpr hp)
  · intro p hp
    exact h.frame p (fun hmem => hp (hown.mem_iff.mp hmem))

/-- An address at which there is nothing is allocated. -/
theorem alloc (h : OwnedHeap rest heap own) (hp : heap p = none) (hp' : (heap' p).isSome = true)
    (hrest : ∀ q, q ≠ p → heap' q = heap q) : OwnedHeap rest heap' (p :: own) := by
  have hfresh : p ∉ own := by
    intro hmem
    have hlive := h.live p hmem
    rw [hp] at hlive
    cases hlive
  refine ⟨List.nodup_cons.mpr ⟨hfresh, h.nodup⟩, ?_, ?_, ?_⟩
  · intro q hq
    by_cases hqp : q = p
    · rw [hqp]
      exact hp'
    · rw [hrest q hqp]
      exact h.live q ((List.mem_cons.mp hq).resolve_left hqp)
  · intro q hq
    rcases List.mem_cons.mp hq with rfl | hq
    · rw [← h.frame q hfresh]
      exact hp
    · exact h.apart q hq
  · intro q hq
    rw [List.mem_cons, not_or] at hq
    rw [hrest q hq.1]
    exact h.frame q hq.2

/-- An address is freed. -/
theorem free (h : OwnedHeap rest heap (p :: own)) (hp : heap' p = none)
    (hrest : ∀ q, q ≠ p → heap' q = heap q) : OwnedHeap rest heap' own := by
  obtain ⟨hpown, hnodup⟩ := List.nodup_cons.mp h.nodup
  have hne : ∀ q ∈ own, q ≠ p := fun q hq heq => hpown (heq ▸ hq)
  refine ⟨hnodup, ?_, ?_, ?_⟩
  · intro q hq
    rw [hrest q (hne q hq)]
    exact h.live q (List.mem_cons_of_mem p hq)
  · intro q hq
    exact h.apart q (List.mem_cons_of_mem p hq)
  · intro q hq
    by_cases hqp : q = p
    · rw [hqp, hp, h.apart p List.mem_cons_self]
    · rw [hrest q hqp]
      exact h.frame q (fun hmem => ((List.mem_cons.mp hmem).elim hqp hq))

end OwnedHeap

end DsAmq.Library
