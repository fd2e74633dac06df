import Mathlib.Data.Finset.Card
import Mathlib.Data.Finset.Dedup

/-!
# A set that registers live objects

A program keeps in a set the addresses of the objects it has in use.  `Tracked live set inside
outside` says that the set holds exactly the addresses `inside`, that the program still has hold
of the addresses `outside` as well, and that all of these are different and live.  There is one
rule for each thing a program does with an address: allocate it, insert it, erase it, free it.
An address that was freed may be allocated again.
-/

set_option autoImplicit false

namespace DsAmq.Library

variable {α : Type}

/-- The set holds `inside`, and all of `inside` and `outside` are different and live. -/
structure Tracked (live : α → Prop) (set : Finset α) (inside outside : List α) : Prop where
  mem : ∀ p, p ∈ set ↔ p ∈ inside
  nodup : (inside ++ outside).Nodup
  alive : ∀ p ∈ inside ++ outside, live p

namespace Tracked

variable {live live' : α → Prop} {set : Finset α} {inside inside' outside outside' : List α}
  {p : α}

/-- The order in which the addresses are listed does not matter. -/
theorem perm (h : Tracked live set inside outside) (hin : inside.Perm inside')
    (hout : outside.Perm outside') : Tracked live set inside' outside' := by
  have hall : (inside ++ outside).Perm (inside' ++ outside') := hin.append hout
  refine ⟨?_, hall.nodup_iff.mp h.nodup, ?_⟩
  · intro p
    rw [h.mem, hin.mem_iff]
  · intro p hp
    exact h.alive p (hall.mem_iff.mpr hp)

/-- Nothing is registered. -/
theorem empty : Tracked live ∅ [] [] := by
  refine ⟨?_, List.nodup_nil, ?_⟩ <;> simp

/-- An address at which nothing lives is allocated. -/
theorem alloc (h : Tracked live set inside outside) (hp : ¬ live p) (hp' : live' p)
    (hlive : ∀ q, live q → live' q) : Tracked live' set inside (p :: outside) := by
  have hfresh : p ∉ inside ++ outside := fun hmem => hp (h.alive p hmem)
  refine ⟨h.mem, ?_, ?_⟩
  · rw [List.perm_middle.nodup_iff, List.nodup_cons]
    exact ⟨hfresh, h.nodup⟩
  · intro q hq
    rcases List.mem_cons.mp (List.perm_middle.mem_iff.mp hq) with rfl | hq
    · exact hp'
    · exact hlive q (h.alive q hq)

/-- An address is freed. -/
theorem free (h : Tracked live set inside (p :: outside))
    (hlive : ∀ q, q ≠ p → live q → live' q) : Tracked live' set inside outside := by
  have hcons := List.nodup_cons.mp (List.perm_middle.nodup_iff.mp h.nodup)
  refine ⟨h.mem, hcons.2, ?_⟩
  intro q hq
  have hne : q ≠ p := by
    intro heq
    exact hcons.1 (heq ▸ hq)
  exact hlive q hne (h.alive q (List.perm_middle.mem_iff.mpr (List.mem_cons_of_mem p hq)))

variable [DecidableEq α]

/-- An address is inserted. -/
theorem insert (h : Tracked live set inside (p :: outside)) :
    Tracked live (insert p set) (p :: inside) outside := by
  have hperm : (inside ++ p :: outside).Perm (p :: inside ++ outside) := List.perm_middle
  refine ⟨?_, hperm.nodup_iff.mp h.nodup, ?_⟩
  · intro q
    rw [Finset.mem_insert, List.mem_cons, h.mem]
  · intro q hq
    exact h.alive q (hperm.mem_iff.mpr hq)

/-- An address is erased. -/
theorem erase (h : Tracked live set (p :: inside) outside) :
    Tracked live (set.erase p) inside (p :: outside) := by
  have hperm : (inside ++ p :: outside).Perm (p :: inside ++ outside) := List.perm_middle
  have hp : p ∉ inside := by
    intro hmem
    exact (List.nodup_cons.mp h.nodup).1 (List.mem_append_left outside hmem)
  refine ⟨?_, hperm.nodup_iff.mpr h.nodup, ?_⟩
  · intro q
    rw [Finset.mem_erase, h.mem, List.mem_cons]
    constructor
    · rintro ⟨hne, rfl | hq⟩
      · exact absurd rfl hne
      · exact hq
    · intro hq
      exact ⟨fun heq => hp (heq ▸ hq), Or.inr hq⟩
  · intro q hq
    exact h.alive q (hperm.mem_iff.mp hq)

/-- The set has as many elements as are listed. -/
theorem card_eq (h : Tracked live set inside outside) : set.card = inside.length := by
  have hset : set = inside.toFinset := by
    ext p
    rw [h.mem, List.mem_toFinset]
  rw [hset, List.toFinset_card_of_nodup (List.nodup_append.mp h.nodup).1]

end Tracked

end DsAmq.Library
