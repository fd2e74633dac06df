import Mathlib.Data.List.Nodup
import Mathlib.Data.List.Range

/-!
# Resources that are created, owned and destroyed

Resources are numbered in the order of their creation, and every destruction is recorded.
`Ledger created destroyed owned` says that each of the resources created so far has been
destroyed exactly once, or is one of those that somebody still owns, and not both.  There is one
rule for each thing that can happen to a resource.
-/

set_option autoImplicit false

namespace DsAmq.Library

/-- Each of the `created` resources is recorded once in `destroyed` or listed once in `owned`. -/
def Ledger (created : ℕ) (destroyed owned : List ℕ) : Prop :=
  (destroyed ++ owned).Perm (List.range created)

namespace Ledger

variable {created k : ℕ} {destroyed owned owned' : List ℕ}

/-- Nothing has been created. -/
theorem empty : Ledger 0 [] [] := List.Perm.refl []

/-- The order in which the owned resources are listed does not matter. -/
theorem perm (h : Ledger created destroyed owned) (howned : owned.Perm owned') :
    Ledger created destroyed owned' :=
  (howned.symm.append_left destroyed).trans h

/-- A resource is created. -/
theorem create (h : Ledger created destroyed owned) :
    Ledger (created + 1) destroyed (created :: owned) := by
  unfold Ledger
  rw [List.range_succ]
  have hmiddle : (destroyed ++ created :: owned).Perm (created :: (destroyed ++ owned)) :=
    List.perm_middle
  exact (hmiddle.trans (h.cons created)).trans (List.perm_append_singleton created _).symm

/-- An owned resource is destroyed. -/
theorem destroy (h : Ledger created destroyed (k :: owned)) :
    Ledger created (destroyed ++ [k]) owned := by
  unfold Ledger
  rw [List.append_assoc, List.singleton_append]
  exact h

/-- All that is owned is destroyed. -/
theorem destroyAll (h : Ledger created destroyed owned) :
    Ledger created (destroyed ++ owned) [] := by
  unfold Ledger
  rw [List.append_nil]
  exact h

/-- No resource is destroyed twice. -/
theorem nodup (h : Ledger created destroyed owned) : destroyed.Nodup :=
  (List.nodup_append.mp (h.nodup_iff.mpr List.nodup_range)).1

/-- The owned resources are those that were created and not destroyed. -/
theorem mem_owned_iff (h : Ledger created destroyed owned) :
    k ∈ owned ↔ k < created ∧ k ∉ destroyed := by
  have hall : k ∈ destroyed ++ owned ↔ k < created := h.mem_iff.trans List.mem_range
  have hnodup : (destroyed ++ owned).Nodup := h.nodup_iff.mpr List.nodup_range
  rw [List.mem_append] at hall
  constructor
  · intro hk
    refine ⟨hall.mp (Or.inr hk), ?_⟩
    intro hd
    exact List.disjoint_of_nodup_append hnodup hd hk
  · rintro ⟨hlt, hd⟩
    exact (hall.mpr hlt).resolve_left hd

/-- When nothing is owned any more, every resource has been destroyed exactly once. -/
theorem count_destroyed (h : Ledger created destroyed []) (hk : k < created) :
    destroyed.count k = 1 := by
  unfold Ledger at h
  rw [List.append_nil] at h
  rw [h.count_eq]
  exact List.count_eq_one_of_mem List.nodup_range (List.mem_range.mpr hk)

end Ledger

end DsAmq.Library
