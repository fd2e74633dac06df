import Mathlib.Data.List.Nodup
import Mathlib.Order.Basic

/-!
# Objects that are given fresh identifiers

Objects at addresses get identifiers, always one that is not below any bound known so far.
`Identified given bound has` says that the identifiers `given` so far are different and below the
bound, and that the objects in view (`has p i`: the object at `p` has the identifier `i`) have
different ones among them.  An object may go out of view, and its address be used again.
-/

set_option autoImplicit false

namespace DsAmq.Library

/-- The identifiers given so far are different and below the bound, and those of the objects in
view are different and among them. -/
structure Identified {α ι : Type} [Preorder ι] (given : List ι) (bound : ι) (has : α → ι → Prop) :
    Prop where
  nodup : given.Nodup
  below : ∀ i ∈ given, i < bound
  mem : ∀ p i, has p i → i ∈ given
  inj : ∀ p q i, has p i → has q i → p = q

namespace Identified

variable {α ι : Type} [Preorder ι] {given : List ι} {bound bound' i : ι} {has has' : α → ι → Prop}
  {q : α}

/-- No identifier has been given, and there is no object in view. -/
theorem empty (hhas : ∀ p i, ¬ has p i) : Identified [] bound has := by
  constructor
  · exact List.nodup_nil
  · intro i hi
    cases hi
  · intro p i h
    exact absurd h (hhas p i)
  · intro p q i h
    exact absurd h (hhas p i)

/-- Objects go out of view, and the bound is raised. -/
theorem mono (h : Identified given bound has) (hbound : bound ≤ bound')
    (hhas : ∀ p i, has' p i → has p i) : Identified given bound' has' := by
  constructor
  · exact h.nodup
  · intro i hi
    exact lt_of_lt_of_le (h.below i hi) hbound
  · intro p i hp
    exact h.mem p i (hhas p i hp)
  · intro p q i hp hq
    exact h.inj p q i (hhas p i hp) (hhas q i hq)

/-- An object at `q` gets an identifier that is not below the bound. -/
theorem fresh (h : Identified given bound has) (hi : bound ≤ i) (hbound : i < bound')
    (hhas : ∀ p j, has' p j → (p = q ∧ j = i) ∨ has p j) :
    Identified (given ++ [i]) bound' has' := by
  have hnot : i ∉ given := by
    intro hmem
    exact lt_irrefl i (lt_of_lt_of_le (h.below i hmem) hi)
  constructor
  · rw [List.nodup_append]
    refine ⟨h.nodup, List.nodup_singleton i, ?_⟩
    intro j hj k hk heq
    rw [List.mem_singleton.mp hk] at heq
    rw [heq] at hj
    exact hnot hj
  · intro j hj
    rcases List.mem_append.mp hj with hj | hj
    · exact lt_of_lt_of_le (h.below j hj) (le_of_lt (lt_of_le_of_lt hi hbound))
    · rw [List.mem_singleton.mp hj]
      exact hbound
  · intro p j hp
    rcases hhas p j hp with ⟨-, rfl⟩ | hp
    · exact List.mem_append_right given List.mem_cons_self
    · exact List.mem_append_left [i] (h.mem p j hp)
  · intro p r j hp hr
    rcases hhas p j hp with ⟨rfl, rfl⟩ | hp'
    · rcases hhas r j hr with ⟨rfl, -⟩ | hr'
      · rfl
      · exact absurd (h.mem r j hr') hnot
    · rcases hhas r j hr with ⟨rfl, rfl⟩ | hr'
      · exact absurd (h.mem p j hp') hnot
      · exact h.inj p r j hp' hr'

end Identified

end DsAmq.Library
