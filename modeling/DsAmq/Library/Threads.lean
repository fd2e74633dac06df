import Mathlib.Data.List.Basic
import Mathlib.Algebra.GroupWithZero.Nat

/-!
# A list of threads, one of which moves

The threads of a system are a list; a step of thread `t` replaces the entry at `t`
(`List.set`), and a new thread is appended.  These lemmas say what the entries are
afterwards.
-/

set_option autoImplicit false

namespace DsAmq.Library.Threads

variable {α : Type} {ts : List α} {t i : ℕ} {a b x : α}

/-- The threads after thread `t` has moved from `a` to `b`. -/
theorem getElem?_set_eq_some (h : ts[t]? = some a) :
    (ts.set t b)[i]? = some x ↔ (i = t ∧ x = b) ∨ (i ≠ t ∧ ts[i]? = some x) := by
  have ht : t < ts.length := (List.getElem?_eq_some_iff.mp h).1
  rw [List.getElem?_set]
  by_cases hi : t = i
  · subst hi
    simp only [if_true, ht, Option.some.injEq, ne_eq, not_true, false_and, or_false, true_and,
      eq_comm]
  · simp only [hi, if_false, ne_eq, Ne.symm hi, not_false_eq_true, true_and, false_and,
      false_or]

/-- The threads after a new one has begun. -/
theorem getElem?_append_eq_some :
    (ts ++ [b])[i]? = some x ↔ ts[i]? = some x ∨ (i = ts.length ∧ x = b) := by
  rw [List.getElem?_append]
  by_cases hi : i < ts.length
  · simp only [hi, if_true, Nat.ne_of_lt hi, false_and, or_false]
  · have hnone : ts[i]? = none := List.getElem?_eq_none (Nat.le_of_not_lt hi)
    rw [if_neg hi, List.getElem?_singleton, hnone]
    by_cases hz : i = ts.length
    · subst hz
      simp [eq_comm]
    · have : i - ts.length ≠ 0 := by omega
      simp [hz, this]

/-- What holds of the moved thread and of all others holds of every thread. -/
theorem forall_set {P : ℕ → α → Prop} (h : ts[t]? = some a) (hb : P t b)
    (hrest : ∀ i x, i ≠ t → ts[i]? = some x → P i x) :
    ∀ i x, (ts.set t b)[i]? = some x → P i x := by
  intro i x hx
  rcases (getElem?_set_eq_some h).mp hx with ⟨rfl, rfl⟩ | ⟨hi, hx⟩
  · exact hb
  · exact hrest i x hi hx

/-- What holds of the new thread and of all others holds of every thread. -/
theorem forall_append {P : ℕ → α → Prop} (hb : P ts.length b)
    (hrest : ∀ i x, ts[i]? = some x → P i x) :
    ∀ i x, (ts ++ [b])[i]? = some x → P i x := by
  intro i x hx
  rcases getElem?_append_eq_some.mp hx with hx | ⟨rfl, rfl⟩
  · exact hrest i x hx
  · exact hb

/-- What a step does not change of a thread, for all threads. -/
theorem map_set_eq {β : Type} {f : α → β} (h : ts[t]? = some a) (hf : f b = f a) :
    (ts.set t b).map f = ts.map f := by
  obtain ⟨ht, rfl⟩ := List.getElem?_eq_some_iff.mp h
  rw [List.map_set, hf]
  apply List.ext_getElem?
  intro i
  rw [List.getElem?_set]
  split
  · rename_i hi
    subst hi
    simp [ht]
  · rfl

/-- What the threads have in common, listed (`f` of each), when thread `t` moves from `a` to
`b`: `f b` comes for `f a`. -/
theorem filterMap_set_perm {β : Type} (f : α → Option β) (h : ts[t]? = some a) :
    ((f a).toList ++ (ts.set t b).filterMap f).Perm ((f b).toList ++ ts.filterMap f) := by
  induction ts generalizing t with
  | nil => simp at h
  | cons x ts ih =>
      cases t with
      | zero =>
          obtain rfl : x = a := by simpa using h
          rw [List.set_cons_zero, List.filterMap_cons, List.filterMap_cons]
          cases f x <;> cases f b <;> simp [List.Perm.swap]
      | succ t =>
          have hih := ih (t := t) (by simpa using h)
          rw [List.set_cons_succ, List.filterMap_cons, List.filterMap_cons]
          cases f x with
          | none => exact hih
          | some y =>
              have hcons := hih.cons y
              exact (List.perm_middle.trans hcons).trans List.perm_middle.symm

/-- What the threads list (`f` of each), when thread `t` moves from `a` to `b`: the rest stays,
and `f b` comes for `f a`. -/
theorem exists_flatMap_set_perm {β : Type} (f : α → List β) (h : ts[t]? = some a) :
    ∃ rest, (ts.flatMap f).Perm (f a ++ rest) ∧
      ∀ b, ((ts.set t b).flatMap f).Perm (f b ++ rest) := by
  induction ts generalizing t with
  | nil => simp at h
  | cons x ts ih =>
      cases t with
      | zero =>
          obtain rfl : x = a := by simpa using h
          exact ⟨ts.flatMap f, by simp, fun b => by simp⟩
      | succ t =>
          obtain ⟨rest, hrest, hset⟩ := ih (t := t) (by simpa using h)
          have hswap : ∀ l : List β, (f x ++ (l ++ rest)).Perm (l ++ (f x ++ rest)) := by
            intro l
            rw [← List.append_assoc, ← List.append_assoc]
            exact List.perm_append_comm.append_right rest
          refine ⟨f x ++ rest, ?_, fun b => ?_⟩
          · rw [List.flatMap_cons]
            exact (hrest.append_left (f x)).trans (hswap (f a))
          · rw [List.set_cons_succ, List.flatMap_cons]
            exact ((hset b).append_left (f x)).trans (hswap (f b))

/-- The number of threads with a property, when thread `t` moves from `a` to `b`. -/
theorem countP_set_add (f : α → Bool) (h : ts[t]? = some a) :
    (ts.set t b).countP f + (f a).toNat = ts.countP f + (f b).toNat := by
  obtain ⟨ht, rfl⟩ := List.getElem?_eq_some_iff.mp h
  have hset := List.countP_set (p := f) (a := b) ht
  cases ha : f ts[t] with
  | false =>
      rw [ha] at hset
      cases hb : f b <;> simp [hset, hb]
  | true =>
      have hpos : 0 < ts.countP f := List.countP_pos_iff.mpr ⟨ts[t], List.getElem_mem ht, ha⟩
      rw [ha] at hset
      cases hb : f b <;> simp [hset, hb] <;> omega

/-- If every thread that has one property has the other, and thread `t` has only the other, more
threads have the other. -/
theorem countP_lt_countP {f g : α → Bool} (hfg : ∀ x ∈ ts, f x = true → g x = true)
    (h : ts[t]? = some a) (hf : f a = false) (hg : g a = true) : ts.countP f < ts.countP g := by
  induction ts generalizing t with
  | nil => simp at h
  | cons x ts ih =>
      have hrest : ∀ y ∈ ts, f y = true → g y = true := fun y hy =>
        hfg y (List.mem_cons_of_mem x hy)
      cases t with
      | zero =>
          obtain rfl : x = a := by simpa using h
          have hle := List.countP_mono_left hrest
          simp only [List.countP_cons, hf, hg, Bool.false_eq_true, if_false, if_true]
          omega
      | succ t =>
          have hih := ih hrest (t := t) (by simpa using h)
          have hx := hfg x List.mem_cons_self
          simp only [List.countP_cons]
          cases hfx : f x with
          | false =>
              simp only [Bool.false_eq_true, if_false]
              omega
          | true =>
              simp only [hx hfx, if_true]
              omega

/-- The threads with a property are not more than the positions in a list that has them all. -/
theorem countP_le_length {f : α → Bool} (is : List ℕ)
    (h : ∀ i a, ts[i]? = some a → f a = true → i ∈ is) : ts.countP f ≤ is.length := by
  -- the first thread is at the position `k`
  suffices hk : ∀ (k : ℕ) (is : List ℕ),
      (∀ i a, ts[i]? = some a → f a = true → k + i ∈ is) → ts.countP f ≤ is.length by
    apply hk 0 is
    intro i a
    rw [Nat.zero_add]
    exact h i a
  clear h is
  induction ts with
  | nil => intro k is _; exact Nat.zero_le _
  | cons x ts ih =>
      intro k is h
      have hrest : ∀ i a, ts[i]? = some a → f a = true → k + 1 + i ∈ is := by
        intro i a hi hf
        have hmem := h (i + 1) a (by simpa using hi) hf
        rwa [Nat.add_comm i 1, ← Nat.add_assoc] at hmem
      rw [List.countP_cons]
      cases hx : f x with
      | false =>
          have hle := ih (k + 1) is hrest
          simp only [Bool.false_eq_true, if_false]
          omega
      | true =>
          have hmem : k ∈ is := h 0 x rfl hx
          have hle := ih (k + 1) (is.erase k) fun i a hi hf =>
            (List.mem_erase_of_ne (by omega)).mpr (hrest i a hi hf)
          rw [List.length_erase_of_mem hmem] at hle
          have hpos := List.length_pos_of_mem hmem
          simp only [if_true]
          omega

/-- What the threads have in total (`f` of each), when thread `t` moves from `a` to `b`. -/
theorem sum_map_set_add (f : α → ℕ) (h : ts[t]? = some a) :
    ((ts.set t b).map f).sum + f a = (ts.map f).sum + f b := by
  induction ts generalizing t with
  | nil => simp at h
  | cons x ts ih =>
      cases t with
      | zero =>
          obtain rfl : x = a := by simpa using h
          simp only [List.set_cons_zero, List.map_cons, List.sum_cons]
          omega
      | succ t =>
          have hih := ih (t := t) (by simpa using h)
          simp only [List.set_cons_succ, List.map_cons, List.sum_cons]
          omega

/-- If nothing is listed twice, two threads with the same entry are the same thread. -/
theorem eq_of_nodup_filterMap {β : Type} {f : α → Option β} {y : β}
    (hnodup : (ts.filterMap f).Nodup) (hi : ts[i]? = some a) (ht : ts[t]? = some b)
    (hfa : f a = some y) (hfb : f b = some y) : i = t := by
  have hpair := List.pairwise_filterMap.mp hnodup
  rw [List.pairwise_iff_getElem] at hpair
  obtain ⟨hil, rfl⟩ := List.getElem?_eq_some_iff.mp hi
  obtain ⟨htl, rfl⟩ := List.getElem?_eq_some_iff.mp ht
  rcases Nat.lt_trichotomy i t with hlt | heq | hgt
  · exact absurd rfl (hpair i t hil htl hlt y hfa y hfb)
  · exact heq
  · exact absurd rfl (hpair t i htl hil hgt y hfb y hfa)

end DsAmq.Library.Threads
