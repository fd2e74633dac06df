import Mathlib.Data.Finset.Card
import DsAmq.Analysis.PoolItems
import DsAmq.Library.FirstFit
import DsAmq.Model.PoolLife

/-!
# The producer pool is a first-fit allocator

The operations on the items of a created pool of `n` elements simulate the allocator of the
numbers below `n` (`first_fit_simulation`): `CreatePoolItem` is a request, the position of the
element it returns is the answer, `FreePoolItem` gives a number back, and the operations on the
cursor are silent.  `pool_is_first_fit` adds what the representation does meanwhile.
-/

set_option autoImplicit false

namespace DsAmq.Analysis

open DsAmq.Model DsAmq.Library

/-- The pool of `n` elements represents the allocator in which the numbers `used` are in use. -/
def Allocates (n : ℕ) (p : ProducerPool) (used : Finset ℕ) : Prop :=
  ∃ held, Slots n held p ∧ held.toFinset = used

/-- The operation is on NULL or on an element of the array. -/
def OnElement (n : ℕ) : ItemOp → Prop
  | .freePoolItem (some k) => k < n
  | _ => True

/-- What an operation with its answer means for the allocator. -/
def allocatorLabels : ItemOp × Option ℕ → List FirstFit.Label
  | (.createPoolItem, r) => [.alloc r]
  | (.freePoolItem k, _) => [.free k]
  | _ => []

variable {n k : ℕ} {p p' : ProducerPool} {used : Finset ℕ}

/-! ## The operations in a represented state -/

theorem Allocates.subset (h : Allocates n p used) : used ⊆ Finset.range n := by
  obtain ⟨held, hslots, rfl⟩ := h
  intro k hk
  exact Finset.mem_range.mpr (hslots.lt k (List.mem_toFinset.mp hk))

theorem Allocates.bits (h : Allocates n p used) (i : ℕ) : p.bits i = true ↔ i ∈ used := by
  obtain ⟨held, hslots, rfl⟩ := h
  rw [hslots.bits, List.mem_toFinset]

theorem Allocates.usedCount (h : Allocates n p used) : p.nUsedPoolItemCnt = used.card := by
  obtain ⟨held, hslots, rfl⟩ := h
  rw [hslots.used, List.toFinset_card_of_nodup hslots.nodup]

/-- `CreatePoolItem` when all are in use. -/
theorem Allocates.createPoolItem_full (h : Allocates n p used)
    (hfull : FirstFit.firstIdle n used = none) :
    p.createPoolItem =
      .ok (none, { p with strError := "In CreatePoolItem(), Pool Overflow." }) := by
  obtain ⟨held, hslots, rfl⟩ := h
  apply createPoolItem_of_full hslots
  rw [length_held_eq_iff hslots]
  intro j hj
  exact List.mem_toFinset.mp (FirstFit.firstIdle_eq_none.mp hfull j hj)

/-- `CreatePoolItem` when `k` is the least idle number. -/
theorem Allocates.createPoolItem_idle (h : Allocates n p used)
    (hidle : FirstFit.firstIdle n used = some k) :
    ∃ p', p.createPoolItem = .ok (some k, p') ∧ Allocates n p' (insert k used) := by
  obtain ⟨held, hslots, rfl⟩ := h
  obtain ⟨hlt, hk, hmin⟩ := FirstFit.firstIdle_eq_some.mp hidle
  obtain ⟨p', hcreate, hslots'⟩ := createPoolItem_of_idle hslots hlt
    (fun hmem => hk (List.mem_toFinset.mpr hmem))
    (fun j hj => List.mem_toFinset.mp (hmin j hj))
  exact ⟨p', hcreate, k :: held, hslots', List.toFinset_cons⟩

/-- `FreePoolItem` of an element that is in use. -/
theorem Allocates.freePoolItem_used (h : Allocates n p used) (hk : k ∈ used) :
    ∃ p', p.freePoolItem (some k) = .ok p' ∧ Allocates n p' (used.erase k) := by
  obtain ⟨held, hslots, rfl⟩ := h
  obtain ⟨p', hfree, hslots'⟩ := freePoolItem_of_mem hslots (List.mem_toFinset.mp hk)
  refine ⟨p', hfree, held.erase k, hslots', ?_⟩
  ext i
  rw [List.mem_toFinset, Finset.mem_erase, List.mem_toFinset, hslots.nodup.mem_erase_iff]

/-- `FreePoolItem` of an idle element. -/
theorem Allocates.freePoolItem_idle (h : Allocates n p used) (hlt : k < n) (hk : k ∉ used) :
    p.freePoolItem (some k) = .ok p := by
  obtain ⟨held, hslots, rfl⟩ := h
  exact freePoolItem_of_idle hslots hlt fun hmem => hk (List.mem_toFinset.mpr hmem)

/-- `GetNextPoolItem` moves the cursor only. -/
theorem Allocates.getNextPoolItem (h : Allocates n p used) :
    ∃ r p', p.getNextPoolItem = .ok (r, p') ∧ Allocates n p' used := by
  obtain ⟨held, hslots, rfl⟩ := h
  rcases getNextPoolItem_cases hslots with ⟨-, hnext⟩ | ⟨k, -, -, -, hnext⟩
  · exact ⟨none, _, hnext, held, slots_setCursor hslots _, rfl⟩
  · exact ⟨some k, _, hnext, held, slots_setCursor hslots _, rfl⟩

/-! ## The simulation -/

/-- **One operation**: it has a result, and the allocator moves as the labels say. -/
theorem Allocates.step (h : Allocates n p used) {op : ItemOp} (hop : OnElement n op) :
    ∃ r p' used', p.onItems op = .ok (r, p') ∧
      (FirstFit.machine n).run used (allocatorLabels (op, r)) = some used' ∧
      Allocates n p' used' := by
  cases op with
  | createPoolItem =>
      cases hfirst : FirstFit.firstIdle n used with
      | none =>
          obtain ⟨held, hslots, hheld⟩ := h
          refine ⟨none, _, used, Allocates.createPoolItem_full ⟨held, hslots, hheld⟩ hfirst, ?_,
            held, { hslots with }, hheld⟩
          simp only [allocatorLabels, Machine.run_cons, FirstFit.step_alloc_none hfirst,
            Option.bind_some, Machine.run_nil]
      | some k =>
          obtain ⟨p', hcreate, h'⟩ := h.createPoolItem_idle hfirst
          refine ⟨some k, p', insert k used, hcreate, ?_, h'⟩
          simp only [allocatorLabels, Machine.run_cons, FirstFit.step_alloc_some hfirst,
            Option.bind_some, Machine.run_nil]
  | freePoolItem producer =>
      cases producer with
      | none => exact ⟨none, p, used, rfl, rfl, h⟩
      | some k =>
          by_cases hk : k ∈ used
          · obtain ⟨p', hfree, h'⟩ := h.freePoolItem_used hk
            exact ⟨none, p', used.erase k, by simp only [ProducerPool.onItems, hfree, Except.map],
              rfl, h'⟩
          · have hfree := h.freePoolItem_idle hop hk
            refine ⟨none, p, used.erase k, by simp only [ProducerPool.onItems, hfree, Except.map],
              rfl, ?_⟩
            rw [Finset.erase_eq_of_notMem hk]
            exact h
  | initPoolItemCursor =>
      obtain ⟨held, hslots, hheld⟩ := h
      exact ⟨none, _, used, rfl, rfl, held, slots_setCursor hslots 0, hheld⟩
  | getNextPoolItem =>
      obtain ⟨r, p', hnext, h'⟩ := h.getNextPoolItem
      exact ⟨r, p', used, hnext, rfl, h'⟩

/-- The operations on the items simulate the allocator. -/
theorem first_fit_simulation (n : ℕ) :
    Machine.Simulation ProducerPool.items (FirstFit.machine n) (Allocates n)
      (fun _ x => OnElement n x.1) allocatorLabels := by
  constructor
  intro p used x p' h hop hstep
  obtain ⟨op, r⟩ := x
  obtain ⟨r', q, used', hexec, hrun, h'⟩ := h.step hop
  simp only [ProducerPool.items, hexec] at hstep
  split at hstep
  · rename_i hr
    cases hstep
    rw [← hr]
    exact ⟨used', hrun, h'⟩
  · cases hstep

/-! ## Whole runs -/

/-- A fresh pool on which `CreatePool` has succeeded represents the allocator with nothing in
use. -/
theorem allocates_created {m : UInt32} {b u : String} {t a : Bool} {alloc : Alloc}
    (hm : m.toNat ≤ 524279)
    (hcreate : ProducerPool.new.createPool m b u t a alloc = (.returned true, p)) :
    Allocates m.toNat p ∅ := by
  have hbound : m.toNat < maxBitsetSize := by
    unfold maxBitsetSize
    omega
  have hidle : Idle ProducerPool.new := ⟨rfl, fun _ => rfl⟩
  cases alloc with
  | ok =>
      obtain ⟨-, hslots, -⟩ := slots_createPool (b := b) (u := u) (t := t) (a := a) hidle hbound
      rw [hcreate] at hslots
      exact ⟨[], hslots, rfl⟩
  | badAlloc what =>
      unfold ProducerPool.createPool at hcreate
      dsimp only at hcreate
      split at hcreate <;> cases hcreate

/-- **The producer pool implements a first-fit slot allocator.**  After a successful
`CreatePool(n, …)` on a fresh pool with `n ≤ 524279` and any operations on its items, where NULL
or any element may be given back: the operations with their answers are a run of the allocator
over the numbers below `n`, no operation faults, and with `used` the numbers that are in use,
`CreatePoolItem` returns the least idle element, or NULL with nothing but the error text changed
when all are in use; `FreePoolItem` of NULL or of an idle element changes nothing; the counter is
the number of elements in use; the bits are those of `used`, none at or above `n`; and the scan
has an idle bit to find. -/
theorem pool_is_first_fit {m : UInt32} {b u : String} {t a : Bool} {alloc : Alloc}
    {p₀ : ProducerPool} {trace : List (ItemOp × Option ℕ)} (hm : m.toNat ≤ 524279)
    (hcreate : ProducerPool.new.createPool m b u t a alloc = (.returned true, p₀))
    (hops : ∀ x ∈ trace, OnElement m.toNat x.1)
    (hrun : ProducerPool.items.run p₀ trace = some p) :
    ∃ used : Finset ℕ, used ⊆ Finset.range m.toNat ∧
      (FirstFit.machine m.toNat).run ∅ (trace.flatMap allocatorLabels) = some used ∧
      (∀ op, OnElement m.toNat op → ∃ r p', p.onItems op = .ok (r, p')) ∧
      ((∀ j < m.toNat, j ∈ used) → p.createPoolItem =
        .ok (none, { p with strError := "In CreatePoolItem(), Pool Overflow." })) ∧
      (∀ k < m.toNat, k ∉ used → (∀ j < k, j ∈ used) →
        ∃ p', p.createPoolItem = .ok (some k, p')) ∧
      p.freePoolItem none = .ok p ∧
      (∀ k < m.toNat, k ∉ used → p.freePoolItem (some k) = .ok p) ∧
      p.nUsedPoolItemCnt = used.card ∧ (∀ i, p.bits i = true ↔ i ∈ used) ∧
      (∀ i, m.toNat ≤ i → p.bits i = false) ∧ ∃ i < p.nBitSetSize, p.bits i = false := by
  have hmeets : ProducerPool.items.Meets (fun _ x => OnElement m.toNat x.1) p₀ trace :=
    Machine.meets_of_forall p₀ fun x hx _ => hops x hx
  obtain ⟨used, hused, h⟩ :=
    (first_fit_simulation m.toNat).run (allocates_created hm hcreate) hmeets hrun
  have hhigh : ∀ i, m.toNat ≤ i → p.bits i = false := by
    intro i hi
    rw [← Bool.not_eq_true, h.bits]
    intro hmem
    have := Finset.mem_range.mp (h.subset hmem)
    omega
  refine ⟨used, h.subset, hused, ?_, ?_, ?_, rfl, ?_, h.usedCount, h.bits, hhigh, ?_⟩
  · intro op hop
    obtain ⟨r, p', -, hexec, -, -⟩ := h.step hop
    exact ⟨r, p', hexec⟩
  · intro hfull
    exact h.createPoolItem_full (FirstFit.firstIdle_eq_none.mpr hfull)
  · intro k hlt hk hmin
    obtain ⟨p', hcreate', -⟩ :=
      h.createPoolItem_idle (FirstFit.firstIdle_eq_some.mpr ⟨hlt, hk, hmin⟩)
    exact ⟨p', hcreate'⟩
  · intro k hlt hk
    exact h.freePoolItem_idle hlt hk
  · refine ⟨m.toNat, ?_, hhigh m.toNat (Nat.le_refl _)⟩
    obtain ⟨held, hslots, -⟩ := h
    rw [hslots.bitset]
    omega

/-- Of eight elements two are taken, the first is given back twice, and one is taken again. -/
def takenAndFreedTwice : List (ItemOp × Option ℕ) :=
  [(.createPoolItem, some 0), (.createPoolItem, some 1), (.freePoolItem (some 0), none),
    (.freePoolItem (some 0), none), (.getNextPoolItem, some 1), (.createPoolItem, some 0)]

theorem pool_is_first_fit_freed_twice :
    ∃ p, ProducerPool.items.run (ProducerPool.new.createPool 8 "broker" "orders" false true .ok).2
        takenAndFreedTwice = some p ∧ p.nUsedPoolItemCnt = 2 ∧
      (∃ p', p.createPoolItem = .ok (some 2, p')) ∧ p.freePoolItem (some 5) = .ok p := by
  have hrun : (ProducerPool.items.run
      (ProducerPool.new.createPool 8 "broker" "orders" false true .ok).2
      takenAndFreedTwice).map (fun p => p.nUsedPoolItemCnt) = some 2 := by
    decide +kernel
  obtain ⟨p, hrun, hcount⟩ := Option.map_eq_some_iff.mp hrun
  have hcreate : ProducerPool.new.createPool 8 "broker" "orders" false true .ok =
      (.returned true, (ProducerPool.new.createPool 8 "broker" "orders" false true .ok).2) := rfl
  obtain ⟨used, -, hused, -, -, htake, -, hfree, -, -⟩ :=
    pool_is_first_fit (by decide) hcreate (by simp [takenAndFreedTwice, OnElement]) hrun
  obtain rfl : used = {0, 1} := by
    have hsome : some used = some {0, 1} := hused.symm.trans (by decide)
    exact Option.some.inj hsome
  exact ⟨p, hrun, hcount, htake 2 (by decide) (by decide) (by decide),
    hfree 5 (by decide) (by decide)⟩

end DsAmq.Analysis
