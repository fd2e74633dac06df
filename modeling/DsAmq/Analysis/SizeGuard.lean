import DsAmq.Analysis.PoolLifeCycle

/-!
# The size guard of `CreatePool`

`CreatePool` rounds the size of the pool up to the size of the bitset it needs and compares that
with the size of the bitset there is.  The computation is in 32-bit unsigned arithmetic, and for the
last eight sizes it wraps around to 0, which the guard lets pass: it is sound for all other sizes
and for no others (`size_guard_sound_iff`).
-/

set_option autoImplicit false

namespace DsAmq.Analysis

open DsAmq.Model DsAmq.Library

/-- The scans of `CreatePoolItem` and `GetNextPoolItem` look at every slot of a pool of `n` elements
and at one more bit, and stay inside the bitset. -/
structure ScansCover (n : ℕ) (p : ProducerPool) : Prop where
  slots : n < p.nBitSetSize
  bitset : p.nBitSetSize ≤ maxBitsetSize
  create : ∃ found, scan (fun i => (p.test i).map (!·)) 0 p.nBitSetSize = .ok found
  next : ∃ found, scan p.test p.nPoolCursor (p.nBitSetSize - p.nPoolCursor) = .ok found

/-- On any pool, with any arguments and outcomes: when the guard lets the size pass, the scans cover
the pool, and it lets every size up to 524279 pass. -/
def GuardSound (n : UInt32) : Prop :=
  ∀ (p : ProducerPool) (b d : String) (t a : Bool) (alloc : Alloc),
    ((p.createPool n b d t a alloc).1 ≠ .returned false →
      ScansCover n.toNat (p.createPool n b d t a alloc).2) ∧
    (n.toNat ≤ 524279 → (p.createPool n b d t a alloc).1 ≠ .returned false)

variable {n : UInt32} {p : ProducerPool} {b d : String} {t a : Bool} {alloc : Alloc}

/-- The size of the bitset that `CreatePool` computes, whatever it does then. -/
theorem createPool_nBitSetSize :
    (p.createPool n b d t a alloc).2.nBitSetSize = wrap32 ((n.toNat / 8 + 1) * 8) := by
  unfold ProducerPool.createPool
  dsimp only
  split
  · rfl
  · cases alloc <;> rfl

/-- `CreatePool` returns false exactly when the guard rejects the size. -/
theorem createPool_returned_false_iff :
    (p.createPool n b d t a alloc).1 = .returned false ↔ ¬ sizeAccepted n.toNat := by
  unfold ProducerPool.createPool sizeAccepted
  dsimp only
  split
  · rename_i hguard
    simp only [true_iff]
    omega
  · rename_i hguard
    cases alloc with
    | ok => simpa using hguard
    | badAlloc what => simpa using hguard

/-- A scan that ends before the end of the bitset does not throw. -/
theorem scansCover_of_bounds {m : ℕ} (hslots : m < p.nBitSetSize)
    (hbitset : p.nBitSetSize ≤ maxBitsetSize) : ScansCover m p := by
  have htest : ∀ j < p.nBitSetSize, p.test j = .ok (p.bits j) := by
    intro j hj
    exact if_pos (by omega)
  refine ⟨hslots, hbitset, ?_, ?_⟩
  · refine ⟨_, scan_eq_find? (b := fun j => !p.bits j) p.nBitSetSize 0 ?_⟩
    intro j _ hj
    rw [htest j (by omega)]
    rfl
  · refine ⟨_, scan_eq_find? (b := p.bits) _ _ ?_⟩
    intro j _ hj
    exact htest j (by omega)

/-- **When the size guard is sound.**  For every `unsigned int` size: that a size which the guard
does not reject has fewer slots than the scans look at, and these no more than the bitset has, and
that no size up to 524279 is rejected, holds if and only if the size is below `2^32 - 8`. -/
theorem size_guard_sound_iff (n : UInt32) : GuardSound n ↔ n.toNat < 2 ^ 32 - 8 := by
  have hn := n.toNat_lt
  constructor
  · intro h
    by_contra hlarge
    -- the computation wraps around to 0, and the guard lets the size pass
    have hwrap : wrap32 ((n.toNat / 8 + 1) * 8) = 0 := by
      unfold wrap32
      omega
    have hpass : (ProducerPool.new.createPool n "" "" false true .ok).1 ≠ .returned false := by
      rw [Ne, createPool_returned_false_iff, not_not]
      unfold sizeAccepted
      rw [hwrap]
      exact Nat.zero_le _
    have hcover := ((h .new "" "" false true .ok).1 hpass).slots
    rw [createPool_nBitSetSize, hwrap] at hcover
    omega
  · intro hsmall p b d t a alloc
    constructor
    · intro hpass
      rw [Ne, createPool_returned_false_iff, not_not] at hpass
      have hwrap : wrap32 ((n.toNat / 8 + 1) * 8) = (n.toNat / 8 + 1) * 8 := by
        unfold wrap32
        omega
      apply scansCover_of_bounds
      · rw [createPool_nBitSetSize, hwrap]
        omega
      · rw [createPool_nBitSetSize]
        exact hpass
    · intro hle
      rw [Ne, createPool_returned_false_iff, not_not]
      apply sizeAccepted_of_lt
      unfold maxBitsetSize
      omega

/-- **The guard is not sound for every size**: `CreatePool(4294967288)` is not rejected, and no bit
is looked at. -/
theorem size_guard_lets_wrapped_size_pass :
    (ProducerPool.new.createPool 4294967288 "broker" "orders" false true .ok).1 = .returned true ∧
      (ProducerPool.new.createPool 4294967288 "broker" "orders" false true .ok).2.nBitSetSize = 0 ∧
      ¬ GuardSound 4294967288 := by
  have hbitset : (ProducerPool.new.createPool 4294967288 "broker" "orders" false true
      .ok).2.nBitSetSize = 0 := by
    rw [createPool_nBitSetSize]
    rfl
  have hpass : (ProducerPool.new.createPool 4294967288 "broker" "orders" false true .ok).1 =
      .returned true := rfl
  refine ⟨hpass, hbitset, ?_⟩
  intro h
  have hcover := ((h .new "broker" "orders" false true .ok).1 (by rw [hpass]; simp)).slots
  rw [hbitset] at hcover
  exact Nat.not_lt_zero _ hcover

end DsAmq.Analysis
