import DsAmq.Analysis.FirstFitPool

/-!
# The life cycle of the producer pool

`Consistent` is the representation invariant of a `CDSAMQProducerPool` over its whole life:
`IsCreated()` tells whether there is an array of `m_nPoolSize` elements, the bits are those of the
elements that are handed out, and the counter counts them.  The operations on a pool that is
created keep it, except for the two that make and delete the array: `CreatePool` resets neither
the bits nor, when it fails, the size, and deletes the array when it throws; `DestroyPool` leaves
the pool created.  And on a pool that is not created `CreatePoolItem` goes through the null pointer
once a failed `CreatePool` has set the size.  `pool_consistent_iff` says that these are the only
ways to lose the invariant.
-/

set_option autoImplicit false

namespace DsAmq.Analysis

open DsAmq.Model DsAmq.Library

/-- The representation invariant of the pool. -/
structure Consistent (s : PoolLife) : Prop where
  created : s.pool.isCreated = true ↔
    ∃ elems, s.pool.pool = .allocated elems ∧ elems.length = s.pool.nPoolSize
  bits : ∀ i, s.pool.bits i = true ↔ i ∈ s.out
  used : s.pool.nUsedPoolItemCnt = s.out.card

/-- No operation has gone through a bad pointer, and the invariant holds. -/
def Represented : Option PoolLife → Prop
  | some s => Consistent s
  | none => False

/-- An element that is given back is one of the current array. -/
def OnCurrent : Option PoolLife → LifeOp → Prop
  | some s, .item (.freePoolItem (some k)) =>
      ∃ elems, s.pool.pool = .allocated elems ∧ k < elems.length
  | _, _ => True

/-- The test of `CreatePool` on the size of the bitset.
SOURCE: DSAMQProducerPool.h:48-54 -/
def sizeAccepted (n : ℕ) : Prop := wrap32 ((n / 8 + 1) * 8) ≤ maxBitsetSize

/-- The operation does not lose the invariant: a created pool is not destroyed, and created again
only with success and while nothing is handed out; no item is asked for after a failed
`CreatePool`. -/
def KeepsConsistent : Option PoolLife → LifeOp → Prop
  | some s, .createPool n _ _ _ _ alloc => s.pool.isCreated = true →
      sizeAccepted n.toNat ∧ alloc = .ok ∧ s.pool.nUsedPoolItemCnt = 0
  | some s, .destroyPool => s.pool.isCreated = false
  | some s, .item .createPoolItem =>
      s.pool.isCreated = true ∨ s.pool.nPoolSize = 0 ∨ s.pool.nBitSetSize = 0
  | _, _ => True

/-- What holds of a consistent pool: there is no array; the pool is a first-fit allocator; or its
size is so large that the size of the bitset has wrapped around, and nothing can be handed out. -/
inductive Full (s : PoolLife) : Prop
  | absent (hcreated : s.pool.isCreated = false) (hpool : s.pool.pool = .null)
      (hidle : Idle s.pool) (hout : s.out = ∅) (hsize : s.pool.nPoolSize ≤ npos) : Full s
  | slots {n : ℕ} (h : Allocates n s.pool s.out) : Full s
  | huge {elems : List Producer} (hcreated : s.pool.isCreated = true)
      (hpool : s.pool.pool = .allocated elems) (hlen : elems.length = s.pool.nPoolSize)
      (hidx : ∀ e ∈ elems, e.nposition = npos) (hidle : Idle s.pool) (hout : s.out = ∅)
      (hsize : s.pool.nPoolSize ≤ npos) (haccepted : sizeAccepted s.pool.nPoolSize)
      (hbitset : s.pool.nBitSetSize = 0) : Full s

variable {s s' : PoolLife} {p p' : ProducerPool} {k : ℕ}

/-! ## The full invariant gives consistency -/

theorem Consistent.of_idle (hcreated : s.pool.isCreated = true ↔
    ∃ elems, s.pool.pool = .allocated elems ∧ elems.length = s.pool.nPoolSize)
    (hidle : Idle s.pool) (hout : s.out = ∅) : Consistent s := by
  refine ⟨hcreated, ?_, ?_⟩
  · intro i
    rw [hidle.2 i, hout]
    simp
  · rw [hidle.1, hout]
    rfl

theorem Full.consistent (h : Full s) : Consistent s := by
  cases h with
  | absent hcreated hpool hidle hout hsize =>
      apply Consistent.of_idle _ hidle hout
      simp [hcreated, hpool]
  | slots h =>
      obtain ⟨held, hslots, hheld⟩ := h
      obtain ⟨elems, hpool, hlen, -⟩ := hslots.alloc
      refine ⟨?_, Allocates.bits ⟨held, hslots, hheld⟩, Allocates.usedCount ⟨held, hslots, hheld⟩⟩
      simp only [hslots.created, true_iff]
      exact ⟨elems, hpool, hlen.trans hslots.size.symm⟩
  | huge hcreated hpool hlen hidx hidle hout hsize haccepted hbitset =>
      apply Consistent.of_idle _ hidle hout
      simp only [hcreated, true_iff]
      exact ⟨_, hpool, hlen⟩

/-! ## `CreatePool` and `DestroyPool` -/

/-- The sizes that the test accepts: those that the bitset has room for, and those for which the
computation wraps around. -/
theorem lt_or_wraps_of_sizeAccepted {n : ℕ} (h : sizeAccepted n) (hn : n ≤ npos) :
    n < maxBitsetSize ∨ wrap32 ((n / 8 + 1) * 8) = 0 := by
  unfold sizeAccepted wrap32 maxBitsetSize at *
  unfold npos at hn
  omega

theorem sizeAccepted_of_lt {n : ℕ} (h : n < maxBitsetSize) : sizeAccepted n := by
  unfold sizeAccepted wrap32
  unfold maxBitsetSize at *
  omega

theorem toNat_le_npos (n : UInt32) : n.toNat ≤ npos := by
  have := n.toNat_lt
  unfold npos
  omega

/-- `CreatePool` that succeeds on an idle pool. -/
theorem full_createPool {n : UInt32} {b d : String} {t a : Bool} (hidle : Idle p)
    (haccepted : sizeAccepted n.toNat) : Full ⟨(p.createPool n b d t a .ok).2, ∅⟩ := by
  have hle := toNat_le_npos n
  rcases lt_or_wraps_of_sizeAccepted haccepted hle with hlt | hwrap
  · obtain ⟨-, hslots, -⟩ := slots_createPool (b := b) (u := d) (t := t) (a := a) hidle hlt
    exact .slots ⟨[], hslots, rfl⟩
  · have hguard : ¬ wrap32 ((n.toNat / 8 + 1) * 8) > maxBitsetSize := by
      rw [hwrap]
      exact Nat.not_lt_zero _
    unfold ProducerPool.createPool
    simp only [hguard, if_false]
    refine .huge rfl rfl (List.length_replicate ..) ?_ hidle rfl hle haccepted hwrap
    intro e he
    rw [List.eq_of_mem_replicate he]
    rfl

/-- The array of a pool that is created has a size that the test accepts. -/
theorem Full.alloc_of_created (h : Full s) (hcreated : s.pool.isCreated = true) :
    ∃ elems, s.pool.pool = .allocated elems ∧ sizeAccepted elems.length := by
  cases h with
  | absent hnot => rw [hcreated] at hnot; cases hnot
  | slots h =>
      obtain ⟨held, hslots, -⟩ := h
      obtain ⟨elems, hpool, hlen, -⟩ := hslots.alloc
      refine ⟨elems, hpool, ?_⟩
      rw [hlen]
      exact sizeAccepted_of_lt hslots.bound
  | huge hc hpool hlen hidx hidle hout hsize haccepted hbitset =>
      refine ⟨_, hpool, ?_⟩
      rw [hlen]
      exact haccepted

/-- Nothing is marked where nothing is handed out. -/
theorem Full.idle_of_used (h : Full s) (hused : s.pool.nUsedPoolItemCnt = 0) : Idle s.pool := by
  have hc := h.consistent
  have hout : s.out = ∅ := by
    rw [← Finset.card_eq_zero, ← hc.used]
    exact hused
  refine ⟨hused, ?_⟩
  intro i
  rw [← Bool.not_eq_true, hc.bits, hout]
  simp

/-- `CreatePool` with a size that is not accepted: the size is changed, the array is not. -/
theorem exec_createPool_rejected {n : UInt32} {b d : String} {t a : Bool} {alloc : Alloc}
    (h : ¬ sizeAccepted n.toNat) :
    s.exec (.createPool n b d t a alloc) = some ⟨{ s.pool with
      nPoolSize := n.toNat
      nBitSetSize := wrap32 ((n.toNat / 8 + 1) * 8)
      strError := "In CreatePool(), max bitset size is over." }, s.out⟩ := by
  have hguard : wrap32 ((n.toNat / 8 + 1) * 8) > maxBitsetSize := Nat.lt_of_not_le h
  simp only [PoolLife.exec, ProducerPool.createPool, hguard, if_true]

/-- `CreatePool` that throws: the array, if there is one, is deleted with the exception. -/
theorem exec_createPool_badAlloc {n : UInt32} {b d what : String} {t a : Bool}
    (h : sizeAccepted n.toNat) :
    s.exec (.createPool n b d t a (.badAlloc what)) = some ⟨{ s.pool with
      nPoolSize := n.toNat
      nBitSetSize := wrap32 ((n.toNat / 8 + 1) * 8)
      strError := "In CreatePool(), " ++ what
      pool := s.pool.pool.release }, ∅⟩ := by
  have hguard : ¬ wrap32 ((n.toNat / 8 + 1) * 8) > maxBitsetSize := Nat.not_lt_of_le h
  simp only [PoolLife.exec, ProducerPool.createPool, hguard, if_false]

theorem exec_createPool_ok {n : UInt32} {b d : String} {t a : Bool} (h : sizeAccepted n.toNat) :
    s.exec (.createPool n b d t a .ok) = some ⟨(s.pool.createPool n b d t a .ok).2, ∅⟩ := by
  have hguard : ¬ wrap32 ((n.toNat / 8 + 1) * 8) > maxBitsetSize := Nat.not_lt_of_le h
  simp only [PoolLife.exec, ProducerPool.createPool, hguard, if_false]

/-- The full invariant, or no state at all. -/
def FullState : Option PoolLife → Prop
  | some s => Full s
  | none => False

/-- What has to be shown of an operation: it leads to a consistent pool exactly when it keeps to
the condition, and a consistent pool satisfies the full invariant. -/
def Exact (s : PoolLife) (op : LifeOp) : Prop :=
  (Represented (s.exec op) ↔ KeepsConsistent (some s) op) ∧
    (Represented (s.exec op) → FullState (s.exec op))

/-- An operation that keeps to the condition and the full invariant. -/
theorem Exact.of_full {op : LifeOp} (hexec : s.exec op = some s') (h : Full s')
    (hkeeps : KeepsConsistent (some s) op) : Exact s op := by
  unfold Exact
  rw [hexec]
  exact ⟨⟨fun _ => hkeeps, fun _ => h.consistent⟩, fun _ => h⟩

/-- An operation that loses the invariant and does not keep to the condition. -/
theorem Exact.of_lost {op : LifeOp} (hlost : ¬ Represented (s.exec op))
    (hnot : ¬ KeepsConsistent (some s) op) : Exact s op :=
  ⟨⟨fun h => absurd h hlost, fun h => absurd h hnot⟩, fun h => absurd h hlost⟩

/-- `CreatePool` on a pool that is not created: whether it succeeds or not, the invariant holds. -/
theorem exact_createPool_absent {n : UInt32} {b d : String} {t a : Bool} {alloc : Alloc}
    (hcreated : s.pool.isCreated = false) (hpool : s.pool.pool = .null) (hidle : Idle s.pool)
    (hout : s.out = ∅) : Exact s (.createPool n b d t a alloc) := by
  have hkeeps : KeepsConsistent (some s) (.createPool n b d t a alloc) := by
    intro hc
    rw [hcreated] at hc
    cases hc
  have hle := toNat_le_npos n
  by_cases haccepted : sizeAccepted n.toNat
  · cases alloc with
    | ok => exact .of_full (exec_createPool_ok haccepted) (full_createPool hidle haccepted) hkeeps
    | badAlloc what =>
        refine .of_full (exec_createPool_badAlloc haccepted) ?_ hkeeps
        refine .absent hcreated ?_ hidle rfl hle
        rw [hpool]
        rfl
  · refine .of_full (exec_createPool_rejected haccepted) ?_ hkeeps
    exact .absent hcreated hpool hidle hout hle

/-- `CreatePool` on a created pool: only a call that succeeds while nothing is handed out keeps
the invariant. -/
theorem exact_createPool_created {n : UInt32} {b d : String} {t a : Bool} {alloc : Alloc}
    (h : Full s) (hcreated : s.pool.isCreated = true) :
    Exact s (.createPool n b d t a alloc) := by
  obtain ⟨elems, hpool, hlen⟩ := h.alloc_of_created hcreated
  by_cases haccepted : sizeAccepted n.toNat
  case neg =>
    apply Exact.of_lost
    · rw [exec_createPool_rejected haccepted]
      intro hlost
      -- the array still has its old size, which the test accepts
      obtain ⟨elems', hpool', hlen'⟩ := hlost.created.mp hcreated
      obtain rfl : elems = elems' := PoolArray.allocated.inj (hpool.symm.trans hpool')
      rw [hlen'] at hlen
      exact haccepted hlen
    · intro hkeeps
      exact haccepted (hkeeps hcreated).1
  cases alloc with
  | badAlloc what =>
      apply Exact.of_lost
      · rw [exec_createPool_badAlloc haccepted]
        intro hlost
        obtain ⟨elems', hpool', -⟩ := hlost.created.mp hcreated
        simp [hpool, PoolArray.release] at hpool'
      · intro hkeeps
        cases (hkeeps hcreated).2.1
  | ok =>
      by_cases hused : s.pool.nUsedPoolItemCnt = 0
      · exact .of_full (exec_createPool_ok haccepted)
          (full_createPool (h.idle_of_used hused) haccepted) fun _ => ⟨haccepted, rfl, hused⟩
      · apply Exact.of_lost
        · rw [exec_createPool_ok haccepted]
          intro hlost
          have hguard : ¬ wrap32 ((n.toNat / 8 + 1) * 8) > maxBitsetSize :=
            Nat.not_lt_of_le haccepted
          have hcount := hlost.used
          simp only [ProducerPool.createPool, hguard, if_false, Finset.card_empty] at hcount
          exact hused hcount
        · intro hkeeps
          exact hused (hkeeps hcreated).2.2

/-- `DestroyPool` keeps the invariant exactly where there is no array to delete. -/
theorem exact_destroyPool (h : Full s) : Exact s .destroyPool := by
  cases hcreated : s.pool.isCreated with
  | false =>
      cases h with
      | absent hc hpool hidle hout hsize =>
          have hexec : s.exec .destroyPool = some ⟨{ s.pool with
              pool := .null
              nPoolSize := 0
              nPoolCursor := 0
              nUsedPoolItemCnt := 0
              bits := fun _ => false }, ∅⟩ := by
            simp [PoolLife.exec, ProducerPool.destroyPool, hpool]
          exact .of_full hexec (.absent hc rfl ⟨rfl, fun _ => rfl⟩ rfl (Nat.zero_le _)) hcreated
      | slots h =>
          obtain ⟨held, hslots, -⟩ := h
          rw [hslots.created] at hcreated
          cases hcreated
      | huge hc =>
          rw [hc] at hcreated
          cases hcreated
  | true =>
      obtain ⟨elems, hpool, -⟩ := h.alloc_of_created hcreated
      apply Exact.of_lost
      · simp only [PoolLife.exec, ProducerPool.destroyPool, hpool, reduceCtorEq, if_false]
        intro hlost
        obtain ⟨elems', hpool', -⟩ := hlost.created.mp hcreated
        cases hpool'
      · intro hkeeps
        have hkeeps' : s.pool.isCreated = false := hkeeps
        rw [hcreated] at hkeeps'
        cases hkeeps'

/-! ## The operations on the items -/

/-- The cursor is no part of the invariant. -/
theorem Full.setCursor (h : Full s) (c : ℕ) :
    Full ⟨{ s.pool with nPoolCursor := c }, s.out⟩ := by
  cases h with
  | absent hcreated hpool hidle hout hsize => exact .absent hcreated hpool hidle hout hsize
  | slots h =>
      obtain ⟨held, hslots, hheld⟩ := h
      exact .slots ⟨held, slots_setCursor hslots c, hheld⟩
  | huge hcreated hpool hlen hidx hidle hout hsize haccepted hbitset =>
      exact .huge hcreated hpool hlen hidx hidle hout hsize haccepted hbitset

/-- The error text is no part of the invariant. -/
theorem Full.setError (h : Full s) (text : String) :
    Full ⟨{ s.pool with strError := text }, s.out⟩ := by
  cases h with
  | absent hcreated hpool hidle hout hsize => exact .absent hcreated hpool hidle hout hsize
  | slots h =>
      obtain ⟨held, hslots, hheld⟩ := h
      exact .slots ⟨held, { hslots with }, hheld⟩
  | huge hcreated hpool hlen hidx hidle hout hsize haccepted hbitset =>
      exact .huge hcreated hpool hlen hidx hidle hout hsize haccepted hbitset

/-- Where no bit is looked at, `CreatePoolItem` returns NULL. -/
theorem createPoolItem_of_noBits (hbitset : p.nBitSetSize = 0) (hsize : p.nPoolSize ≤ npos) :
    p.createPoolItem =
      .ok (none, { p with strError := "In CreatePoolItem(), Pool Overflow." }) := by
  unfold ProducerPool.createPoolItem
  simp [hbitset, scan, bind, Except.bind, hsize, pure, Except.pure]

/-- In an idle pool the scan of `CreatePoolItem` stops at the first bit. -/
theorem scan_of_idle (hidle : Idle p) (hbitset : p.nBitSetSize ≠ 0) :
    scan (fun i => (p.test i).map (!·)) 0 p.nBitSetSize = .ok (some 0) := by
  obtain ⟨m, hm⟩ := Nat.exists_eq_succ_of_ne_zero hbitset
  have hbit := hidle.2 0
  rw [hm]
  simp [scan, ProducerPool.test, maxBitsetSize, hbit, Except.map]

/-- `CreatePoolItem` of a pool of size zero. -/
theorem createPoolItem_of_empty (hidle : Idle p) (hsize : p.nPoolSize = 0) :
    p.createPoolItem =
      .ok (none, { p with strError := "In CreatePoolItem(), Pool Overflow." }) := by
  by_cases hbitset : p.nBitSetSize = 0
  · apply createPoolItem_of_noBits hbitset
    rw [hsize]
    exact Nat.zero_le _
  · have hscan := scan_of_idle hidle hbitset
    unfold ProducerPool.createPoolItem
    simp [hscan, bind, Except.bind, hsize, pure, Except.pure]

/-- `CreatePoolItem` of a pool without array that has a size goes through the null pointer. -/
theorem createPoolItem_of_null (hidle : Idle p) (hpool : p.pool = .null)
    (hbitset : p.nBitSetSize ≠ 0) (hsize : p.nPoolSize ≠ 0) :
    p.createPoolItem = .error .badAccess := by
  have hscan := scan_of_idle hidle hbitset
  unfold ProducerPool.createPoolItem
  simp [hscan, bind, Except.bind, hsize, hpool, PoolArray.modify]

/-- `CreatePoolItem` that returns NULL keeps the invariant. -/
theorem exact_createPoolItem_overflow (h : Full s)
    (hkeeps : KeepsConsistent (some s) (.item .createPoolItem))
    (hcreate : s.pool.createPoolItem =
      .ok (none, { s.pool with strError := "In CreatePoolItem(), Pool Overflow." })) :
    Exact s (.item .createPoolItem) := by
  have hexec : s.exec (.item .createPoolItem) =
      some ⟨{ s.pool with strError := "In CreatePoolItem(), Pool Overflow." }, s.out⟩ := by
    simp only [PoolLife.exec, ProducerPool.onItems, hcreate, PoolLife.outAfter]
  exact .of_full hexec (h.setError _) hkeeps

/-- `CreatePoolItem` loses the invariant exactly where it goes through the null pointer. -/
theorem exact_createPoolItem (h : Full s) : Exact s (.item .createPoolItem) := by
  cases h with
  | absent hcreated hpool hidle hout hsize =>
      have h : Full s := .absent hcreated hpool hidle hout hsize
      by_cases hzero : s.pool.nPoolSize = 0
      · exact exact_createPoolItem_overflow h (.inr (.inl hzero))
          (createPoolItem_of_empty hidle hzero)
      by_cases hbitset : s.pool.nBitSetSize = 0
      · exact exact_createPoolItem_overflow h (.inr (.inr hbitset))
          (createPoolItem_of_noBits hbitset hsize)
      have hnull := createPoolItem_of_null hidle hpool hbitset hzero
      apply Exact.of_lost
      · simp only [PoolLife.exec, ProducerPool.onItems, hnull, Represented, not_false_eq_true]
      · simp only [KeepsConsistent, hcreated, hzero, hbitset, or_self, Bool.false_eq_true,
          not_false_eq_true]
  | @slots n h =>
      have hcreated : s.pool.isCreated = true := by
        obtain ⟨held, hslots, -⟩ := h
        exact hslots.created
      cases hfirst : FirstFit.firstIdle n s.out with
      | none =>
          exact exact_createPoolItem_overflow (.slots h) (.inl hcreated)
            (h.createPoolItem_full hfirst)
      | some k =>
          obtain ⟨p', hcreate, h'⟩ := h.createPoolItem_idle hfirst
          have hexec : s.exec (.item .createPoolItem) = some ⟨p', insert k s.out⟩ := by
            simp only [PoolLife.exec, ProducerPool.onItems, hcreate, PoolLife.outAfter]
          exact .of_full hexec (.slots h') (.inl hcreated)
  | huge hcreated hpool hlen hidx hidle hout hsize haccepted hbitset =>
      exact exact_createPoolItem_overflow
        (.huge hcreated hpool hlen hidx hidle hout hsize haccepted hbitset) (.inl hcreated)
        (createPoolItem_of_noBits hbitset hsize)

/-- `FreePoolItem` of an element that carries the mark of an idle one changes nothing. -/
theorem freePoolItem_of_npos {elems : List Producer} (hpool : p.pool = .allocated elems)
    (hk : k < elems.length) (hidx : ∀ e ∈ elems, e.nposition = npos) (hsize : p.nPoolSize ≤ npos) :
    p.freePoolItem (some k) = .ok p := by
  have hget : p.pool.get k = .ok elems[k] :=
    get_eq_ok.mpr ⟨elems, hpool, List.getElem?_eq_getElem hk⟩
  have hnpos : elems[k].nposition = npos := hidx _ (List.getElem_mem hk)
  unfold ProducerPool.freePoolItem
  simp [hget, hnpos, bind, Except.bind, hsize, pure, Except.pure]

/-- `FreePoolItem` of NULL or of an element of the current array keeps the invariant. -/
theorem exact_freePoolItem {producer : Option ℕ} (h : Full s)
    (hcurrent : OnCurrent (some s) (.item (.freePoolItem producer))) :
    Exact s (.item (.freePoolItem producer)) := by
  cases producer with
  | none => exact .of_full rfl h trivial
  | some k =>
      obtain ⟨elems, hpool, hk⟩ := hcurrent
      cases h with
      | absent hcreated hnull hidle hout hsize =>
          rw [hnull] at hpool
          cases hpool
      | @slots n h =>
          have hlen : elems.length = n := by
            obtain ⟨held, hslots, -⟩ := h
            obtain ⟨elems', hpool', hlen, -⟩ := hslots.alloc
            obtain rfl := PoolArray.allocated.inj (hpool.symm.trans hpool')
            exact hlen
          by_cases hout : k ∈ s.out
          · obtain ⟨p', hfree, h'⟩ := h.freePoolItem_used hout
            have hexec : s.exec (.item (.freePoolItem (some k))) = some ⟨p', s.out.erase k⟩ := by
              simp only [PoolLife.exec, ProducerPool.onItems, hfree, Except.map, PoolLife.outAfter]
            exact .of_full hexec (.slots h') trivial
          · have hfree := h.freePoolItem_idle (hlen ▸ hk) hout
            have hexec : s.exec (.item (.freePoolItem (some k))) = some s := by
              simp only [PoolLife.exec, ProducerPool.onItems, hfree, Except.map, PoolLife.outAfter,
                Finset.erase_eq_of_notMem hout]
            exact .of_full hexec (.slots h) trivial
      | huge hcreated hpool' hlen hidx hidle hout hsize haccepted hbitset =>
          obtain rfl := PoolArray.allocated.inj (hpool.symm.trans hpool')
          have hfree := freePoolItem_of_npos hpool hk hidx hsize
          have hexec : s.exec (.item (.freePoolItem (some k))) = some s := by
            have herase : s.out.erase k = s.out := by
              rw [hout]
              rfl
            simp only [PoolLife.exec, ProducerPool.onItems, hfree, Except.map, PoolLife.outAfter,
              herase]
          exact .of_full hexec
            (.huge hcreated hpool hlen hidx hidle hout hsize haccepted hbitset) trivial

/-- `GetNextPoolItem` of an idle pool finds nothing, or throws `std::out_of_range` where a failed
`CreatePool` has left a size of the bitset behind that is too large. -/
theorem getNextPoolItem_of_idle (hidle : Idle p) (hsize : p.nPoolSize ≤ npos) :
    p.getNextPoolItem = .ok (none, { p with nPoolCursor := 0 }) ∨
      p.getNextPoolItem = .error .outOfRange := by
  have htest : ∀ j, p.test j = .ok false ∨ p.test j = .error .outOfRange := by
    intro j
    unfold ProducerPool.test
    split
    · rw [hidle.2 j]
      exact .inl rfl
    · exact .inr rfl
  unfold ProducerPool.getNextPoolItem
  rcases scan_of_false (p.nBitSetSize - p.nPoolCursor) p.nPoolCursor htest with hscan | hscan
  · left
    simp [hscan, bind, Except.bind, hsize, pure, Except.pure]
  · right
    simp [hscan, bind, Except.bind]

/-- `GetNextPoolItem` keeps the invariant. -/
theorem exact_getNextPoolItem (h : Full s) : Exact s (.item .getNextPoolItem) := by
  have hidleCase : Idle s.pool → s.pool.nPoolSize ≤ npos → Exact s (.item .getNextPoolItem) := by
    intro hidle hsize
    rcases getNextPoolItem_of_idle hidle hsize with hnext | hnext
    · have hexec : s.exec (.item .getNextPoolItem) =
          some ⟨{ s.pool with nPoolCursor := 0 }, s.out⟩ := by
        simp only [PoolLife.exec, ProducerPool.onItems, hnext, PoolLife.outAfter]
      exact .of_full hexec (h.setCursor 0) trivial
    · have hexec : s.exec (.item .getNextPoolItem) = some s := by
        simp only [PoolLife.exec, ProducerPool.onItems, hnext]
      exact .of_full hexec h trivial
  cases h with
  | absent hcreated hpool hidle hout hsize => exact hidleCase hidle hsize
  | slots h =>
      obtain ⟨r, p', hnext, h'⟩ := h.getNextPoolItem
      have hexec : s.exec (.item .getNextPoolItem) = some ⟨p', s.out⟩ := by
        simp only [PoolLife.exec, ProducerPool.onItems, hnext, PoolLife.outAfter]
      exact .of_full hexec (.slots h') trivial
  | huge hcreated hpool hlen hidx hidle hout hsize haccepted hbitset => exact hidleCase hidle hsize

/-! ## Whole runs -/

/-- **One operation** on a pool with the full invariant. -/
theorem exact_exec {op : LifeOp} (h : Full s) (hcurrent : OnCurrent (some s) op) :
    Exact s op := by
  cases op with
  | createPool n b d t a alloc =>
      cases hcreated : s.pool.isCreated with
      | true => exact exact_createPool_created h hcreated
      | false =>
          cases h with
          | absent hc hpool hidle hout hsize => exact exact_createPool_absent hc hpool hidle hout
          | slots h =>
              obtain ⟨held, hslots, -⟩ := h
              rw [hslots.created] at hcreated
              cases hcreated
          | huge hc =>
              rw [hc] at hcreated
              cases hcreated
  | destroyPool => exact exact_destroyPool h
  | item op =>
      cases op with
      | createPoolItem => exact exact_createPoolItem h
      | freePoolItem producer => exact exact_freePoolItem h hcurrent
      | initPoolItemCursor => exact .of_full rfl (h.setCursor 0) trivial
      | getNextPoolItem => exact exact_getNextPoolItem h

/-- A condition on the steps of a life, one operation at a time. -/
theorem meets_life_cons {P : Option PoolLife → LifeOp → Prop} {s : Option PoolLife} {op : LifeOp}
    {ops : List LifeOp} : PoolLife.machine.Meets P s (op :: ops) ↔
      P s op ∧ PoolLife.machine.Meets P (s.bind fun s => s.exec op) ops :=
  Machine.meets_cons_iff rfl

theorem full_new : Full .new :=
  .absent rfl rfl ⟨rfl, fun _ => rfl⟩ rfl (Nat.zero_le _)

/-- **When the representation invariant survives.**  In every sequence of public operations on a
new pool in which only elements of the current array are given back, the invariant holds in every
state exactly when every operation keeps to `KeepsConsistent`: a created pool is neither destroyed
nor created again by a call that fails or while elements are handed out, and no item is asked for
on a pool that is not created after a `CreatePool` that failed with a size other than zero. -/
theorem pool_consistent_iff {ops : List LifeOp}
    (hcurrent : PoolLife.machine.Meets OnCurrent (some .new) ops) :
    PoolLife.machine.Always Represented (some .new) ops ↔
      PoolLife.machine.Meets KeepsConsistent (some .new) ops := by
  obtain ⟨s', hrun⟩ := PoolLife.machine.exists_run (fun s op => ⟨_, rfl⟩) (some .new) ops
  have hnew : FullState (some .new) := full_new
  refine Machine.always_iff_meets_of_full ?_ ?_ hnew hcurrent hrun
  · intro s h
    cases s with
    | none => exact h
    | some s => exact Full.consistent h
  · intro s op t h hop hstep
    cases s with
    | none => exact h.elim
    | some s =>
        have hexact := exact_exec h hop
        have ht : s.exec op = t := Option.some.inj hstep
        unfold Exact at hexact
        rw [ht] at hexact
        exact hexact

/-- A pool of two that is created, used, and created again once everything has been given back. -/
def usedAndRecreated : List LifeOp :=
  [.createPool 2 "broker" "orders" false true .ok, .item .createPoolItem,
    .item (.freePoolItem (some 0)), .createPool 1 "broker" "orders" false true .ok,
    .item .createPoolItem, .item .getNextPoolItem]

theorem pool_consistent_used_and_recreated :
    PoolLife.machine.Always Represented (some .new) usedAndRecreated := by
  apply (pool_consistent_iff _).mpr
  · simp only [usedAndRecreated, meets_life_cons, KeepsConsistent]
    refine ⟨?_, .inl rfl, trivial, ?_, .inl rfl, trivial, trivial⟩
    · intro h
      cases h
    · intro _
      exact ⟨sizeAccepted_of_lt (by decide), rfl, rfl⟩
  · simp only [usedAndRecreated, meets_life_cons, OnCurrent]
    exact ⟨trivial, trivial, ⟨_, rfl, by decide⟩, trivial, trivial, trivial, trivial⟩

/-- **The invariant does not survive every life**: after `CreatePool(1)` and `DestroyPool` the pool
still says that it is created, and there is no array. -/
theorem destroyed_pool_not_consistent :
    ¬ ∀ ops : List LifeOp, PoolLife.machine.Meets OnCurrent (some .new) ops →
      PoolLife.machine.Always Represented (some .new) ops := by
  intro hall
  have hcurrent : PoolLife.machine.Meets OnCurrent (some .new)
      [.createPool 1 "broker" "orders" false true .ok, .destroyPool] := by
    simp only [meets_life_cons]
    exact ⟨trivial, trivial, trivial⟩
  have h := hall _ hcurrent
  have hlost : Consistent ⟨{ (ProducerPool.new.createPool 1 "broker" "orders" false true .ok).2 with
      pool := .null
      nPoolSize := 0 }, ∅⟩ := (h.2 _ rfl).2 _ rfl
  obtain ⟨elems, hpool, -⟩ := hlost.created.mp rfl
  cases hpool

end DsAmq.Analysis
