import DsAmq.Analysis.PoolLifeCycle

/-!
# The bounds of the array and of the bitset

`CreatePool` writes `m_nPoolSize` and `m_nBitSetSize`, up to which the scans run, before it knows
whether it will succeed.  `Sound p` says that the scans of `p` stay inside the array and the bitset:
this is so after a `CreatePool` that returned true, not after one that returned false, and after one
that threw only for sizes that leave nothing to scan.  `pool_bounds` says that items may be asked
for and swept over while the pool is sound, and that otherwise some operations on its items leave
the bounds.
-/

set_option autoImplicit false

namespace DsAmq.Analysis

open DsAmq.Model DsAmq.Library

/-- The number of elements that are allocated. -/
def arrayLength : PoolArray → ℕ
  | .allocated elems => elems.length
  | _ => 0

/-- The bits up to `m_nBitSetSize` are in the bitset, and the positions up to `m_nPoolSize` that
have one of these bits are in the array. -/
structure Sound (p : ProducerPool) : Prop where
  bitset : p.nBitSetSize ≤ maxBitsetSize
  array : ∀ i, i < p.nPoolSize → i < p.nBitSetSize → i < arrayLength p.pool

/-- Items are asked for and swept over only while the pool is sound. -/
def SoundItems : Option PoolLife → LifeOp → Prop
  | some s, .item .createPoolItem => Sound s.pool
  | some s, .item .getNextPoolItem => Sound s.pool
  | _, _ => True

/-- The operation stays inside the array and the bitset: no operation on the items goes through a
bad pointer or throws `std::out_of_range`, and neither does the loop of `CreatePool`. -/
def InBounds : Option PoolLife → LifeOp → Prop
  | some s, .item op => ∀ e, s.pool.onItems op ≠ .error e
  | some _, .createPool n b d t a _ =>
      ∀ e, (PoolArray.allocated (List.replicate n.toNat .new)).setURIInfos n.toNat b d t a ≠
        .error e
  | _, _ => True

/-- What holds of every pool that the operations lead to: the positions that the elements carry, and
the bits that are set, are inside the bitset; and a size of the bitset that is too large was left by
a call for even more elements, unless `DestroyPool` has cleared the rest. -/
structure Marked (p : ProducerPool) : Prop where
  size : p.nPoolSize ≤ npos
  index : ∀ elems, p.pool = .allocated elems → ∀ e ∈ elems,
    e.nposition = npos ∨ e.nposition < maxBitsetSize
  bits : ∀ i, p.bits i = true → i < maxBitsetSize
  rejected : maxBitsetSize < p.nBitSetSize →
    maxBitsetSize ≤ p.nPoolSize ∨ p.nPoolSize = 0 ∧ ∀ i, p.bits i = false

variable {p p' : ProducerPool} {s : PoolLife} {k : ℕ} {r : Option ℕ}

/-! ## The array -/

theorem get_of_lt {a : PoolArray} (h : k < arrayLength a) : ∃ e, a.get k = .ok e := by
  cases a with
  | null => exact absurd h (Nat.not_lt_zero k)
  | freed => exact absurd h (Nat.not_lt_zero k)
  | allocated elems =>
      have hk : k < elems.length := h
      exact ⟨elems[k], get_eq_ok.mpr ⟨elems, rfl, List.getElem?_eq_getElem hk⟩⟩

theorem get_of_le {a : PoolArray} (h : arrayLength a ≤ k) : a.get k = .error .badAccess := by
  cases a with
  | null => rfl
  | freed => rfl
  | allocated elems =>
      have hk : elems[k]? = none := List.getElem?_eq_none h
      simp only [PoolArray.get, hk]

theorem modify_of_lt {a : PoolArray} (f : Producer → Producer) (h : k < arrayLength a) :
    ∃ a', a.modify k f = .ok a' ∧ arrayLength a' = arrayLength a := by
  cases a with
  | null => exact absurd h (Nat.not_lt_zero k)
  | freed => exact absurd h (Nat.not_lt_zero k)
  | allocated elems =>
      have hk : k < elems.length := h
      refine ⟨_, modify_eq_ok.mpr ⟨elems, elems[k], rfl, List.getElem?_eq_getElem hk, rfl⟩, ?_⟩
      exact List.length_set

theorem modify_of_le {a : PoolArray} (f : Producer → Producer) (h : arrayLength a ≤ k) :
    a.modify k f = .error .badAccess := by
  cases a with
  | null => rfl
  | freed => rfl
  | allocated elems =>
      have hk : elems[k]? = none := List.getElem?_eq_none h
      simp only [PoolArray.modify, hk]

/-- The loop of `CreatePool` stays inside the array it has just allocated, and makes what the model
of `CreatePool` says. -/
theorem setURIInfos_replicate (e : Producer) (n : ℕ) (b d : String) (t a : Bool) :
    (PoolArray.allocated (List.replicate n e)).setURIInfos n b d t a =
      .ok (.allocated (List.replicate n (e.setURIInfo b d t a))) := by
  -- after `m` rounds the first `m` elements are configured
  suffices h : ∀ m ≤ n, (List.range m).foldlM
      (fun a' i => PoolArray.modify a' i (·.setURIInfo b d t a))
      (PoolArray.allocated (List.replicate n e)) =
      .ok (.allocated (List.replicate m (e.setURIInfo b d t a) ++ List.replicate (n - m) e)) by
    have hall := h n (Nat.le_refl n)
    rw [Nat.sub_self, List.replicate_zero, List.append_nil] at hall
    exact hall
  intro m hm
  induction m with
  | zero => simp [pure, Except.pure]
  | succ m ih =>
      have hm' : m ≤ n := by omega
      rw [List.range_succ, List.foldlM_append, ih hm']
      have hrest : List.replicate (n - m) e = e :: List.replicate (n - (m + 1)) e := by
        rw [← List.replicate_succ]
        congr 1
        omega
      have hget : (List.replicate m (e.setURIInfo b d t a) ++ List.replicate (n - m) e)[m]? =
          some e := by
        rw [hrest]
        simp
      have hset : (List.replicate m (e.setURIInfo b d t a) ++ List.replicate (n - m) e).set m
          (e.setURIInfo b d t a) =
          List.replicate (m + 1) (e.setURIInfo b d t a) ++ List.replicate (n - (m + 1)) e := by
        rw [hrest, List.replicate_succ']
        simp
      have hround : (PoolArray.allocated (List.replicate m (e.setURIInfo b d t a) ++
          List.replicate (n - m) e)).modify m (·.setURIInfo b d t a) =
          .ok (.allocated (List.replicate (m + 1) (e.setURIInfo b d t a) ++
            List.replicate (n - (m + 1)) e)) :=
        modify_eq_ok.mpr ⟨_, e, rfl, hget, by rw [hset]⟩
      simp only [bind, Except.bind, List.foldlM_cons, List.foldlM_nil, hround, pure, Except.pure]

/-! ## The operations on the items, in any pool -/

theorem test_eq_ok {b : Bool} : p.test k = .ok b ↔ k < maxBitsetSize ∧ p.bits k = b := by
  unfold ProducerPool.test
  split <;> simp_all

/-- The test of `CreatePoolItem`. -/
theorem map_test_eq_ok (h : k < maxBitsetSize) : (p.test k).map (!·) = .ok (!p.bits k) := by
  rw [test_eq_ok.mpr ⟨h, rfl⟩]
  rfl

theorem test_eq_error {e : Fault} :
    p.test k = .error e ↔ maxBitsetSize ≤ k ∧ e = .outOfRange := by
  unfold ProducerPool.test
  split
  · simp only [reduceCtorEq, false_iff]
    omega
  · simp only [Except.error.injEq, eq_comm]
    constructor
    · intro h
      exact ⟨by omega, h⟩
    · intro h
      exact h.2

/-- `CreatePoolItem` that finds a position outside the array. -/
theorem createPoolItem_outside
    (hscan : scan (fun i => (p.test i).map (!·)) 0 p.nBitSetSize = .ok (some k))
    (hsize : k < p.nPoolSize) (hout : arrayLength p.pool ≤ k) :
    p.createPoolItem = .error .badAccess := by
  unfold ProducerPool.createPoolItem
  have hnot : ¬ p.nPoolSize ≤ k := by omega
  simp [hscan, bind, Except.bind, hnot, modify_of_le _ hout]

/-- `CreatePoolItem` that finds a position inside the array hands the element out. -/
theorem createPoolItem_inside
    (hscan : scan (fun i => (p.test i).map (!·)) 0 p.nBitSetSize = .ok (some k))
    (hsize : k < p.nPoolSize) (hin : k < arrayLength p.pool) (hbit : k < maxBitsetSize) :
    ∃ a, arrayLength a = arrayLength p.pool ∧
      p.createPoolItem = .ok (some k, { p with
        pool := a
        bits := fun j => if j = k then true else p.bits j
        nUsedPoolItemCnt := wrap32 (p.nUsedPoolItemCnt + 1) }) := by
  obtain ⟨a, hmodify, hlength⟩ := modify_of_lt (·.setIndex k) hin
  refine ⟨a, hlength, ?_⟩
  unfold ProducerPool.createPoolItem
  have hnot : ¬ p.nPoolSize ≤ k := by omega
  simp [hscan, bind, Except.bind, hnot, hmodify, ProducerPool.setBit, hbit, pure, Except.pure]

/-- `GetNextPoolItem` that finds a position below `m_nPoolSize`. -/
theorem getNextPoolItem_of_scan
    (hscan : scan p.test p.nPoolCursor (p.nBitSetSize - p.nPoolCursor) = .ok (some k))
    (hsize : k < p.nPoolSize) :
    (k < arrayLength p.pool →
        p.getNextPoolItem = .ok (some k, { p with nPoolCursor := wrap32 (k + 1) })) ∧
      (arrayLength p.pool ≤ k → p.getNextPoolItem = .error .badAccess) := by
  have hnot : ¬ p.nPoolSize ≤ k := by omega
  constructor
  · intro hin
    obtain ⟨e, hget⟩ := get_of_lt hin
    unfold ProducerPool.getNextPoolItem
    simp [hscan, bind, Except.bind, hnot, hget, pure, Except.pure]
  · intro hout
    unfold ProducerPool.getNextPoolItem
    simp [hscan, bind, Except.bind, hnot, get_of_le hout]

/-- `GetNextPoolItem` changes nothing but the cursor. -/
theorem getNextPoolItem_eq_ok (h : p.getNextPoolItem = .ok (r, p')) :
    ∃ c, p' = { p with nPoolCursor := c } := by
  unfold ProducerPool.getNextPoolItem at h
  simp only [bind, Except.bind, pure, Except.pure] at h
  split at h
  · cases h
  · split at h
    · cases h
      exact ⟨_, rfl⟩
    · split at h
      · cases h
      · cases h
        exact ⟨_, rfl⟩

/-- The scans of the two pools have the same bounds. -/
structure SameBounds (p p' : ProducerPool) : Prop where
  size : p'.nPoolSize = p.nPoolSize
  bitset : p'.nBitSetSize = p.nBitSetSize
  array : arrayLength p'.pool = arrayLength p.pool

theorem arrayLength_modify {a a' : PoolArray} {f : Producer → Producer}
    (h : a.modify k f = .ok a') : arrayLength a' = arrayLength a := by
  obtain ⟨elems, e, rfl, -, rfl⟩ := modify_eq_ok.mp h
  exact List.length_set

theorem freePoolItem_of_onItems {producer : Option ℕ}
    (h : p.onItems (.freePoolItem producer) = .ok (r, p')) : p.freePoolItem producer = .ok p' := by
  simp only [ProducerPool.onItems] at h
  cases hfree : p.freePoolItem producer with
  | error e =>
      rw [hfree] at h
      cases h
  | ok q =>
      rw [hfree] at h
      cases h
      rfl

/-- No operation on the items changes the bounds. -/
theorem onItems_sameBounds {op : ItemOp} (h : p.onItems op = .ok (r, p')) : SameBounds p p' := by
  cases op with
  | createPoolItem =>
      rcases createPoolItem_eq_ok h with ⟨-, rfl⟩ | ⟨k, a, -, -, hmodify, rfl⟩
      · exact ⟨rfl, rfl, rfl⟩
      · exact ⟨rfl, rfl, arrayLength_modify hmodify⟩
  | freePoolItem producer =>
      cases producer with
      | none =>
          cases h
          exact ⟨rfl, rfl, rfl⟩
      | some k =>
          rcases freePoolItem_eq_ok (freePoolItem_of_onItems h) with
            rfl | ⟨i, a, u, hmodify, rfl⟩
          · exact ⟨rfl, rfl, rfl⟩
          · exact ⟨rfl, rfl, arrayLength_modify hmodify⟩
  | initPoolItemCursor =>
      cases h
      exact ⟨rfl, rfl, rfl⟩
  | getNextPoolItem =>
      obtain ⟨c, rfl⟩ := getNextPoolItem_eq_ok h
      exact ⟨rfl, rfl, rfl⟩

theorem Sound.of_same (h : Sound p) (hsame : SameBounds p p') : Sound p' := by
  constructor
  · rw [hsame.bitset]
    exact h.bitset
  · rw [hsame.size, hsame.bitset, hsame.array]
    exact h.array

/-! ## A sound pool -/

/-- A scan that ends inside the bitset does not throw. -/
theorem scan_ne_error {n i : ℕ} {f : Bool → Bool} {e : Fault} (h : i + n ≤ maxBitsetSize) :
    scan (fun j => (p.test j).map f) i n ≠ .error e := by
  intro hscan
  obtain ⟨j, -, hj, htest⟩ := of_scan_eq_error hscan
  have hok : p.test j = .ok (p.bits j) := test_eq_ok.mpr ⟨by omega, rfl⟩
  rw [hok] at htest
  cases htest

theorem Sound.createPoolItem (h : Sound p) (hsize : p.nPoolSize ≤ npos) :
    ∃ r p', p.createPoolItem = .ok (r, p') := by
  cases hscan : scan (fun i => (p.test i).map (!·)) 0 p.nBitSetSize with
  | error e =>
      have hbound := h.bitset
      exact absurd hscan (scan_ne_error (by omega))
  | ok found =>
      by_cases hover : p.nPoolSize ≤ found.getD npos
      · refine ⟨none, { p with strError := "In CreatePoolItem(), Pool Overflow." }, ?_⟩
        unfold ProducerPool.createPoolItem
        simp [hscan, bind, Except.bind, hover, pure, Except.pure]
      · cases found with
        | none => exact absurd hsize hover
        | some k =>
            have hk : k < p.nPoolSize := Nat.lt_of_not_le hover
            have hbits := (of_scan_eq_some hscan).2.1
            have hbound := h.bitset
            obtain ⟨a, -, hcreate⟩ := createPoolItem_inside hscan hk (h.array k hk (by omega))
              (by omega)
            exact ⟨some k, _, hcreate⟩

theorem Sound.getNextPoolItem (h : Sound p) (hsize : p.nPoolSize ≤ npos) :
    ∃ r p', p.getNextPoolItem = .ok (r, p') := by
  cases hscan : scan p.test p.nPoolCursor (p.nBitSetSize - p.nPoolCursor) with
  | error e =>
      obtain ⟨j, hle, hlt, htest⟩ := of_scan_eq_error hscan
      have hj := (test_eq_error.mp htest).1
      have hbound := h.bitset
      omega
  | ok found =>
      by_cases hover : p.nPoolSize ≤ found.getD npos
      · refine ⟨none, { p with nPoolCursor := 0 }, ?_⟩
        unfold ProducerPool.getNextPoolItem
        simp [hscan, bind, Except.bind, hover, pure, Except.pure]
      · cases found with
        | none => exact absurd hsize hover
        | some k =>
            have hk : k < p.nPoolSize := Nat.lt_of_not_le hover
            obtain ⟨hle, hlt, -⟩ := of_scan_eq_some hscan
            have hin := h.array k hk (by omega)
            exact ⟨some k, _, (getNextPoolItem_of_scan hscan hk).1 hin⟩

/-- An element that is given back carries a position inside the bitset, or the mark of an idle
one. -/
theorem Marked.freePoolItem (h : Marked p) (hk : k < arrayLength p.pool) :
    ∃ p', p.freePoolItem (some k) = .ok p' := by
  obtain ⟨e, hget⟩ := get_of_lt hk
  obtain ⟨elems, hpool, helem⟩ := get_eq_ok.mp hget
  by_cases hover : p.nPoolSize ≤ e.nposition
  · refine ⟨p, ?_⟩
    unfold ProducerPool.freePoolItem
    simp [hget, bind, Except.bind, hover, pure, Except.pure]
  · have hbit : e.nposition < maxBitsetSize := by
      have hsize := h.size
      rcases h.index elems hpool e (List.mem_of_getElem? helem) with hidle | hbit
      · rw [hidle] at hover
        exact absurd hsize hover
      · exact hbit
    obtain ⟨a, hmodify, -⟩ := modify_of_lt (·.setIndex npos) hk
    unfold ProducerPool.freePoolItem
    simp only [hget, bind, Except.bind, hover, if_false, hmodify, ProducerPool.setBit, hbit,
      if_true, pure, Except.pure]
    split
    · exact ⟨_, rfl⟩
    · exact ⟨_, rfl⟩

/-! ## What holds of every pool -/

theorem marked_new : Marked .new := by
  refine ⟨Nat.zero_le _, ?_, ?_, ?_⟩
  · intro elems hpool
    cases hpool
  · intro i hi
    cases hi
  · intro hlarge
    exact absurd hlarge (Nat.not_lt_zero _)

/-- A size that the guard rejects is larger than every bit. -/
theorem le_of_rejected {n : ℕ} (h : maxBitsetSize < wrap32 ((n / 8 + 1) * 8)) :
    maxBitsetSize ≤ n := by
  unfold wrap32 maxBitsetSize at *
  omega

theorem Marked.createPool (h : Marked p) (n : UInt32) (b d : String) (t a : Bool) (alloc : Alloc) :
    Marked (p.createPool n b d t a alloc).2 := by
  have hn := toNat_le_npos n
  unfold ProducerPool.createPool
  dsimp only
  split
  · exact ⟨hn, h.index, h.bits, fun hlarge => .inl (le_of_rejected hlarge)⟩
  · rename_i hguard
    have hrejected : maxBitsetSize < wrap32 ((n.toNat / 8 + 1) * 8) →
        maxBitsetSize ≤ n.toNat ∨ n.toNat = 0 ∧ ∀ i, p.bits i = false :=
      fun hlarge => absurd hlarge hguard
    cases alloc with
    | badAlloc what =>
        refine ⟨hn, ?_, h.bits, hrejected⟩
        intro elems hpool
        exfalso
        revert hpool
        show p.pool.release = .allocated elems → False
        cases p.pool <;> simp [PoolArray.release]
    | ok =>
        refine ⟨hn, ?_, h.bits, hrejected⟩
        intro elems hpool e he
        cases hpool
        rw [List.eq_of_mem_replicate he]
        exact .inl rfl

/-- Writing a position to an element of the array. -/
theorem index_modify {a a' : PoolArray} {m : ℕ} (hm : m = npos ∨ m < maxBitsetSize)
    (h : ∀ elems, a = .allocated elems → ∀ e ∈ elems,
      e.nposition = npos ∨ e.nposition < maxBitsetSize)
    (hmodify : a.modify k (·.setIndex m) = .ok a') :
    ∀ elems, a' = .allocated elems → ∀ e ∈ elems,
      e.nposition = npos ∨ e.nposition < maxBitsetSize := by
  obtain ⟨elems, e, rfl, he, rfl⟩ := modify_eq_ok.mp hmodify
  intro elems' heq x hx
  rw [PoolArray.allocated.injEq] at heq
  subst heq
  rcases List.mem_or_eq_of_mem_set hx with hx | rfl
  · exact h elems rfl x hx
  · have hlt : m < 2 ^ 32 := by
      unfold npos maxBitsetSize at hm
      omega
    rw [nposition_setIndex e hlt]
    exact hm

theorem Marked.createPoolItem (h : Marked p) (hcreate : p.createPoolItem = .ok (r, p')) :
    Marked p' := by
  rcases createPoolItem_eq_ok hcreate with ⟨-, rfl⟩ | ⟨k, a, -, ⟨hk, hbit⟩, hmodify, rfl⟩
  · exact ⟨h.size, h.index, h.bits, h.rejected⟩
  · refine ⟨h.size, index_modify (.inr hbit) h.index hmodify, ?_, ?_⟩
    · intro i hi
      by_cases hik : i = k
      · rw [hik]
        exact hbit
      · simp only [hik, if_false] at hi
        exact h.bits i hi
    · intro hlarge
      rcases h.rejected hlarge with hsize | ⟨hzero, -⟩
      · exact .inl hsize
      · rw [hzero] at hk
        exact absurd hk (Nat.not_lt_zero k)

theorem Marked.afterFreePoolItem (h : Marked p) (hfree : p.freePoolItem (some k) = .ok p') :
    Marked p' := by
  rcases freePoolItem_eq_ok hfree with rfl | ⟨i, a, u, hmodify, rfl⟩
  · exact h
  · have hbits : ∀ j, (if j = i then false else p.bits j) = true → p.bits j = true := by
      intro j hj
      split at hj
      · cases hj
      · exact hj
    refine ⟨h.size, index_modify (.inl rfl) h.index hmodify, ?_, ?_⟩
    · intro j hj
      exact h.bits j (hbits j hj)
    · intro hlarge
      rcases h.rejected hlarge with hsize | ⟨hzero, hclear⟩
      · exact .inl hsize
      · refine .inr ⟨hzero, ?_⟩
        intro j
        show (if j = i then false else p.bits j) = false
        rw [hclear j, ite_self]

theorem Marked.onItems (h : Marked p) {op : ItemOp} (hop : p.onItems op = .ok (r, p')) :
    Marked p' := by
  cases op with
  | createPoolItem => exact h.createPoolItem hop
  | freePoolItem producer =>
      cases producer with
      | none =>
          cases hop
          exact h
      | some k => exact h.afterFreePoolItem (freePoolItem_of_onItems hop)
  | initPoolItemCursor =>
      cases hop
      exact ⟨h.size, h.index, h.bits, h.rejected⟩
  | getNextPoolItem =>
      obtain ⟨c, rfl⟩ := getNextPoolItem_eq_ok hop
      exact ⟨h.size, h.index, h.bits, h.rejected⟩

/-- The marks, as long as no operation has gone through a bad pointer. -/
def MarkedState : Option PoolLife → Prop
  | some s => Marked s.pool
  | none => True

/-- **One operation** keeps the marks. -/
theorem marked_exec (h : Marked s.pool) (op : LifeOp) : MarkedState (s.exec op) := by
  cases op with
  | createPool n b d t a alloc =>
      have hcreate := h.createPool n b d t a alloc
      unfold PoolLife.exec
      dsimp only
      split
      · exact hcreate
      · exact hcreate
  | destroyPool =>
      simp only [PoolLife.exec, ProducerPool.destroyPool]
      split
      · rename_i p' hdestroy
        split at hdestroy
        · cases hdestroy
        · cases hdestroy
          refine ⟨Nat.zero_le _, ?_, ?_, fun _ => .inr ⟨rfl, fun _ => rfl⟩⟩
          · intro elems hpool
            cases hpool
          · intro i hi
            cases hi
      · trivial
  | item op =>
      simp only [PoolLife.exec]
      split
      · rename_i hop
        exact h.onItems hop
      · exact h
      · trivial

/-! ## Where a pool is sound -/

/-- `CreatePool` that returns leaves a sound pool exactly when it returns true. -/
theorem sound_createPool_of_returned {n : UInt32} {b d : String} {t a ret : Bool} {alloc : Alloc}
    (h : (p.createPool n b d t a alloc).1 = .returned ret) :
    Sound (p.createPool n b d t a alloc).2 ↔ ret = true := by
  unfold ProducerPool.createPool at h ⊢
  dsimp only at h ⊢
  split at h
  · rename_i hguard
    cases h
    simp only [hguard, if_true, Bool.false_eq_true, iff_false]
    intro hsound
    exact absurd hsound.bitset (Nat.not_le_of_lt hguard)
  · rename_i hguard
    cases alloc with
    | badAlloc what => cases h
    | ok =>
        cases h
        simp only [hguard, if_false, iff_true]
        refine ⟨Nat.le_of_not_lt hguard, ?_⟩
        intro i hi _
        show i < (List.replicate n.toNat _).length
        rw [List.length_replicate]
        exact hi

/-- `CreatePool` that throws leaves no array: the pool is sound if the scans see no position. -/
theorem sound_createPool_of_threw {n : UInt32} {b d : String} {t a : Bool} {alloc : Alloc}
    (h : (p.createPool n b d t a alloc).1 = .threw) :
    Sound (p.createPool n b d t a alloc).2 ↔ n.toNat = 0 ∨ 2 ^ 32 - 8 ≤ n.toNat := by
  have hn := n.toNat_lt
  unfold ProducerPool.createPool at h ⊢
  dsimp only at h ⊢
  split at h
  · cases h
  · rename_i hguard
    cases alloc with
    | ok => cases h
    | badAlloc what =>
        simp only [hguard, if_false]
        have hempty : arrayLength p.pool.release = 0 := by cases p.pool <;> rfl
        constructor
        · intro hsound
          by_contra hsize
          have hzero := hsound.array 0
          simp only [hempty] at hzero
          have hwrap : 0 < wrap32 ((n.toNat / 8 + 1) * 8) := by
            unfold wrap32
            omega
          exact absurd (hzero (by omega) hwrap) (Nat.lt_irrefl 0)
        · intro hsize
          refine ⟨Nat.le_of_not_lt hguard, ?_⟩
          intro i hi hib
          have hi' : i < n.toNat := hi
          have hib' : i < wrap32 ((n.toNat / 8 + 1) * 8) := hib
          unfold wrap32 at hib'
          omega

/-- `DestroyPool` leaves `m_nBitSetSize` as it is. -/
theorem sound_destroyPool (h : p.destroyPool = .ok p') :
    Sound p' ↔ p.nBitSetSize ≤ maxBitsetSize := by
  unfold ProducerPool.destroyPool at h
  split at h
  · cases h
  · cases h
    constructor
    · intro hsound
      exact hsound.bitset
    · intro hbitset
      refine ⟨hbitset, ?_⟩
      intro i hi _
      exact absurd hi (Nat.not_lt_zero i)

/-! ## Items are safe while the pool is sound -/

/-- **One operation** in a sound pool, or one that does not scan. -/
theorem inBounds_of_sound {op : LifeOp} (h : Marked s.pool) (hcurrent : OnCurrent (some s) op)
    (hsound : SoundItems (some s) op) : InBounds (some s) op := by
  cases op with
  | createPool n b d t a alloc =>
      intro e
      rw [setURIInfos_replicate]
      simp
  | destroyPool => trivial
  | item op =>
      intro e herror
      cases op with
      | createPoolItem =>
          obtain ⟨r, p', hcreate⟩ := Sound.createPoolItem hsound h.size
          cases hcreate.symm.trans herror
      | freePoolItem producer =>
          cases producer with
          | none => cases herror
          | some k =>
              obtain ⟨elems, hpool, hk⟩ := hcurrent
              have hlt : k < arrayLength s.pool.pool := by
                rw [hpool]
                exact hk
              obtain ⟨p', hfree⟩ := h.freePoolItem hlt
              simp only [ProducerPool.onItems, hfree] at herror
              cases herror
      | initPoolItemCursor => cases herror
      | getNextPoolItem =>
          obtain ⟨r, p', hnext⟩ := Sound.getNextPoolItem hsound h.size
          cases hnext.symm.trans herror

/-- Any operations on the items of a sound pool. -/
theorem meets_inBounds_of_sound (h : Marked s.pool) (hsound : Sound s.pool) {items : List ItemOp}
    (hcurrent : PoolLife.machine.Meets OnCurrent (some s) (items.map .item)) :
    PoolLife.machine.Meets InBounds (some s) (items.map .item) := by
  induction items generalizing s with
  | nil => trivial
  | cons op items ih =>
      rw [List.map_cons, meets_life_cons] at hcurrent ⊢
      have hop : SoundItems (some s) (.item op) := by
        cases op with
        | createPoolItem => exact hsound
        | getNextPoolItem => exact hsound
        | freePoolItem producer => trivial
        | initPoolItemCursor => trivial
      have hin : InBounds (some s) (.item op) := inBounds_of_sound h hcurrent.1 hop
      refine ⟨hin, ?_⟩
      cases hexec : s.pool.onItems op with
      | error e => exact absurd hexec (hin e)
      | ok x =>
          obtain ⟨r, p'⟩ := x
          have hstep : s.exec (.item op) = some ⟨p', PoolLife.outAfter s.out op r⟩ := by
            simp only [PoolLife.exec, hexec]
          have hrest := hcurrent.2
          simp only [Option.bind_some, hstep] at hrest ⊢
          exact ih (h.onItems hexec) (hsound.of_same (onItems_sameBounds hexec)) hrest

/-! ## Otherwise some operations leave the bounds -/

/-- Some requests for items and sweeps over them leave the bounds of the pool. -/
inductive Leaves : ProducerPool → Prop
  | now {p : ProducerPool} {op : ItemOp} {e : Fault} (hfree : ∀ k, op ≠ .freePoolItem k)
      (h : p.onItems op = .error e) : Leaves p
  | later {p p' : ProducerPool} {op : ItemOp} {r : Option ℕ} (hfree : ∀ k, op ≠ .freePoolItem k)
      (h : p.onItems op = .ok (r, p')) (hp' : Leaves p') : Leaves p

theorem onCurrent_of_ne {op : ItemOp} {s : Option PoolLife} (h : ∀ k, op ≠ .freePoolItem k) :
    OnCurrent s (.item op) := by
  cases s with
  | none => trivial
  | some s =>
      cases op with
      | freePoolItem k => exact absurd rfl (h k)
      | createPoolItem => trivial
      | initPoolItemCursor => trivial
      | getNextPoolItem => trivial

theorem Leaves.exists_items (h : Leaves p) (out : Finset ℕ) :
    ∃ items : List ItemOp, PoolLife.machine.Meets OnCurrent (some ⟨p, out⟩) (items.map .item) ∧
      ¬ PoolLife.machine.Meets InBounds (some ⟨p, out⟩) (items.map .item) := by
  induction h generalizing out with
  | @now p op e hfree herror =>
      refine ⟨[op], ?_, ?_⟩
      · rw [List.map_cons, meets_life_cons]
        exact ⟨onCurrent_of_ne hfree, trivial⟩
      · intro hmeets
        exact hmeets.1 e herror
  | @later p p' op r hfree hexec hp' ih =>
      obtain ⟨items, hcurrent, hleaves⟩ := ih (PoolLife.outAfter out op r)
      have hstep : PoolLife.exec ⟨p, out⟩ (.item op) =
          some ⟨p', PoolLife.outAfter out op r⟩ := by
        simp only [PoolLife.exec, hexec]
      refine ⟨op :: items, ?_, ?_⟩
      · rw [List.map_cons, meets_life_cons, Option.bind_some, hstep]
        exact ⟨onCurrent_of_ne hfree, hcurrent⟩
      · rw [List.map_cons, meets_life_cons, Option.bind_some, hstep]
        intro hmeets
        exact hleaves hmeets.2

/-- A sweep that no scan lets past `m` comes to a position outside the array, or to a test that
throws: every scan from below `m` throws, or stops at a position up to `m`, and at `m` only if `m`
is outside the array. -/
theorem leaves_of_cursor {m : ℕ}
    (hstop : ∀ c ≤ m, (∃ e, scan p.test c (p.nBitSetSize - c) = .error e) ∨
      ∃ k, scan p.test c (p.nBitSetSize - c) = .ok (some k) ∧ k < p.nPoolSize ∧ k ≤ m ∧
        (k = m → arrayLength p.pool ≤ k))
    (hm : m < 2 ^ 32) (hle : p.nPoolCursor ≤ m) : Leaves p := by
  have hnext : ∀ k, ItemOp.getNextPoolItem ≠ .freePoolItem k := by simp
  -- every visit inside the array brings the cursor closer to `m`
  induction hn : m - p.nPoolCursor using Nat.strong_induction_on generalizing p with
  | _ n ih =>
      rcases hstop p.nPoolCursor hle with ⟨e, hscan⟩ | ⟨k, hscan, hsize, hkm, hout⟩
      · refine .now (e := e) hnext ?_
        show p.getNextPoolItem = .error e
        unfold ProducerPool.getNextPoolItem
        simp [hscan, bind, Except.bind]
      · have hck := (of_scan_eq_some hscan).1
        by_cases hin : k < arrayLength p.pool
        · have hne : k ≠ m := by
            intro heq
            have := hout heq
            omega
          have hwrap : wrap32 (k + 1) = k + 1 := Nat.mod_eq_of_lt (by omega)
          refine .later hnext ((getNextPoolItem_of_scan hscan hsize).1 hin) ?_
          rw [hwrap]
          refine ih (m - (k + 1)) (by omega) (p := { p with nPoolCursor := k + 1 }) hstop ?_ rfl
          show k + 1 ≤ m
          omega
        · exact .now hnext ((getNextPoolItem_of_scan hscan hsize).2 (by omega))

/-- Whatever the cursor is, a sweep can start afresh. -/
theorem leaves_of_stop {m : ℕ}
    (hstop : ∀ c ≤ m, (∃ e, scan p.test c (p.nBitSetSize - c) = .error e) ∨
      ∃ k, scan p.test c (p.nBitSetSize - c) = .ok (some k) ∧ k < p.nPoolSize ∧ k ≤ m ∧
        (k = m → arrayLength p.pool ≤ k))
    (hm : m < 2 ^ 32) : Leaves p := by
  have hinit : p.onItems .initPoolItemCursor = .ok (none, p.initPoolItemCursor) := rfl
  refine .later (by simp) hinit ?_
  exact leaves_of_cursor (p := p.initPoolItemCursor) hstop hm (Nat.zero_le m)

/-- With a size of the bitset that is too large, a sweep throws at the end of the bitset. -/
theorem leaves_of_bitset (h : Marked p) (hlarge : maxBitsetSize < p.nBitSetSize) : Leaves p := by
  refine leaves_of_stop (m := maxBitsetSize) ?_ (by decide)
  intro c hc
  cases hscan : scan p.test c (p.nBitSetSize - c) with
  | error e => exact .inl ⟨e, rfl⟩
  | ok found =>
      right
      cases found with
      | none =>
          have htest := of_scan_eq_none hscan maxBitsetSize hc (by omega)
          have hlt := (test_eq_ok.mp htest).1
          omega
      | some k =>
          obtain ⟨-, -, htest, -⟩ := of_scan_eq_some hscan
          obtain ⟨hk, hbit⟩ := test_eq_ok.mp htest
          refine ⟨k, rfl, ?_, by omega, fun heq => absurd heq (by omega)⟩
          rcases h.rejected hlarge with hsize | ⟨-, hclear⟩
          · omega
          · rw [hclear k] at hbit
            cases hbit

/-- A bit that is set for the first position outside the array stops a sweep there. -/
theorem leaves_of_set_bit (hsize : arrayLength p.pool < p.nPoolSize)
    (hbits : arrayLength p.pool < p.nBitSetSize) (hbit : p.bits (arrayLength p.pool) = true)
    (hmax : arrayLength p.pool < maxBitsetSize) : Leaves p := by
  refine leaves_of_stop (m := arrayLength p.pool) ?_ ?_
  · intro c hc
    have hset : p.test (arrayLength p.pool) ≠ .ok false := by
      intro htest
      rw [(test_eq_ok.mp htest).2] at hbit
      cases hbit
    cases hscan : scan p.test c (p.nBitSetSize - c) with
    | error e => exact .inl ⟨e, rfl⟩
    | ok found =>
        right
        cases found with
        | none => exact absurd (of_scan_eq_none hscan _ hc (by omega)) hset
        | some k =>
            obtain ⟨-, -, -, hbefore⟩ := of_scan_eq_some hscan
            have hk : k ≤ arrayLength p.pool := by
              by_contra hlt
              exact hset (hbefore _ hc (by omega))
            exact ⟨k, rfl, by omega, hk, fun heq => heq.ge⟩
  · unfold maxBitsetSize at hmax
    omega

/-- A bit that is clear for the first position outside the array is found when enough items have
been asked for.  The first `m` bits are set. -/
theorem leaves_of_clear_bit {l m : ℕ} (hl : arrayLength p.pool = l) (hsize : l < p.nPoolSize)
    (hbits : l < p.nBitSetSize) (hbitset : p.nBitSetSize ≤ maxBitsetSize)
    (hclear : p.bits l = false) (hset : ∀ j < m, p.bits j = true) : Leaves p := by
  have hcreate : ∀ k, ItemOp.createPoolItem ≠ .freePoolItem k := by simp
  -- every item that is handed out sets the first clear bit
  induction hn : l - m using Nat.strong_induction_on generalizing p m with
  | _ n ih =>
      cases hscan : scan (fun i => (p.test i).map (!·)) 0 p.nBitSetSize with
      | error e => exact absurd hscan (scan_ne_error (by omega))
      | ok found =>
          cases found with
          | none =>
              have hfound := of_scan_eq_none hscan l (Nat.zero_le l) (by omega)
              rw [map_test_eq_ok (by omega), hclear] at hfound
              cases hfound
          | some k =>
              obtain ⟨-, hk, hfound, hbefore⟩ := of_scan_eq_some hscan
              rw [Nat.zero_add] at hk
              have hkl : k ≤ l := by
                by_contra hlt
                have hfound := hbefore l (Nat.zero_le l) (by omega)
                rw [map_test_eq_ok (by omega), hclear] at hfound
                cases hfound
              have hmk : m ≤ k := by
                by_contra hlt
                rw [map_test_eq_ok (by omega), hset k (by omega)] at hfound
                cases hfound
              by_cases hin : k < l
              · obtain ⟨a, hlength, hok⟩ :=
                  createPoolItem_inside hscan (by omega) (hl ▸ hin) (by omega)
                have hset' : ∀ j < k + 1, (if j = k then true else p.bits j) = true := by
                  intro j hj
                  by_cases hjk : j = k
                  · rw [if_pos hjk]
                  · have hsetj := hbefore j (Nat.zero_le j) (by omega)
                    rw [map_test_eq_ok (by omega)] at hsetj
                    rw [if_neg hjk]
                    simpa using hsetj
                have hclear' : (if l = k then true else p.bits l) = false := by
                  rw [if_neg (by omega), hclear]
                refine .later hcreate hok ?_
                exact ih (l - (k + 1)) (by omega) (hlength.trans hl) hsize hbits hbitset hclear'
                  hset' rfl
              · exact .now hcreate (createPoolItem_outside hscan (by omega) (by omega))

/-- **A pool that is not sound**: some operations on its items leave the bounds. -/
theorem leaves_of_not_sound (h : Marked p) (hnot : ¬ Sound p) : Leaves p := by
  by_cases hbitset : p.nBitSetSize ≤ maxBitsetSize
  · have harray : arrayLength p.pool < p.nPoolSize ∧ arrayLength p.pool < p.nBitSetSize := by
      by_contra hsmall
      apply hnot
      refine ⟨hbitset, ?_⟩
      intro i hi hib
      omega
    cases hbit : p.bits (arrayLength p.pool) with
    | true => exact leaves_of_set_bit harray.1 harray.2 hbit (by omega)
    | false =>
        refine leaves_of_clear_bit (m := 0) rfl harray.1 harray.2 hbitset hbit ?_
        intro j hj
        omega
  · exact leaves_of_bitset h (by omega)

/-! ## Whole runs -/

/-- **When the pool operations stay inside the array and the bitset.**  In every sequence of public
operations on a new pool in which only NULL or elements of the current array are given back: if
items are asked for and swept over only while the pool is sound, then every operation stays inside
the array and the bitset.  And this condition leaves out nothing but the defect: in every state that
the operations lead to, all further operations on the items stay inside the bounds if and only if
the pool is sound. -/
theorem pool_bounds {ops : List LifeOp}
    (hcurrent : PoolLife.machine.Meets OnCurrent (some .new) ops) :
    (PoolLife.machine.Meets SoundItems (some .new) ops →
        PoolLife.machine.Meets InBounds (some .new) ops) ∧
      ∀ s, PoolLife.machine.run (some .new) ops = some (some s) →
        ((∀ items : List ItemOp,
            PoolLife.machine.Meets OnCurrent (some s) (items.map .item) →
              PoolLife.machine.Meets InBounds (some s) (items.map .item)) ↔ Sound s.pool) := by
  have hstep : ∀ s op s', MarkedState s → PoolLife.machine.step s op = some s' →
      MarkedState s' := by
    intro s op s' h hs'
    cases hs'
    cases s with
    | none => trivial
    | some s => exact marked_exec h op
  constructor
  · intro hsound
    refine Machine.meets_of_inv (I := MarkedState) (fun s op s' h _ hs' => hstep s op s' h hs') ?_
      marked_new (Machine.meets_and hcurrent hsound)
    rintro s op h ⟨hop, hopsound⟩
    cases s with
    | none => trivial
    | some s => exact inBounds_of_sound h hop hopsound
  · intro s hrun
    have hmarked : Marked s.pool :=
      Machine.run_inv (I := MarkedState) hstep (s := some .new) marked_new hrun
    constructor
    · intro hall
      by_contra hnot
      obtain ⟨items, hitems, hleaves⟩ := (leaves_of_not_sound hmarked hnot).exists_items s.out
      exact hleaves (hall items hitems)
    · intro hsound items hitems
      exact meets_inBounds_of_sound hmarked hsound hitems

/-- A pool of two is created, used, swept over and destroyed; the next `CreatePool` throws, and the
pool is destroyed again before it is swept over. -/
def destroyedAfterThrow : List LifeOp :=
  [.createPool 2 "broker" "orders" false true .ok, .item .createPoolItem, .item .getNextPoolItem,
    .item (.freePoolItem (some 0)), .destroyPool,
    .createPool 5 "broker" "orders" false true (.badAlloc "oom"), .destroyPool,
    .item .getNextPoolItem]

theorem pool_bounds_destroyed_after_throw :
    PoolLife.machine.Meets InBounds (some .new) destroyedAfterThrow := by
  have hcurrent : PoolLife.machine.Meets OnCurrent (some .new) destroyedAfterThrow := by
    simp only [destroyedAfterThrow, meets_life_cons, OnCurrent]
    exact ⟨trivial, trivial, trivial, ⟨_, rfl, by decide⟩, trivial, trivial, trivial, trivial,
      trivial⟩
  apply (pool_bounds hcurrent).1
  simp only [destroyedAfterThrow, meets_life_cons, SoundItems]
  have hcreated : Sound (ProducerPool.new.createPool 2 "broker" "orders" false true .ok).2 :=
    (sound_createPool_of_returned rfl).mpr rfl
  refine ⟨trivial, hcreated, hcreated.of_same ⟨rfl, rfl, rfl⟩, trivial, trivial, trivial, trivial,
    ⟨by decide, ?_⟩, trivial⟩
  intro i hi _
  exact absurd hi (Nat.not_lt_zero i)

/-- **The pool operations do not always stay inside the bounds**: after a `CreatePool` that returned
false, `CreatePoolItem` goes through the null pointer. -/
theorem rejected_pool_goes_through_null :
    (ProducerPool.new.createPool 600000 "broker" "orders" false true .ok).1 = .returned false ∧
      (ProducerPool.new.createPool 600000 "broker" "orders" false true .ok).2.createPoolItem =
        .error .badAccess ∧
      PoolLife.machine.Meets OnCurrent (some .new)
        [.createPool 600000 "broker" "orders" false true .ok, .item .createPoolItem] ∧
      ¬ PoolLife.machine.Meets InBounds (some .new)
        [.createPool 600000 "broker" "orders" false true .ok, .item .createPoolItem] := by
  have hnull : (ProducerPool.new.createPool 600000 "broker" "orders" false true
      .ok).2.createPoolItem = .error .badAccess := by
    apply createPoolItem_of_null
    · exact ⟨rfl, fun _ => rfl⟩
    · rfl
    · decide
    · decide
  refine ⟨rfl, hnull, ?_, ?_⟩
  · simp only [meets_life_cons, OnCurrent]
    exact ⟨trivial, trivial, trivial⟩
  · simp only [meets_life_cons]
    rintro ⟨-, hitem, -⟩
    exact hitem .badAccess hnull

end DsAmq.Analysis
