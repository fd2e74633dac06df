import DsAmq.Model.ProducerPoolMgr
import Mathlib.Data.List.Nodup
import Mathlib.Data.List.Perm.Subperm
import Mathlib.Data.Nat.Find

/-!
# The items of the producer pool

`Slots n held p` is the representation invariant of a created pool of `n` elements of which
those at the positions in `held` are handed out: the bits are those of `held`, the counter counts
them, and an element carries its position while it is handed out and `npos` while it is idle.
`Configured d a` says that every element of the array sends to `d`.

One lemma for each operation says how it moves `held`: `createPoolItem_cases`,
`freePoolItem_of_mem`, `freePoolItem_of_idle`, `getNextPoolItem_cases`, `onItem_of_slots`;
`slots_createPool` says that `CreatePool` establishes the invariant.
-/

set_option autoImplicit false

namespace DsAmq.Analysis

open DsAmq.Model

/-- The pool has been created with `n` elements, and those at the positions in `held` are handed
out. -/
structure Slots (n : ℕ) (held : List ℕ) (p : ProducerPool) : Prop where
  bound : n < maxBitsetSize
  created : p.isCreated = true
  size : p.nPoolSize = n
  bitset : p.nBitSetSize = (n / 8 + 1) * 8
  alloc : ∃ elems, p.pool = .allocated elems ∧ elems.length = n ∧
    ∀ i e, elems[i]? = some e → e.nposition = if i ∈ held then i else npos
  lt : ∀ i ∈ held, i < n
  nodup : held.Nodup
  bits : ∀ i, p.bits i = true ↔ i ∈ held
  used : p.nUsedPoolItemCnt = held.length

/-- Nothing of the pool is handed out and nothing marked. -/
def Idle (p : ProducerPool) : Prop :=
  p.nUsedPoolItemCnt = 0 ∧ ∀ i, p.bits i = false

/-- The producer sends to `d`, now and after it has created its destination. -/
def SendsTo (d : Destination) (e : Producer) : Prop :=
  e.target = d ∧ ∀ d', e.destination = some d' → d' = d

/-- Every element of the array sends to `d`. -/
def Configured (d : Destination) (a : PoolArray) : Prop :=
  ∀ elems, a = .allocated elems → ∀ e ∈ elems, SendsTo d e

variable {n k : ℕ} {held held' : List ℕ} {p p' : ProducerPool} {d : Destination}

theorem sendsTo_setIndex {e : Producer} (h : SendsTo d e) (i : ℕ) : SendsTo d (e.setIndex i) := h

/-! ## The array -/

/-- A read of an element succeeds inside an array. -/
theorem get_eq_ok {a : PoolArray} {e : Producer} :
    a.get k = .ok e ↔ ∃ elems, a = .allocated elems ∧ elems[k]? = some e := by
  unfold PoolArray.get
  cases a with
  | null => simp
  | freed => simp
  | allocated elems =>
      cases h : elems[k]? with
      | none => simp [h]
      | some e' => simp [h]

/-- A write to an element succeeds inside an array, and replaces the element. -/
theorem modify_eq_ok {a a' : PoolArray} {f : Producer → Producer} :
    a.modify k f = .ok a' ↔ ∃ elems e, a = .allocated elems ∧ elems[k]? = some e ∧
      a' = .allocated (elems.set k (f e)) := by
  unfold PoolArray.modify
  cases a with
  | null => simp
  | freed => simp
  | allocated elems =>
      cases h : elems[k]? with
      | none => simp [h]
      | some e => simp [h, eq_comm]

/-- A write that keeps the destination of the element keeps the array configured. -/
theorem configured_modify {a a' : PoolArray} {f : Producer → Producer}
    (h : Configured d a) (hf : ∀ e, SendsTo d e → SendsTo d (f e))
    (hmod : a.modify k f = .ok a') : Configured d a' := by
  obtain ⟨elems, e, rfl, he, rfl⟩ := modify_eq_ok.mp hmod
  intro elems' heq x hx
  rw [PoolArray.allocated.injEq] at heq
  subst heq
  rcases List.mem_or_eq_of_mem_set hx with hx | rfl
  · exact h elems rfl x hx
  · exact hf e (h elems rfl e (List.mem_of_getElem? he))

/-- A handed out element is in the array and carries its position. -/
theorem get_of_slots (h : Slots n held p) (hk : k ∈ held) :
    ∃ e, p.pool.get k = .ok e ∧ e.nposition = k := by
  obtain ⟨elems, hpool, hlen, hpos⟩ := h.alloc
  obtain ⟨e, he⟩ : ∃ e, elems[k]? = some e := by
    rw [← Option.isSome_iff_exists]
    simp [hlen, h.lt k hk]
  exact ⟨e, get_eq_ok.mpr ⟨elems, hpool, he⟩, by rw [hpos k e he, if_pos hk]⟩

/-! ## The scan -/

theorem nposition_setIndex (e : Producer) {i : ℕ} (h : i < 2 ^ 32) :
    (e.setIndex i).nposition = i := Nat.mod_eq_of_lt h

/-- The pool has an idle position below its size, unless all are handed out. -/
theorem exists_least_idle (h : Slots n held p) :
    ∃ k, k ≤ n ∧ k ∉ held ∧ ∀ j, j < k → j ∈ held := by
  have hex : ∃ k, k ∉ held := ⟨n, fun hn => Nat.lt_irrefl n (h.lt n hn)⟩
  refine ⟨Nat.find hex, ?_, Nat.find_spec hex, ?_⟩
  · apply Nat.find_min' hex
    intro hn
    exact Nat.lt_irrefl n (h.lt n hn)
  · intro j hj
    have := Nat.find_min hex hj
    simpa using this

/-- The handed out positions are some of the positions of the pool. -/
theorem held_subperm_range (h : Slots n held p) : held.Subperm (List.range n) := by
  apply List.subperm_of_subset h.nodup
  intro i hi
  exact List.mem_range.mpr (h.lt i hi)

theorem length_held_le (h : Slots n held p) : held.length ≤ n := by
  simpa using (held_subperm_range h).length_le

/-- As many elements are handed out as there are exactly when every position is. -/
theorem length_held_eq_iff (h : Slots n held p) : held.length = n ↔ ∀ j, j < n → j ∈ held := by
  constructor
  · intro hlen j hj
    have heq : held.Perm (List.range n) := by
      apply (held_subperm_range h).perm_of_length_le
      simp [hlen]
    exact heq.mem_iff.mpr (List.mem_range.mpr hj)
  · intro hall
    have hsub : List.range n ⊆ held := fun j hj => hall j (List.mem_range.mp hj)
    have hge := (List.subperm_of_subset List.nodup_range hsub).length_le
    rw [List.length_range] at hge
    have hle := length_held_le h
    omega

/-- The scan of `CreatePoolItem` stays inside the bitset and finds the least idle position. -/
theorem scan_least_idle (h : Slots n held p) (hkn : k ≤ n) (hk : k ∉ held)
    (hmin : ∀ j, j < k → j ∈ held) :
    Library.scan (fun i => (p.test i).map (!·)) 0 p.nBitSetSize = .ok (some k) := by
  have hbound := h.bound
  have hbitset := h.bitset
  unfold maxBitsetSize at hbound
  apply Library.scan_eq_some (b := fun i => !p.bits i)
  · intro j _ hj
    have hlt : j < maxBitsetSize := by
      unfold maxBitsetSize
      omega
    simp [ProducerPool.test, hlt, Except.map]
  · exact Nat.zero_le k
  · omega
  · have : p.bits k ≠ true := fun hb => hk ((h.bits k).mp hb)
    simpa using this
  · intro l _ hl
    simpa using (h.bits l).mpr (hmin l hl)

/-! ## The operations -/

/-- All are handed out: `CreatePoolItem` returns NULL and changes the error text only. -/
theorem createPoolItem_of_full (h : Slots n held p) (hfull : held.length = n) :
    p.createPoolItem =
      .ok (none, { p with strError := "In CreatePoolItem(), Pool Overflow." }) := by
  obtain ⟨k, hkn, hk, hmin⟩ := exists_least_idle h
  have hall := (length_held_eq_iff h).mp hfull
  have hk' : k = n := by
    by_contra hne
    exact hk (hall k (by omega))
  have hscan := scan_least_idle h hkn hk hmin
  unfold ProducerPool.createPoolItem
  simp [hscan, bind, Except.bind, h.size, hk', pure, Except.pure]

/-- Not all are handed out: `CreatePoolItem` hands out the least idle one. -/
theorem createPoolItem_of_idle (h : Slots n held p) (hkn : k < n) (hk : k ∉ held)
    (hmin : ∀ j, j < k → j ∈ held) :
    ∃ p', p.createPoolItem = .ok (some k, p') ∧ Slots n (k :: held) p' := by
  obtain ⟨elems, hpool, hlen, hpos⟩ := h.alloc
  have hbound := h.bound
  unfold maxBitsetSize at hbound
  have hscan := scan_least_idle h (Nat.le_of_lt hkn) hk hmin
  obtain ⟨e, he⟩ : ∃ e, elems[k]? = some e := by
    rw [← Option.isSome_iff_exists]
    simp [hlen, hkn]
  have hmodify : p.pool.modify k (·.setIndex k) =
      .ok (.allocated (elems.set k (e.setIndex k))) :=
    modify_eq_ok.mpr ⟨elems, e, hpool, he, rfl⟩
  have hlt : k < maxBitsetSize := by
    unfold maxBitsetSize
    omega
  have hused := length_held_le h
  have hne : held.length ≠ n := fun hfull => hk ((length_held_eq_iff h).mp hfull k hkn)
  refine ⟨{ p with
    pool := .allocated (elems.set k (e.setIndex k))
    bits := fun j => if j = k then true else p.bits j
    nUsedPoolItemCnt := wrap32 (p.nUsedPoolItemCnt + 1) }, ?_, ?_⟩
  · unfold ProducerPool.createPoolItem
    have hsize : ¬ n ≤ k := by omega
    simp [hscan, bind, Except.bind, h.size, hsize, hmodify, ProducerPool.setBit, hlt, pure,
      Except.pure]
  · constructor
    · exact h.bound
    · exact h.created
    · exact h.size
    · exact h.bitset
    · refine ⟨_, rfl, by simpa using hlen, ?_⟩
      intro i x hx
      rw [List.getElem?_set] at hx
      by_cases hik : k = i
      · subst hik
        have hx' : e.setIndex k = x := by simpa [hlen, hkn] using hx
        rw [← hx', nposition_setIndex e (by omega)]
        simp
      · have hx' : elems[i]? = some x := by simpa [hik] using hx
        rw [hpos i x hx']
        simp [Ne.symm hik]
    · intro i hi
      rcases List.mem_cons.mp hi with rfl | hi
      · exact hkn
      · exact h.lt i hi
    · exact List.nodup_cons.mpr ⟨hk, h.nodup⟩
    · intro i
      by_cases hik : i = k
      · simp [hik]
      · simpa [hik] using h.bits i
    · have hlt32 : held.length + 1 < 2 ^ 32 := by omega
      simp only [wrap32, h.used, Nat.mod_eq_of_lt hlt32, List.length_cons]

/-- **`CreatePoolItem`.**  It returns NULL exactly when all elements are handed out; otherwise it
hands out the least idle one. -/
theorem createPoolItem_cases (h : Slots n held p) :
    (held.length = n ∧ p.createPoolItem =
        .ok (none, { p with strError := "In CreatePoolItem(), Pool Overflow." })) ∨
      (held.length < n ∧ ∃ k p', k ∉ held ∧ (∀ j, j < k → j ∈ held) ∧
        p.createPoolItem = .ok (some k, p') ∧ Slots n (k :: held) p') := by
  by_cases hfull : held.length = n
  · exact .inl ⟨hfull, createPoolItem_of_full h hfull⟩
  · have hle := length_held_le h
    obtain ⟨k, hkn, hk, hmin⟩ := exists_least_idle h
    have hlt : k < n := by
      rcases Nat.lt_or_eq_of_le hkn with hlt | rfl
      · exact hlt
      · exact absurd ((length_held_eq_iff h).mpr hmin) hfull
    obtain ⟨p', hcreate, hslots⟩ := createPoolItem_of_idle h hlt hk hmin
    exact .inr ⟨by omega, k, p', hk, hmin, hcreate, hslots⟩

/-- **`FreePoolItem`.**  An element that is handed out becomes idle. -/
theorem freePoolItem_of_mem (h : Slots n held p) (hk : k ∈ held) :
    ∃ p', p.freePoolItem (some k) = .ok p' ∧ Slots n (held.erase k) p' := by
  obtain ⟨e, hget, hidx⟩ := get_of_slots h hk
  obtain ⟨elems, hpool, he⟩ := get_eq_ok.mp hget
  obtain ⟨hlen, hpos⟩ : elems.length = n ∧
      ∀ i e, elems[i]? = some e → e.nposition = if i ∈ held then i else npos := by
    obtain ⟨elems', hpool', hspec⟩ := h.alloc
    rw [hpool, PoolArray.allocated.injEq] at hpool'
    exact hpool' ▸ hspec
  have hbound := h.bound
  unfold maxBitsetSize at hbound
  have hkn : k < n := h.lt k hk
  have hmodify : p.pool.modify k (·.setIndex npos) =
      .ok (.allocated (elems.set k (e.setIndex npos))) :=
    modify_eq_ok.mpr ⟨elems, e, hpool, he, rfl⟩
  have hlt : k < maxBitsetSize := by
    unfold maxBitsetSize
    omega
  have hpositive : 0 < held.length := List.length_pos_of_mem hk
  have hmem : ∀ i, i ∈ held.erase k ↔ i ≠ k ∧ i ∈ held := fun i => h.nodup.mem_erase_iff
  refine ⟨{ p with
    pool := .allocated (elems.set k (e.setIndex npos))
    bits := fun j => if j = k then false else p.bits j
    nUsedPoolItemCnt := p.nUsedPoolItemCnt - 1 }, ?_, ?_⟩
  · unfold ProducerPool.freePoolItem
    have hsize : ¬ n ≤ k := by omega
    simp [hget, hidx, bind, Except.bind, h.size, hsize, hmodify, ProducerPool.setBit, hlt, pure,
      Except.pure, h.used, hpositive]
  · constructor
    · exact h.bound
    · exact h.created
    · exact h.size
    · exact h.bitset
    · refine ⟨_, rfl, by simpa using hlen, ?_⟩
      intro i x hx
      rw [List.getElem?_set] at hx
      by_cases hik : k = i
      · subst hik
        have hx' : e.setIndex npos = x := by simpa [hlen, hkn] using hx
        rw [← hx', nposition_setIndex e (by decide)]
        simp [hmem]
      · have hx' : elems[i]? = some x := by simpa [hik] using hx
        rw [hpos i x hx']
        simp [hmem, Ne.symm hik]
    · intro i hi
      exact h.lt i (List.mem_of_mem_erase hi)
    · exact h.nodup.erase k
    · intro i
      rw [hmem]
      by_cases hik : i = k
      · simp [hik]
      · simpa [hik] using h.bits i
    · rw [List.length_erase_of_mem hk, h.used]

/-- `FreePoolItem` of an idle element changes nothing: its index is the mark of an idle one. -/
theorem freePoolItem_of_idle (h : Slots n held p) (hkn : k < n) (hk : k ∉ held) :
    p.freePoolItem (some k) = .ok p := by
  obtain ⟨elems, hpool, hlen, hpos⟩ := h.alloc
  obtain ⟨e, he⟩ : ∃ e, elems[k]? = some e := by
    rw [← Option.isSome_iff_exists]
    simp [hlen, hkn]
  have hget : p.pool.get k = .ok e := get_eq_ok.mpr ⟨elems, hpool, he⟩
  have hidx : e.nposition = npos := by rw [hpos k e he, if_neg hk]
  have hbound := h.bound
  unfold maxBitsetSize at hbound
  have hsize : n ≤ npos := by
    unfold npos
    omega
  unfold ProducerPool.freePoolItem
  simp [hget, hidx, bind, Except.bind, h.size, hsize, pure, Except.pure]

/-- The scan of `GetNextPoolItem` stays inside the bitset. -/
theorem scan_from_cursor (h : Slots n held p) :
    Library.scan p.test p.nPoolCursor (p.nBitSetSize - p.nPoolCursor) =
      .ok ((List.range' p.nPoolCursor (p.nBitSetSize - p.nPoolCursor)).find? p.bits) := by
  have hbound := h.bound
  have hbitset := h.bitset
  unfold maxBitsetSize at hbound
  apply Library.scan_eq_find?
  intro j hle hlt
  have hj : j < maxBitsetSize := by
    unfold maxBitsetSize
    omega
  simp [ProducerPool.test, hj]

/-- **`GetNextPoolItem`.**  It returns the least handed out element from the cursor on and moves
the cursor behind it; if there is none, it returns NULL and resets the cursor. -/
theorem getNextPoolItem_cases (h : Slots n held p) :
    ((∀ k ∈ held, k < p.nPoolCursor) ∧
        p.getNextPoolItem = .ok (none, { p with nPoolCursor := 0 })) ∨
      ∃ k ∈ held, p.nPoolCursor ≤ k ∧ (∀ j ∈ held, p.nPoolCursor ≤ j → k ≤ j) ∧
        p.getNextPoolItem = .ok (some k, { p with nPoolCursor := k + 1 }) := by
  have hbound := h.bound
  have hbitset := h.bitset
  unfold maxBitsetSize at hbound
  have hscan := scan_from_cursor h
  cases hfind : (List.range' p.nPoolCursor (p.nBitSetSize - p.nPoolCursor)).find? p.bits with
  | none =>
      left
      constructor
      · intro k hk
        have hkn := h.lt k hk
        by_contra hle
        have hmem : k ∈ List.range' p.nPoolCursor (p.nBitSetSize - p.nPoolCursor) := by
          rw [List.mem_range'_1]
          omega
        exact List.find?_eq_none.mp hfind k hmem ((h.bits k).mpr hk)
      · have hsize : n ≤ npos := by
          unfold npos
          omega
        unfold ProducerPool.getNextPoolItem
        simp [hscan, hfind, bind, Except.bind, h.size, hsize, pure, Except.pure]
  | some k =>
      right
      obtain ⟨hbit, hrange, hmin⟩ := List.find?_range'_eq_some.mp hfind
      obtain ⟨hle, hlt⟩ := List.mem_range'_1.mp hrange
      have hk : k ∈ held := (h.bits k).mp hbit
      have hkn := h.lt k hk
      obtain ⟨e, hget, -⟩ := get_of_slots h hk
      refine ⟨k, hk, hle, ?_, ?_⟩
      · intro j hj hcursor
        by_contra hjk
        have hnot := hmin j hcursor (by omega)
        simp [(h.bits j).mpr hj] at hnot
      · have hsize : ¬ n ≤ k := by omega
        have hwrap : wrap32 (k + 1) = k + 1 := Nat.mod_eq_of_lt (by omega)
        unfold ProducerPool.getNextPoolItem
        simp [hscan, hfind, bind, Except.bind, h.size, hsize, hget, hwrap, pure, Except.pure]

/-- The cursor is no part of the invariant. -/
theorem slots_setCursor (h : Slots n held p) (c : ℕ) : Slots n held { p with nPoolCursor := c } :=
  { h with }

/-- **`CreatePool`** of an idle pool, with a size that the bitset has room for: the elements are
idle and configured for the destination that is given. -/
theorem slots_createPool {m : UInt32} {b u : String} {t a : Bool} (hidle : Idle p)
    (hm : m.toNat < maxBitsetSize) :
    (p.createPool m b u t a .ok).1 = .returned true ∧
      Slots m.toNat [] (p.createPool m b u t a .ok).2 ∧
      Configured (Destination.select t u) (p.createPool m b u t a .ok).2.pool := by
  have hbound := hm
  unfold maxBitsetSize at hbound
  have hwrap : wrap32 ((m.toNat / 8 + 1) * 8) = (m.toNat / 8 + 1) * 8 := by
    unfold wrap32
    omega
  have hguard : ¬ (m.toNat / 8 + 1) * 8 > maxBitsetSize := by
    unfold maxBitsetSize
    omega
  unfold ProducerPool.createPool
  simp only [hwrap, hguard, if_false, true_and]
  constructor
  · refine ⟨hm, rfl, rfl, rfl, ⟨_, rfl, by simp, ?_⟩, ?_, List.nodup_nil, ?_, hidle.1⟩
    · intro i e he
      rw [List.eq_of_mem_replicate (List.mem_of_getElem? he)]
      rfl
    · simp
    · simpa using hidle.2
  · intro elems helems e he
    cases helems
    rw [List.eq_of_mem_replicate he]
    exact ⟨rfl, by simp [Producer.setURIInfo, Producer.new]⟩

/-- What work on an element does. -/
theorem onItem_eq_ok {α : Type} {f : Producer → α × Producer} {a : α} :
    p.onItem k f = .ok (a, p') ↔ ∃ elems e, p.pool = .allocated elems ∧ elems[k]? = some e ∧
      a = (f e).1 ∧ p' = { p with pool := .allocated (elems.set k (f e).2) } := by
  unfold ProducerPool.onItem
  constructor
  · intro h
    cases hget : p.pool.get k with
    | error e => simp [hget, bind, Except.bind] at h
    | ok e =>
        obtain ⟨elems, hpool, he⟩ := get_eq_ok.mp hget
        have hmod : p.pool.modify k (fun _ => (f e).2) = .ok (.allocated (elems.set k (f e).2)) :=
          modify_eq_ok.mpr ⟨elems, e, hpool, he, rfl⟩
        simp only [hget, bind, Except.bind, hmod, pure, Except.pure, Except.ok.injEq,
          Prod.mk.injEq] at h
        exact ⟨elems, e, hpool, he, h.1.symm, h.2.symm⟩
  · rintro ⟨elems, e, hpool, he, rfl, rfl⟩
    have hget : p.pool.get k = .ok e := get_eq_ok.mpr ⟨elems, hpool, he⟩
    have hmod : p.pool.modify k (fun _ => (f e).2) = .ok (.allocated (elems.set k (f e).2)) :=
      modify_eq_ok.mpr ⟨elems, e, hpool, he, rfl⟩
    simp [hget, bind, Except.bind, hmod, pure, Except.pure]

/-- **Work on an element** that keeps its index and its destination keeps the pool. -/
theorem onItem_of_slots {α : Type} {f : Producer → α × Producer} (h : Slots n held p)
    (hc : Configured d p.pool) (hk : k ∈ held) (hidx : ∀ e, (f e).2.nposition = e.nposition)
    (hdest : ∀ e, SendsTo d e → SendsTo d (f e).2) :
    ∃ e p', SendsTo d e ∧ p.onItem k f = .ok ((f e).1, p') ∧ Slots n held p' ∧
      Configured d p'.pool := by
  obtain ⟨elems, hpool, hlen, hpos⟩ := h.alloc
  obtain ⟨e, he⟩ : ∃ e, elems[k]? = some e := by
    rw [← Option.isSome_iff_exists]
    simp [hlen, h.lt k hk]
  have hsends : SendsTo d e := hc elems hpool e (List.mem_of_getElem? he)
  have hmod : p.pool.modify k (fun e => (f e).2) = .ok (.allocated (elems.set k (f e).2)) :=
    modify_eq_ok.mpr ⟨elems, e, hpool, he, rfl⟩
  refine ⟨e, _, hsends, onItem_eq_ok.mpr ⟨elems, e, hpool, he, rfl, rfl⟩, ?_,
    configured_modify hc hdest hmod⟩
  refine { h with alloc := ⟨_, rfl, by simpa using hlen, ?_⟩ }
  intro i x hx
  rw [List.getElem?_set] at hx
  by_cases hik : k = i
  · subst hik
    have hx' : (f e).2 = x := by simpa [hlen, h.lt k hk] using hx
    rw [← hx', hidx e]
    exact hpos k e he
  · have hx' : elems[i]? = some x := by simpa [hik] using hx
    exact hpos i x hx'

/-- What `CreatePoolItem` changes, in any pool in which it does not fault. -/
theorem createPoolItem_eq_ok {o : Option ℕ} (h : p.createPoolItem = .ok (o, p')) :
    (o = none ∧ p' = { p with strError := "In CreatePoolItem(), Pool Overflow." }) ∨
      ∃ k a, o = some k ∧ (k < p.nPoolSize ∧ k < maxBitsetSize) ∧
        p.pool.modify k (·.setIndex k) = .ok a ∧
        p' = { p with
          pool := a
          bits := fun j => if j = k then true else p.bits j
          nUsedPoolItemCnt := wrap32 (p.nUsedPoolItemCnt + 1) } := by
  unfold ProducerPool.createPoolItem at h
  simp only [bind, Except.bind, pure, Except.pure, ProducerPool.setBit] at h
  split at h
  · cases h
  · split at h
    · cases h
      exact .inl ⟨rfl, rfl⟩
    · rename_i hsize
      split at h
      · cases h
      · rename_i a hmod
        split at h
        · cases h
        · rename_i q hq
          split at hq
          · rename_i hbit
            cases hq
            cases h
            exact .inr ⟨_, a, rfl, ⟨Nat.lt_of_not_le hsize, hbit⟩, hmod, rfl⟩
          · cases hq

/-- What `FreePoolItem` of an element changes, in any pool in which it does not fault. -/
theorem freePoolItem_eq_ok (h : p.freePoolItem (some k) = .ok p') :
    p' = p ∨ ∃ i a u, p.pool.modify k (·.setIndex npos) = .ok a ∧
      p' = { p with
        pool := a
        bits := fun j => if j = i then false else p.bits j
        nUsedPoolItemCnt := u } := by
  unfold ProducerPool.freePoolItem at h
  simp only [bind, Except.bind, pure, Except.pure, ProducerPool.setBit] at h
  split at h
  · cases h
  · split at h
    · cases h
      exact .inl rfl
    · split at h
      · cases h
      · rename_i a hmod
        split at h
        · cases h
        · rename_i q hq
          split at hq
          · cases hq
            split at h
            · cases h
              exact .inr ⟨_, a, _, hmod, rfl⟩
            · cases h
              exact .inr ⟨_, a, _, hmod, rfl⟩
          · cases hq

/-- `CreatePoolItem` keeps the array configured. -/
theorem configured_createPoolItem {o : Option ℕ} (hc : Configured d p.pool)
    (h : p.createPoolItem = .ok (o, p')) : Configured d p'.pool := by
  rcases createPoolItem_eq_ok h with ⟨-, rfl⟩ | ⟨k, a, -, -, hmod, rfl⟩
  · exact hc
  · exact configured_modify hc (fun _ he => sendsTo_setIndex he k) hmod

/-- `FreePoolItem` keeps the array configured. -/
theorem configured_freePoolItem (hc : Configured d p.pool)
    (h : p.freePoolItem (some k) = .ok p') : Configured d p'.pool := by
  rcases freePoolItem_eq_ok h with rfl | ⟨i, a, u, hmod, rfl⟩
  · exact hc
  · exact configured_modify hc (fun _ he => sendsTo_setIndex he npos) hmod

/-- The order in which the held positions are listed does not matter. -/
theorem slots_perm (h : Slots n held p) (hperm : held.Perm held') : Slots n held' p := by
  obtain ⟨elems, hpool, hlen, hpos⟩ := h.alloc
  refine { h with alloc := ⟨elems, hpool, hlen, ?_⟩, lt := ?_, nodup := ?_, bits := ?_, used := ?_ }
  · intro i e he
    simpa only [hperm.mem_iff] using hpos i e he
  · intro i hi
    exact h.lt i (hperm.mem_iff.mpr hi)
  · exact hperm.nodup_iff.mp h.nodup
  · intro i
    rw [h.bits i, hperm.mem_iff]
  · rw [h.used, hperm.length_eq]

end DsAmq.Analysis
