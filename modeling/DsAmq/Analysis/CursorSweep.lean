import DsAmq.Analysis.PoolLifeCycle
import DsAmq.Library.Sweep

/-!
# The sweep over the busy producers

`InitPoolItemCursor` and repeated calls of `GetNextPoolItem` visit the elements that are handed out,
while other elements, or the same ones, are handed out and given back between the calls.  The
operations on the items are a `Sweep` of the library (`pool_sweep`); `cursor_sweep` is what this
says about the pool.
-/

set_option autoImplicit false

namespace DsAmq.Analysis

open DsAmq.Model DsAmq.Library

/-- What holds of the created pool of `n` elements and of the account of it: the pool is a first-fit
allocator, or `n` is so large that the size of the bitset has wrapped around and nothing is ever
handed out. -/
inductive Served (n : ℕ) (s : PoolLife) : Prop
  | slots (h : Allocates n s.pool s.out) : Served n s
  | huge {elems : List Producer} (hpool : s.pool.pool = .allocated elems)
      (hlen : elems.length = n) (hidx : ∀ e ∈ elems, e.nposition = npos) (hout : s.out = ∅)
      (hsize : s.pool.nPoolSize = n) (hn : n ≤ npos) (hbitset : s.pool.nBitSetSize = 0) : Served n s

/-- The element that a call of `GetNextPoolItem` returned. -/
def visited : ItemOp × Option ℕ → Option ℕ
  | (.getNextPoolItem, r) => r
  | _ => none

/-- A step of a sweep over `n` elements that has not come to its end: an element is asked for or
given back, or `GetNextPoolItem` returns an element. -/
def InSweep (n : ℕ) : ItemOp × Option ℕ → Prop
  | (.initPoolItemCursor, _) => False
  | (.getNextPoolItem, r) => r ≠ none
  | (op, _) => OnElement n op

variable {n : ℕ} {s s' : PoolLife} {p p' : ProducerPool} {r : Option ℕ}

/-! ## One operation -/

/-- The elements that are handed out are elements of the array. -/
theorem Served.lt (h : Served n s) {k : ℕ} (hk : k ∈ s.out) : k < n := by
  cases h with
  | slots h => exact Finset.mem_range.mp (h.subset hk)
  | huge hpool hlen hidx hout hsize hn hbitset =>
      rw [hout] at hk
      cases hk

theorem Served.setCursor (h : Served n s) (c : ℕ) :
    Served n ⟨{ s.pool with nPoolCursor := c }, s.out⟩ := by
  cases h with
  | slots h =>
      obtain ⟨held, hslots, hheld⟩ := h
      exact .slots ⟨held, slots_setCursor hslots c, hheld⟩
  | huge hpool hlen hidx hout hsize hn hbitset =>
      exact .huge hpool hlen hidx hout hsize hn hbitset

/-- `CreatePoolItem` returns, and leaves the cursor alone. -/
theorem Served.createPoolItem (h : Served n s) :
    ∃ r p', s.pool.createPoolItem = .ok (r, p') ∧ p'.nPoolCursor = s.pool.nPoolCursor ∧
      Served n ⟨p', PoolLife.outAfter s.out .createPoolItem r⟩ := by
  have hcursor : ∀ {r p'}, s.pool.createPoolItem = .ok (r, p') →
      p'.nPoolCursor = s.pool.nPoolCursor := by
    intro r p' hcreate
    rcases createPoolItem_eq_ok hcreate with ⟨-, rfl⟩ | ⟨k, a, -, -, -, rfl⟩ <;> rfl
  cases h with
  | slots h =>
      cases hfirst : FirstFit.firstIdle n s.out with
      | none =>
          have hcreate := h.createPoolItem_full hfirst
          obtain ⟨held, hslots, hheld⟩ := h
          exact ⟨none, _, hcreate, rfl, .slots ⟨held, { hslots with }, hheld⟩⟩
      | some k =>
          obtain ⟨p', hcreate, h'⟩ := h.createPoolItem_idle hfirst
          exact ⟨some k, p', hcreate, hcursor hcreate, .slots h'⟩
  | huge hpool hlen hidx hout hsize hn hbitset =>
      have hcreate := createPoolItem_of_noBits hbitset (hsize.trans_le hn)
      exact ⟨none, _, hcreate, rfl, .huge hpool hlen hidx hout hsize hn hbitset⟩

/-- `FreePoolItem` of NULL or of an element returns, and leaves the cursor alone. -/
theorem Served.freePoolItem (h : Served n s) {producer : Option ℕ}
    (hop : OnElement n (.freePoolItem producer)) :
    ∃ p', s.pool.freePoolItem producer = .ok p' ∧ p'.nPoolCursor = s.pool.nPoolCursor ∧
      Served n ⟨p', PoolLife.outAfter s.out (.freePoolItem producer) none⟩ := by
  cases producer with
  | none => exact ⟨s.pool, rfl, rfl, h⟩
  | some k =>
      by_cases hk : k ∈ s.out
      · cases h with
        | slots h =>
            obtain ⟨p', hfree, h'⟩ := h.freePoolItem_used hk
            refine ⟨p', hfree, ?_, .slots h'⟩
            rcases freePoolItem_eq_ok hfree with rfl | ⟨i, a, u, -, rfl⟩ <;> rfl
        | huge hpool hlen hidx hout hsize hn hbitset =>
            rw [hout] at hk
            cases hk
      · have hfree : s.pool.freePoolItem (some k) = .ok s.pool := by
          cases h with
          | slots h => exact h.freePoolItem_idle hop hk
          | huge hpool hlen hidx hout hsize hn hbitset =>
              exact freePoolItem_of_npos hpool (hlen ▸ hop) hidx (hsize.trans_le hn)
        refine ⟨s.pool, hfree, rfl, ?_⟩
        simp only [PoolLife.outAfter, Finset.erase_eq_of_notMem hk]
        exact h

/-- `GetNextPoolItem` returns the least busy element from the cursor on, or NULL where there is
none. -/
theorem Served.getNextPoolItem (h : Served n s) :
    ((∀ k ∈ s.out, k < s.pool.nPoolCursor) ∧
        s.pool.getNextPoolItem = .ok (none, { s.pool with nPoolCursor := 0 })) ∨
      ∃ k, IsLeast {j | j ∈ s.out ∧ s.pool.nPoolCursor ≤ j} k ∧
        s.pool.getNextPoolItem = .ok (some k, { s.pool with nPoolCursor := k + 1 }) := by
  cases h with
  | slots h =>
      obtain ⟨held, hslots, hheld⟩ := h
      have hmem : ∀ k, k ∈ s.out ↔ k ∈ held := by
        intro k
        rw [← hheld, List.mem_toFinset]
      rcases getNextPoolItem_cases hslots with ⟨hall, hnext⟩ | ⟨k, hk, hle, hmin, hnext⟩
      · left
        refine ⟨?_, hnext⟩
        intro k hk
        exact hall k ((hmem k).mp hk)
      · right
        refine ⟨k, ⟨⟨(hmem k).mpr hk, hle⟩, ?_⟩, hnext⟩
        rintro j ⟨hj, hlej⟩
        exact hmin j ((hmem j).mp hj) hlej
  | huge hpool hlen hidx hout hsize hn hbitset =>
      left
      refine ⟨?_, ?_⟩
      · intro k hk
        rw [hout] at hk
        cases hk
      · have hnpos : s.pool.nPoolSize ≤ npos := hsize.trans_le hn
        unfold ProducerPool.getNextPoolItem
        simp [hbitset, scan, bind, Except.bind, hnpos, pure, Except.pure]

/-- Every operation on the items returns. -/
theorem Served.onItems (h : Served n s) {op : ItemOp} (hop : OnElement n op) :
    ∃ r p', s.pool.onItems op = .ok (r, p') ∧ Served n ⟨p', PoolLife.outAfter s.out op r⟩ := by
  cases op with
  | createPoolItem =>
      obtain ⟨r, p', hcreate, -, h'⟩ := h.createPoolItem
      exact ⟨r, p', hcreate, h'⟩
  | freePoolItem producer =>
      obtain ⟨p', hfree, -, h'⟩ := h.freePoolItem hop
      exact ⟨none, p', by simp only [ProducerPool.onItems, hfree, Except.map], h'⟩
  | initPoolItemCursor => exact ⟨none, _, rfl, h.setCursor 0⟩
  | getNextPoolItem =>
      rcases h.getNextPoolItem with ⟨-, hnext⟩ | ⟨k, -, hnext⟩
      · exact ⟨none, _, hnext, h.setCursor 0⟩
      · exact ⟨some k, _, hnext, h.setCursor (k + 1)⟩

/-- A step of the items is the operation with the pointer it returns. -/
theorem items_step_eq_some {op : ItemOp} :
    PoolLife.items.step s (op, r) = some s' ↔
      ∃ p', s.pool.onItems op = .ok (r, p') ∧ s' = ⟨p', PoolLife.outAfter s.out op r⟩ := by
  unfold PoolLife.items
  cases hop : s.pool.onItems op with
  | error e => simp [hop]
  | ok x =>
      obtain ⟨r', p'⟩ := x
      by_cases hr : r' = r
      · subst hr
        simp [hop, eq_comm]
      · simp [hop, hr]

theorem served_step {x : ItemOp × Option ℕ} (h : Served n s) (hop : OnElement n x.1)
    (hstep : PoolLife.items.step s x = some s') : Served n s' := by
  obtain ⟨p', hexec, rfl⟩ := items_step_eq_some.mp hstep
  obtain ⟨r', q, hexec', h'⟩ := h.onItems hop
  obtain ⟨rfl, rfl⟩ : r' = x.2 ∧ q = p' := by
    rw [hexec] at hexec'
    cases hexec'
    exact ⟨rfl, rfl⟩
  exact h'

theorem onElement_of_inSweep {x : ItemOp × Option ℕ} (h : InSweep n x) : OnElement n x.1 := by
  obtain ⟨op, r⟩ := x
  cases op with
  | createPoolItem => exact h
  | freePoolItem producer => exact h
  | initPoolItemCursor => exact h.elim
  | getNextPoolItem => trivial

/-! ## The sweep -/

/-- **The operations on the items sweep over the elements that are handed out.** -/
theorem pool_sweep (n : ℕ) : Sweep PoolLife.items (Served n) (fun _ x => InSweep n x)
    (fun s => {k | k ∈ s.out}) (fun s => s.pool.nPoolCursor) visited := by
  refine ⟨?_, ?_, ?_⟩
  · intro s x s' h hx hstep
    exact served_step h (onElement_of_inSweep hx) hstep
  · rintro s ⟨op, r⟩ s' h hx hstep hvisit
    obtain ⟨p', hexec, rfl⟩ := items_step_eq_some.mp hstep
    cases op with
    | createPoolItem =>
        obtain ⟨r', q, hcreate, hcursor, -⟩ := h.createPoolItem
        have hsame := hcreate.symm.trans hexec
        cases hsame
        exact hcursor
    | freePoolItem producer =>
        obtain ⟨q, hfree, hcursor, -⟩ := h.freePoolItem hx
        simp only [ProducerPool.onItems, hfree, Except.map] at hexec
        cases hexec
        exact hcursor
    | initPoolItemCursor => exact hx.elim
    | getNextPoolItem => exact absurd hvisit hx
  · rintro s ⟨op, r⟩ s' k h hx hstep hvisit
    obtain ⟨p', hexec, rfl⟩ := items_step_eq_some.mp hstep
    cases op with
    | createPoolItem => cases hvisit
    | freePoolItem producer => cases hvisit
    | initPoolItemCursor => cases hvisit
    | getNextPoolItem =>
        obtain rfl : r = some k := hvisit
        rcases h.getNextPoolItem with ⟨-, hnext⟩ | ⟨k', hleast, hnext⟩
        · cases hnext.symm.trans hexec
        · cases hnext.symm.trans hexec
          exact ⟨hleast, rfl⟩

/-- A fresh pool on which `CreatePool` has succeeded. -/
theorem served_created {m : UInt32} {b u : String} {t a : Bool} {alloc : Alloc}
    (hcreate : ProducerPool.new.createPool m b u t a alloc = (.returned true, p)) :
    Served m.toNat ⟨p, ∅⟩ := by
  have hidle : Idle ProducerPool.new := ⟨rfl, fun _ => rfl⟩
  have hle := toNat_le_npos m
  unfold ProducerPool.createPool at hcreate
  dsimp only at hcreate
  split at hcreate
  · cases hcreate
  · rename_i hguard
    cases alloc with
    | badAlloc what => cases hcreate
    | ok =>
        cases hcreate
        rcases lt_or_wraps_of_sizeAccepted (Nat.not_lt.mp hguard) hle with hlt | hwrap
        · obtain ⟨-, hslots, -⟩ := slots_createPool (b := b) (u := u) (t := t) (a := a) hidle hlt
          unfold ProducerPool.createPool at hslots
          simp only [hguard, if_false] at hslots
          exact .slots ⟨[], hslots, rfl⟩
        · refine .huge rfl List.length_replicate ?_ rfl rfl hle hwrap
          intro e he
          rw [List.eq_of_mem_replicate he]
          rfl

/-- **The cursor sweep visits every busy producer once.**  After a successful `CreatePool` on a
fresh pool, of any size, and any operations on its items, where NULL or any element may be given
back, let `InitPoolItemCursor` be called, and then `GetNextPoolItem` again and again, with any
requests and returns of elements in between; `sweep` is what has been done so far, `GetNextPoolItem`
not having returned NULL yet.  Then the elements it returned have increasing positions, and each was
in use when it was returned; every operation returns; and the next `GetNextPoolItem` returns NULL
and sets the cursor to 0, and then every element that was in use all the time has been returned
exactly once; or it returns an element, and then fewer calls than the pool has elements were made
before it. -/
theorem cursor_sweep {m : UInt32} {b u : String} {t a : Bool} {alloc : Alloc} {p₀ : ProducerPool}
    {before sweep : List (ItemOp × Option ℕ)} {s s' : PoolLife}
    (hcreate : ProducerPool.new.createPool m b u t a alloc = (.returned true, p₀))
    (hbefore : ∀ x ∈ before, OnElement m.toNat x.1)
    (hrun₀ : PoolLife.items.run ⟨p₀, ∅⟩ before = some s)
    (hsweep : ∀ x ∈ sweep, InSweep m.toNat x)
    (hrun : PoolLife.items.run ⟨s.pool.initPoolItemCursor, s.out⟩ sweep = some s') :
    (sweep.filterMap visited).Pairwise (· < ·) ∧
      PoolLife.items.Meets (fun s x => ∀ k, visited x = some k → k ∈ s.out)
        ⟨s.pool.initPoolItemCursor, s.out⟩ sweep ∧
      (∀ op, OnElement m.toNat op → ∃ r p', s'.pool.onItems op = .ok (r, p')) ∧
      ((∃ p', s'.pool.getNextPoolItem = .ok (none, p') ∧ p'.nPoolCursor = 0 ∧
          ∀ k, PoolLife.items.Always (fun s => k ∈ s.out) ⟨s.pool.initPoolItemCursor, s.out⟩ sweep →
            (sweep.filterMap visited).count k = 1) ∨
        ∃ k p', s'.pool.getNextPoolItem = .ok (some k, p') ∧
          (sweep.filterMap visited).length < m.toNat) := by
  have hmeets₀ : PoolLife.items.Meets (fun _ x => OnElement m.toNat x.1) ⟨p₀, ∅⟩ before :=
    Machine.meets_of_forall _ fun x hx _ => hbefore x hx
  have hserved : Served m.toNat s := by
    refine Machine.run_inv_of_meets (I := Served m.toNat) ?_ (served_created hcreate) hmeets₀ hrun₀
    intro s x s' h hop hstep
    exact served_step h hop hstep
  have hstart : Served m.toNat ⟨s.pool.initPoolItemCursor, s.out⟩ := hserved.setCursor 0
  have hmeets : PoolLife.items.Meets (fun _ x => InSweep m.toNat x)
      ⟨s.pool.initPoolItemCursor, s.out⟩ sweep :=
    Machine.meets_of_forall _ fun x hx _ => hsweep x hx
  have hend : Served m.toNat s' :=
    Machine.run_inv_of_meets (pool_sweep m.toNat).inv hstart hmeets hrun
  have hswept := (pool_sweep m.toNat).swept hstart hmeets hrun
  refine ⟨hswept.sorted, hswept.visited, ?_, ?_⟩
  · intro op hop
    obtain ⟨r, p', hexec, -⟩ := hend.onItems hop
    exact ⟨r, p', hexec⟩
  · rcases hend.getNextPoolItem with ⟨hall, hnext⟩ | ⟨k, hleast, hnext⟩
    · left
      refine ⟨_, hnext, rfl, ?_⟩
      intro k hbusy
      apply hswept.count_eq_one
      -- what is busy to the end lies below the cursor of the end
      have hlast := Machine.always_last (P := fun s => k ∈ s.out) hbusy hrun
      exact hswept.complete k hbusy (Nat.zero_le k) (hall k hlast)
    · right
      refine ⟨k, _, hnext, ?_⟩
      have hbelow := hswept.below
      have hk := hend.lt hleast.1.1
      have hcursor := hleast.1.2
      simp only [ProducerPool.initPoolItemCursor] at hbelow
      omega

/-- The three elements of a pool are handed out. -/
def allTaken : List (ItemOp × Option ℕ) :=
  [(.createPoolItem, some 0), (.createPoolItem, some 1), (.createPoolItem, some 2)]

/-- A sweep during which the second element is given back and handed out again. -/
def sweptWithReuse : List (ItemOp × Option ℕ) :=
  [(.getNextPoolItem, some 0), (.freePoolItem (some 1), none), (.createPoolItem, some 1),
    (.getNextPoolItem, some 1), (.freePoolItem (some 0), none), (.getNextPoolItem, some 2)]

/-- After this sweep of all three elements the next call returns NULL. -/
theorem cursor_sweep_with_reuse :
    ∃ s s', PoolLife.items.run
        ⟨(ProducerPool.new.createPool 3 "broker" "orders" false true .ok).2, ∅⟩ allTaken = some s ∧
      PoolLife.items.run ⟨s.pool.initPoolItemCursor, s.out⟩ sweptWithReuse = some s' ∧
      ∃ p', s'.pool.getNextPoolItem = .ok (none, p') ∧ p'.nPoolCursor = 0 := by
  have hcreate : ProducerPool.new.createPool 3 "broker" "orders" false true .ok =
      (.returned true, (ProducerPool.new.createPool 3 "broker" "orders" false true .ok).2) := rfl
  have hruns : ((PoolLife.items.run
      ⟨(ProducerPool.new.createPool 3 "broker" "orders" false true .ok).2, ∅⟩ allTaken).bind
        fun s => (PoolLife.items.run ⟨s.pool.initPoolItemCursor, s.out⟩ sweptWithReuse)).isSome =
      true := by decide +kernel
  obtain ⟨s', hs'⟩ := Option.isSome_iff_exists.mp hruns
  obtain ⟨s, hrun₀, hrun⟩ := Option.bind_eq_some_iff.mp hs'
  refine ⟨s, s', hrun₀, hrun, ?_⟩
  obtain ⟨-, -, -, ⟨p', hnext, hcursor, -⟩ | ⟨k, p', -, hlength⟩⟩ :=
    cursor_sweep hcreate (by simp [allTaken, OnElement]) hrun₀
      (by simp [sweptWithReuse, InSweep, OnElement]) hrun
  · exact ⟨p', hnext, hcursor⟩
  · exact absurd hlength (by decide)

end DsAmq.Analysis
