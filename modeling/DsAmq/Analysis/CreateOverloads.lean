import DsAmq.Analysis.CreatedPool

/-!
# The two overloads of `CreatePool`

The overload without modes is commented "use client ack mode" and "use queue (not use topic)".  It
hands the members `m_bUseTopic` and `m_bClientAck` on to the pool, which are not the defaults any
more when a call of the other overload has failed after it wrote them.  The other overload hands its
arguments on, and does not look at the URIs.  `create_overloads_agree_iff` says when the two calls
are the same call.
-/

set_option autoImplicit false

namespace DsAmq.Analysis

open DsAmq.Model DsAmq.Library

/-- The producers of the pool. -/
def producers (p : ProducerPool) : List Producer :=
  match p.pool with
  | .allocated elems => elems
  | _ => []

/-- Every producer of the pool is configured with these flags. -/
def FlaggedWith (t a : Bool) (p : ProducerPool) : Prop :=
  ∀ e ∈ producers p, e.busetopic = t ∧ e.bclientack = a

/-- The two calls return the same result and lead to the same state, in which every producer is
configured for a queue and for client acknowledgement. -/
def OverloadsAgree (w : MgrWorld) (n : UInt32) (b d : String) (alloc : Alloc) : Prop :=
  w.createPoolShort n b d alloc = w.createPoolFull n b d false true alloc ∧
    FlaggedWith false true (w.createPoolFull n b d false true alloc).2.mgr.pool

/-- The calls of `CreatePool`, with what becomes of their allocation. -/
def createCalls (calls : List (CreateCall × Alloc)) : List MgrOp :=
  calls.map fun x => .createPool x.1 x.2

variable {w : MgrWorld} {n : UInt32} {b d : String} {alloc : Alloc}

/-! ## The end that the overloads share -/

/-- It fails exactly when the allocation does. -/
theorem fillPool_result : (w.fillPool (clampPoolSize n) alloc).1 = decide (alloc = .ok) := by
  unfold MgrWorld.fillPool ProducerPool.createPool
  simp only [clampPoolSize_guard, if_false]
  cases alloc <;> rfl

theorem fillPool_flags :
    (w.fillPool (clampPoolSize n) alloc).2.mgr.bUseTopic = w.mgr.bUseTopic ∧
      (w.fillPool (clampPoolSize n) alloc).2.mgr.bClientAck = w.mgr.bClientAck := by
  unfold MgrWorld.fillPool ProducerPool.createPool
  simp only [clampPoolSize_guard, if_false]
  cases alloc <;> exact ⟨rfl, rfl⟩

/-- The text it leaves when the allocation fails. -/
theorem fillPool_strError (what : String) :
    (w.fillPool (clampPoolSize n) (.badAlloc what)).2.mgr.strError =
      "in CreatePool, exception occured, " ++ ("In CreatePool(), " ++ what) := by
  unfold MgrWorld.fillPool ProducerPool.createPool
  simp only [clampPoolSize_guard, if_false]
  rfl

/-- On a pool without an array it leaves none, or creates one whose producers have the flags of the
members. -/
theorem fillPool_pool (hnull : w.mgr.pool.pool = .null) (hnot : w.mgr.pool.isCreated = false) :
    ((w.fillPool (clampPoolSize n) alloc).2.mgr.pool.isCreated = false ∧
        (w.fillPool (clampPoolSize n) alloc).2.mgr.pool.pool = .null) ∨
      ((w.fillPool (clampPoolSize n) alloc).2.mgr.pool.isCreated = true ∧
        (producers (w.fillPool (clampPoolSize n) alloc).2.mgr.pool).length =
          (w.fillPool (clampPoolSize n) alloc).2.mgr.pool.nPoolSize ∧
        FlaggedWith w.mgr.bUseTopic w.mgr.bClientAck
          (w.fillPool (clampPoolSize n) alloc).2.mgr.pool) := by
  unfold MgrWorld.fillPool ProducerPool.createPool
  simp only [clampPoolSize_guard, if_false]
  cases alloc with
  | badAlloc what =>
      left
      refine ⟨hnot, ?_⟩
      show w.mgr.pool.pool.release = .null
      rw [hnull]
      rfl
  | ok =>
      right
      refine ⟨rfl, List.length_replicate, ?_⟩
      intro e he
      obtain rfl := List.eq_of_mem_replicate he
      exact ⟨rfl, rfl⟩

/-- A pool without an array has no producer. -/
theorem flaggedWith_of_null {t a : Bool} {p : ProducerPool} (hnull : p.pool = .null) :
    FlaggedWith t a p := by
  intro e he
  unfold producers at he
  rw [hnull] at he
  cases he

/-- Whatever producers it leaves have the flags of the members. -/
theorem flaggedWith_fillPool (hnull : w.mgr.pool.pool = .null)
    (hnot : w.mgr.pool.isCreated = false) :
    FlaggedWith w.mgr.bUseTopic w.mgr.bClientAck
      (w.fillPool (clampPoolSize n) alloc).2.mgr.pool := by
  obtain ⟨-, hnull'⟩ | ⟨-, -, hflags⟩ := fillPool_pool hnull hnot
  · exact flaggedWith_of_null hnull'
  · exact hflags

/-! ## The states that calls of `CreatePool` lead to -/

/-- A pool that is not created has no array.  One that is created has an array of the size it says,
and its producers have the flags of the members. -/
def FlagsKept (w : MgrWorld) : Prop :=
  (w.mgr.pool.isCreated = false ∧ w.mgr.pool.pool = .null) ∨
    (w.mgr.pool.isCreated = true ∧ (producers w.mgr.pool).length = w.mgr.pool.nPoolSize ∧
      FlaggedWith w.mgr.bUseTopic w.mgr.bClientAck w.mgr.pool)

theorem flagsKept_fillPool (hnull : w.mgr.pool.pool = .null)
    (hnot : w.mgr.pool.isCreated = false) :
    FlagsKept (w.fillPool (clampPoolSize n) alloc).2 := by
  unfold FlagsKept
  rw [fillPool_flags.1, fillPool_flags.2]
  exact fillPool_pool hnull hnot

theorem flagsKept_createPool (h : FlagsKept w) (c : CreateCall) (alloc : Alloc) :
    FlagsKept (w.createPool c alloc).2 := by
  obtain ⟨hnot, hnull⟩ | hcreated := h
  · cases c with
    | short n b d =>
        simp only [MgrWorld.createPool, MgrWorld.createPoolShort, hnot, Bool.false_eq_true,
          if_false]
        split
        · exact .inl ⟨hnot, hnull⟩
        · exact flagsKept_fillPool hnull hnot
    | full n b d t a =>
        simp only [MgrWorld.createPool, MgrWorld.createPoolFull, hnot, Bool.false_eq_true,
          if_false]
        exact flagsKept_fillPool hnull hnot
  · rw [createPool_of_created c alloc hcreated.1]
    exact .inr hcreated

theorem flagsKept_of_run {calls : List (CreateCall × Alloc)}
    (hrun : MgrWorld.machine.run .new (createCalls calls) = some w) : FlagsKept w := by
  have hcreate : MgrWorld.machine.Meets (fun _ op => ∃ c alloc, op = .createPool c alloc) .new
      (createCalls calls) := by
    apply Machine.meets_of_forall
    intro op hop _
    obtain ⟨x, -, rfl⟩ := List.mem_map.mp hop
    exact ⟨x.1, x.2, rfl⟩
  refine Machine.run_inv_of_meets (I := FlagsKept) ?_ (.inl ⟨rfl, rfl⟩) hcreate hrun
  rintro u op u' hu ⟨c, alloc, rfl⟩ hstep
  cases hstep
  exact flagsKept_createPool hu c alloc

/-! ## The comparison -/

/-- On a created pool both calls do nothing but set the error text. -/
theorem overloadsAgree_of_created (hcreated : w.mgr.pool.isCreated = true) :
    OverloadsAgree w n b d alloc ↔ FlaggedWith false true w.mgr.pool := by
  have hshort := createPool_of_created (.short n b d) alloc hcreated
  have hfull := createPool_of_created (.full n b d false true) alloc hcreated
  simp only [MgrWorld.createPool] at hshort hfull
  unfold OverloadsAgree
  rw [hshort, hfull]
  exact ⟨fun h => h.2, fun h => ⟨rfl, h⟩⟩

/-- The texts that the two calls leave when a URI is empty and the allocation fails. -/
theorem empty_uri_text_ne (what : String) : "in CreatePool, broker or destination URI empty" ≠
    "in CreatePool, exception occured, " ++ ("In CreatePool(), " ++ what) := by
  intro h
  have hchars := congrArg (fun s => s.toList[15]?) h
  simp [String.toList_append] at hchars

/-- With an empty URI they differ: one call refuses what the other does not look at. -/
theorem not_overloadsAgree_of_empty (hnot : w.mgr.pool.isCreated = false)
    (hempty : (b.isEmpty || d.isEmpty) = true) : ¬ OverloadsAgree w n b d alloc := by
  rintro ⟨heq, -⟩
  simp only [MgrWorld.createPoolShort, MgrWorld.createPoolFull, hnot, Bool.false_eq_true, if_false,
    hempty, if_true] at heq
  cases alloc with
  | ok =>
      have hresult := congrArg Prod.fst heq
      rw [fillPool_result] at hresult
      cases hresult
  | badAlloc what =>
      have htext := congrArg (fun x => x.2.mgr.strError) heq
      rw [fillPool_strError] at htext
      exact empty_uri_text_ne what htext

/-- With both URIs there, what is left is the flags: one call takes the members, the other its
arguments. -/
theorem overloadsAgree_of_uris (hnull : w.mgr.pool.pool = .null)
    (hnot : w.mgr.pool.isCreated = false) (huris : (b.isEmpty || d.isEmpty) = false) :
    OverloadsAgree w n b d alloc ↔ w.mgr.bUseTopic = false ∧ w.mgr.bClientAck = true := by
  unfold OverloadsAgree
  simp only [MgrWorld.createPoolShort, MgrWorld.createPoolFull, hnot, Bool.false_eq_true, if_false,
    huris]
  constructor
  · rintro ⟨heq, -⟩
    have htopic := congrArg (fun x => x.2.mgr.bUseTopic) heq
    have hack := congrArg (fun x => x.2.mgr.bClientAck) heq
    simp only [fillPool_flags] at htopic hack
    exact ⟨htopic, hack⟩
  · rintro ⟨htopic, hack⟩
    constructor
    · rw [← htopic, ← hack]
    · exact flaggedWith_fillPool hnull hnot

/-- Producers with the flags of the members have other flags as well only if there are none of
them. -/
theorem flaggedWith_iff {p : ProducerPool} {t a : Bool} (hflags : FlaggedWith t a p) :
    FlaggedWith false true p ↔ (t = false ∧ a = true) ∨ (producers p).length = 0 := by
  constructor
  · intro h
    by_cases hlength : (producers p).length = 0
    · exact .inr hlength
    · left
      obtain ⟨e, he⟩ := List.exists_mem_of_length_pos (Nat.pos_of_ne_zero hlength)
      exact ⟨(hflags e he).1.symm.trans (h e he).1, (hflags e he).2.symm.trans (h e he).2⟩
  · rintro (⟨rfl, rfl⟩ | hlength)
    · exact hflags
    · intro e he
      rw [List.length_eq_zero_iff.mp hlength] at he
      cases he

/-- **When the two overloads agree.**  In every state that calls of the two overloads lead to,
whether their allocations failed or not, and for every size and all URIs:
`CreatePool(n, broker, dest)` and `CreatePool(n, broker, dest, false, true)` return the same and
lead to the same state, in which every producer is configured for a queue and for client
acknowledgement, if and only if the members still are so configured and the pool is created or the
URIs are not empty, or a pool without any producer is created. -/
theorem create_overloads_agree_iff {calls : List (CreateCall × Alloc)} {w : MgrWorld}
    (hrun : MgrWorld.machine.run .new (createCalls calls) = some w)
    (n : UInt32) (b d : String) (alloc : Alloc) :
    OverloadsAgree w n b d alloc ↔
      (w.mgr.bUseTopic = false ∧ w.mgr.bClientAck = true ∧
        (w.mgr.pool.isCreated = true ∨ (b ≠ "" ∧ d ≠ ""))) ∨
      (w.mgr.pool.isCreated = true ∧ w.mgr.pool.nPoolSize = 0) := by
  obtain ⟨hnot, hnull⟩ | ⟨hcreated, hlength, hflags⟩ := flagsKept_of_run hrun
  · have huris : (b.isEmpty || d.isEmpty) = false ↔ b ≠ "" ∧ d ≠ "" := by
      simp
    cases hne : b.isEmpty || d.isEmpty with
    | false =>
        rw [overloadsAgree_of_uris hnull hnot hne, hnot]
        have hboth := huris.mp hne
        simp [hboth]
    | true =>
        have hnone : ¬ (b ≠ "" ∧ d ≠ "") := by
          intro h
          rw [huris.mpr h] at hne
          cases hne
        have hdiffer : ¬ OverloadsAgree w n b d alloc := not_overloadsAgree_of_empty hnot hne
        simp only [hdiffer, hnot, hnone, Bool.false_eq_true, false_and, and_false, or_false]
  · rw [overloadsAgree_of_created hcreated, flaggedWith_iff hflags, hlength]
    simp only [hcreated, true_or, and_true, true_and]

/-- On a new manager the two calls agree. -/
theorem create_overloads_agree_first :
    OverloadsAgree .new 5 "broker" "orders" .ok := by
  have hrun : MgrWorld.machine.run .new (createCalls []) = some .new := rfl
  apply (create_overloads_agree_iff hrun 5 "broker" "orders" .ok).mpr
  left
  exact ⟨rfl, rfl, .inr ⟨by decide, by decide⟩⟩

/-- **The two overloads do not always agree**: the call with a topic runs out of memory, and then
the call without modes makes producers for a topic. -/
theorem short_overload_makes_topic_producers :
    MgrWorld.machine.run .new (createCalls [(.full 5 "broker" "orders" true true, .badAlloc "oom")])
        = some (MgrWorld.new.createPoolFull 5 "broker" "orders" true true (.badAlloc "oom")).2 ∧
      ∀ w, w = (MgrWorld.new.createPoolFull 5 "broker" "orders" true true (.badAlloc "oom")).2 →
        (w.createPoolShort 5 "broker" "orders" .ok).1 = true ∧
        (producers (w.createPoolShort 5 "broker" "orders" .ok).2.mgr.pool).map
          (fun e => e.busetopic) = [true, true, true, true, true] ∧
        ¬ OverloadsAgree w 5 "broker" "orders" .ok := by
  refine ⟨rfl, ?_⟩
  rintro w rfl
  refine ⟨by decide, by decide, ?_⟩
  rintro ⟨heq, -⟩
  have htopic := congrArg (fun x => x.2.mgr.bUseTopic) heq
  revert htopic
  decide

end DsAmq.Analysis
