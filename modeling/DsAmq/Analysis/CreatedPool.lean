import DsAmq.Analysis.PoolItems

/-!
# From a new manager to a created pool

`CreatedBy w₀ c w` says how a manager `w` with a created pool comes about: any calls on a new
manager lead to `w₀`, whose pool is not created; the call `c` of `CreatePool` creates it; and
calls of `CreateSessionPool` and `ReleaseResource`, if any, lead on to `w`.  Its pool is then a
pool of the clamped size in which every element is idle and configured for the destination that
was handed to the pool (`createdBy_spec`).
-/

set_option autoImplicit false

namespace DsAmq.Analysis

open DsAmq.Model

/-! ## The calls that leave the pool alone -/

@[simp] theorem deleteConnection_mgr (w : MgrWorld) : w.deleteConnection.mgr = w.mgr := by
  unfold MgrWorld.deleteConnection
  split <;> rfl

@[simp] theorem deleteResourcemgr_mgr (w : MgrWorld) : w.deleteResourcemgr.mgr = w.mgr := by
  unfold MgrWorld.deleteResourcemgr
  split <;> rfl

@[simp] theorem addConnection_mgr (w : MgrWorld) : w.addConnection.mgr = w.mgr := by
  unfold MgrWorld.addConnection
  split <;> rfl

@[simp] theorem setError_pool (w : MgrWorld) (e : String) :
    (w.setError e).mgr.pool = w.mgr.pool := rfl

@[simp] theorem setStarted_pool (w : MgrWorld) (b : Bool) :
    (w.setStarted b).mgr.pool = w.mgr.pool := rfl

@[simp] theorem nullConnection_pool (w : MgrWorld) :
    w.nullConnection.mgr.pool = w.mgr.pool := rfl

@[simp] theorem nullResourcemgr_pool (w : MgrWorld) :
    w.nullResourcemgr.mgr.pool = w.mgr.pool := rfl

@[simp] theorem createConnection_pool (w : MgrWorld) :
    w.createConnection.mgr.pool = w.mgr.pool := rfl

@[simp] theorem newResourcemgr_pool (w : MgrWorld) :
    w.newResourcemgr.mgr.pool = w.mgr.pool := rfl

@[simp] theorem resetSessionpool_pool (w : MgrWorld) :
    w.resetSessionpool.mgr.pool = w.mgr.pool := by
  unfold MgrWorld.resetSessionpool
  split <;> rfl

@[simp] theorem dropConnection_pool (w : MgrWorld) :
    w.dropConnection.mgr.pool = w.mgr.pool := by
  unfold MgrWorld.dropConnection
  split <;> simp

@[simp] theorem dropResourcemgr_pool (w : MgrWorld) :
    w.dropResourcemgr.mgr.pool = w.mgr.pool := by
  unfold MgrWorld.dropResourcemgr
  split <;> simp

@[simp] theorem connectFailed_pool (w : MgrWorld) (msg : String) :
    (w.connectFailed msg).2.mgr.pool = w.mgr.pool := by
  unfold MgrWorld.connectFailed
  dsimp only
  split <;> simp

@[simp] theorem createSessionPool_pool (w : MgrWorld) (o : ConnectOutcomes) :
    (w.createSessionPool o).2.mgr.pool = w.mgr.pool := by
  unfold MgrWorld.createSessionPool
  dsimp only
  split
  · simp
  · split
    · rfl
    · split
      · simp
      · split
        · simp
        · split <;> simp

@[simp] theorem releaseResource_pool (w : MgrWorld) :
    w.releaseResource.mgr.pool = w.mgr.pool := dropResourcemgr_pool w

/-! ## A pool that is created stays created -/

theorem isCreated_createPoolItem {p p' : ProducerPool} {o : Option ℕ}
    (h : p.createPoolItem = .ok (o, p')) : p'.isCreated = p.isCreated := by
  rcases createPoolItem_eq_ok h with ⟨-, rfl⟩ | ⟨k, a, -, -, -, rfl⟩
  · rfl
  · rfl

theorem isCreated_freePoolItem {p p' : ProducerPool} {k : ℕ}
    (h : p.freePoolItem (some k) = .ok p') : p'.isCreated = p.isCreated := by
  rcases freePoolItem_eq_ok h with rfl | ⟨i, a, u, -, rfl⟩
  · rfl
  · rfl

theorem isCreated_onItem {p p' : ProducerPool} {α : Type} {k : ℕ} {f : Producer → α × Producer}
    {a : α} (h : p.onItem k f = .ok (a, p')) : p'.isCreated = p.isCreated := by
  obtain ⟨elems, e, -, -, -, rfl⟩ := onItem_eq_ok.mp h
  rfl

theorem isCreated_sendOn (w : MgrWorld) (s : SessionId) (msg : String) (o : MgrSendOutcomes) :
    (w.sendOn s msg o).2.1.mgr.pool.isCreated = w.mgr.pool.isCreated := by
  unfold MgrWorld.sendOn
  split
  · rfl
  · rename_i pool hcreate
    have := isCreated_createPoolItem hcreate
    dsimp only
    split <;> exact this
  · rename_i k pool hcreate
    have hpool := isCreated_createPoolItem hcreate
    dsimp only
    split
    · exact hpool
    · rename_i bSent error sent pool' hitem
      have hpool' := (isCreated_onItem hitem).trans hpool
      split
      · split <;> exact hpool'
      · split
        · split <;> exact hpool'
        · rename_i pool'' hfree
          have hfree' := isCreated_freePoolItem hfree
          have : ∀ b : Bool, (if b then { w with mgr.pool := pool' } else
              ({ w with mgr.pool := pool' } : MgrWorld).setError
                ("fail to sendmessage, " ++ error)).mgr.pool = pool' := by
            intro b
            cases b <;> rfl
          rw [this] at hfree'
          exact hfree'.trans hpool'

theorem isCreated_sendmessage (w : MgrWorld) (msg : String) (o : MgrSendOutcomes) :
    (w.sendmessage msg o).2.1.mgr.pool.isCreated = w.mgr.pool.isCreated := by
  have hconnect : (w.sendConnect o.connect).2.mgr.pool = w.mgr.pool := by
    unfold MgrWorld.sendConnect
    split
    · rfl
    · exact createSessionPool_pool w o.connect
  unfold MgrWorld.sendmessage
  dsimp only
  split
  · rfl
  · split
    · rw [← hconnect]
      unfold MgrWorld.sendTake
      split
      · rfl
      · rfl
      · rfl
      · exact isCreated_sendOn _ _ _ _
    · rw [hconnect]

/-! ## The pool that `CreatePool` makes -/

theorem toNat_clampPoolSize (m : UInt32) : (clampPoolSize m).toNat = min m.toNat 50 := by
  unfold clampPoolSize
  split
  · rename_i h
    have : 50 < m.toNat := by simpa [UInt32.lt_iff_toNat_lt] using h
    simp
    omega
  · rename_i h
    have : ¬ 50 < m.toNat := by simpa [UInt32.lt_iff_toNat_lt] using h
    omega

/-- The manager clamps the size, so that the guard of the pool does not reject it. -/
theorem clampPoolSize_guard (m : UInt32) :
    ¬ wrap32 (((clampPoolSize m).toNat / 8 + 1) * 8) > maxBitsetSize := by
  have hsize := toNat_clampPoolSize m
  unfold wrap32 maxBitsetSize
  omega

/-- `CreatePool` of the manager, on a pool that is not created: it fails and leaves the pool as
idle as it was, or it creates a pool of the clamped size. -/
theorem fillPool_cases {w : MgrWorld} {m : UInt32} {alloc : Alloc} (hidle : Idle w.mgr.pool)
    (hnot : w.mgr.pool.isCreated = false) :
    ((w.fillPool (clampPoolSize m) alloc).1 = false ∧
        (w.fillPool (clampPoolSize m) alloc).2.mgr.pool.isCreated = false ∧
        Idle (w.fillPool (clampPoolSize m) alloc).2.mgr.pool) ∨
      ((w.fillPool (clampPoolSize m) alloc).1 = true ∧
        Slots (min m.toNat 50) [] (w.fillPool (clampPoolSize m) alloc).2.mgr.pool ∧
        Configured (Destination.select w.mgr.bUseTopic w.mgr.strDestURI)
          (w.fillPool (clampPoolSize m) alloc).2.mgr.pool.pool) := by
  have hsize := toNat_clampPoolSize m
  have hm : (clampPoolSize m).toNat < maxBitsetSize := by
    unfold maxBitsetSize
    omega
  unfold MgrWorld.fillPool
  cases alloc with
  | badAlloc what =>
      simp only [ProducerPool.createPool, clampPoolSize_guard, if_false]
      exact .inl ⟨trivial, hnot, hidle⟩
  | ok =>
      obtain ⟨hret, hslots, hconf⟩ := slots_createPool (b := w.mgr.strBrokerURI)
        (u := w.mgr.strDestURI) (t := w.mgr.bUseTopic) (a := w.mgr.bClientAck) hidle hm
      rw [hsize] at hslots
      simp only [hret]
      exact .inr ⟨trivial, hslots, hconf⟩

/-- The destination that a call of `CreatePool` hands on to the pool of the manager `m`. -/
def givenDestination (m : ProducerPoolMgr) (c : CreateCall) : Destination :=
  Destination.select (c.useTopic m) c.strDestURI

/-- What a call of `CreatePool` does to a pool that is not created. -/
theorem createPool_cases {w : MgrWorld} {c : CreateCall} {alloc : Alloc}
    (hidle : Idle w.mgr.pool) (hnot : w.mgr.pool.isCreated = false) :
    ((w.createPool c alloc).1 = false ∧ (w.createPool c alloc).2.mgr.pool.isCreated = false ∧
        Idle (w.createPool c alloc).2.mgr.pool) ∨
      ((w.createPool c alloc).1 = true ∧
        Slots (min c.nPoolSize.toNat 50) [] (w.createPool c alloc).2.mgr.pool ∧
        Configured (givenDestination w.mgr c) (w.createPool c alloc).2.mgr.pool.pool) := by
  cases c with
  | short n b u =>
      simp only [MgrWorld.createPool, MgrWorld.createPoolShort, hnot, Bool.false_eq_true, if_false]
      split
      · exact .inl ⟨rfl, hnot, hidle⟩
      · exact fillPool_cases hidle hnot
  | full n b u t a =>
      simp only [MgrWorld.createPool, MgrWorld.createPoolFull, hnot, Bool.false_eq_true, if_false]
      exact fillPool_cases hidle hnot

theorem createPool_of_created {w : MgrWorld} (c : CreateCall) (alloc : Alloc)
    (h : w.mgr.pool.isCreated = true) :
    w.createPool c alloc = (true, w.setError "in CreatePool, already created pool") := by
  cases c with
  | short n b u => simp only [MgrWorld.createPool, MgrWorld.createPoolShort, h, if_true]
  | full n b u t a => simp only [MgrWorld.createPool, MgrWorld.createPoolFull, h, if_true]

/-- Whatever is called on a new manager, a pool that is not created is idle. -/
theorem idle_of_run {ops : List MgrOp} {w : MgrWorld}
    (h : MgrWorld.machine.run .new ops = some w) (hnot : w.mgr.pool.isCreated = false) :
    Idle w.mgr.pool := by
  suffices hinv : w.mgr.pool.isCreated = true ∨ Idle w.mgr.pool by
    rcases hinv with hc | hidle
    · rw [hc] at hnot
      cases hnot
    · exact hidle
  refine Library.Machine.run_inv (I := fun w => w.mgr.pool.isCreated = true ∨ Idle w.mgr.pool)
    ?_ (.inr ⟨rfl, fun _ => rfl⟩) h
  intro w op w' hinv hstep
  cases hstep
  cases op with
  | createPool c alloc =>
      cases hc : w.mgr.pool.isCreated with
      | true =>
          left
          simp only [MgrOp.exec, createPool_of_created c alloc hc, setError_pool, hc]
      | false =>
          have hidle : Idle w.mgr.pool := by simpa [hc] using hinv
          rcases createPool_cases hidle hc with ⟨-, -, hidle'⟩ | ⟨-, hslots, -⟩
          · exact .inr hidle'
          · exact .inl hslots.created
  | createSessionPool o => simpa only [MgrOp.exec, createSessionPool_pool] using hinv
  | releaseResource => simpa only [MgrOp.exec, releaseResource_pool] using hinv
  | sendmessage msg o =>
      cases hc : w.mgr.pool.isCreated with
      | true =>
          left
          simp only [MgrOp.exec, isCreated_sendmessage, hc]
      | false =>
          have hidle : Idle w.mgr.pool := by simpa [hc] using hinv
          right
          simpa only [MgrOp.exec, MgrWorld.sendmessage, hc, Bool.not_false, if_true,
            setError_pool] using hidle

/-- The call is one of `CreateSessionPool` or `ReleaseResource`. -/
def IsConnectionOp : MgrOp → Prop
  | .createSessionPool _ => True
  | .releaseResource => True
  | _ => False

/-- The manager `w` has the pool that the call `c` created: `c` was made on `w₀`, a state that
some calls on a new manager lead to and in which no pool is created, and was followed by calls
of `CreateSessionPool` and `ReleaseResource` at most. -/
def CreatedBy (w₀ : MgrWorld) (c : CreateCall) (w : MgrWorld) : Prop :=
  w₀.mgr.pool.isCreated = false ∧ (∃ ops, MgrWorld.machine.run .new ops = some w₀) ∧
    ∃ alloc ops', (w₀.createPool c alloc).1 = true ∧ (∀ op ∈ ops', IsConnectionOp op) ∧
      MgrWorld.machine.run (w₀.createPool c alloc).2 ops' = some w

/-- **The created pool.**  It has the clamped size, all its elements are idle, and they are
configured for the destination that was given to the pool. -/
theorem createdBy_spec {w₀ w : MgrWorld} {c : CreateCall} (h : CreatedBy w₀ c w) :
    Slots (min c.nPoolSize.toNat 50) [] w.mgr.pool ∧
      Configured (givenDestination w₀.mgr c) w.mgr.pool.pool := by
  obtain ⟨hnot, ⟨ops, hrun₀⟩, alloc, ops', htrue, hops, hrun⟩ := h
  have hcreated : Slots (min c.nPoolSize.toNat 50) [] (w₀.createPool c alloc).2.mgr.pool ∧
      Configured (givenDestination w₀.mgr c) (w₀.createPool c alloc).2.mgr.pool.pool := by
    rcases createPool_cases (idle_of_run hrun₀ hnot) hnot with ⟨hfalse, -⟩ | ⟨-, h⟩
    · rw [hfalse] at htrue
      cases htrue
    · exact h
  have hpool : w.mgr.pool = (w₀.createPool c alloc).2.mgr.pool := by
    refine Library.Machine.run_inv_of_meets
      (I := fun w => w.mgr.pool = (w₀.createPool c alloc).2.mgr.pool) ?_ rfl
      (Library.Machine.meets_of_forall _ fun op hop _ => hops op hop) hrun
    intro u op u' hu hop hstep
    cases hstep
    cases op with
    | createPool c alloc => cases hop
    | sendmessage msg o => cases hop
    | createSessionPool o => simpa only [MgrOp.exec, createSessionPool_pool] using hu
    | releaseResource => simpa only [MgrOp.exec, releaseResource_pool] using hu
  rw [hpool]
  exact hcreated

end DsAmq.Analysis
