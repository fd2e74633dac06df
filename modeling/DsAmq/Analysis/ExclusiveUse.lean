import DsAmq.Analysis.SendSteps
import DsAmq.Library.Threads

/-!
# Exclusive use of the pooled producers

In every state that concurrent `sendmessage` calls can reach from a created pool, the elements
that are handed out are exactly those held by a call, each by one call only (`exclusive_use`).

The invariant is `Owned`: the pool satisfies `Slots` for the list of the elements held by the
calls.  `move_owned` says how one step of a call moves that list; the step lemma `owned_step` puts
it together with the list of the calls, and the invariant rule does the rest.
-/

set_option autoImplicit false

namespace DsAmq.Analysis

open DsAmq.Model DsAmq.Library

/-- The elements held by the calls. -/
def held (s : SendSystem) : List ℕ := s.calls.filterMap holds

/-- The call `t` holds the element at `k`. -/
def Holds (s : SendSystem) (t k : ℕ) : Prop := ∃ c, s.calls[t]? = some c ∧ holds c = some k

/-- How many calls hold an element. -/
def holders (s : SendSystem) : ℕ := s.calls.countP fun c => (holds c).isSome

variable {n t : ℕ} {d : Destination} {g g' : Shared} {c c' : Call} {hs : List ℕ}
  {s s' : SendSystem}

theorem Placed.of_before (h : Placed c) (hpc : BeforeProducer c.pc) : c.producer = none := by
  unfold Placed at h
  unfold BeforeProducer at hpc
  cases hc : c.pc <;> simp_all

theorem holds_of_producer_none (h : c.producer = none) : holds c = none := by
  unfold holds
  split
  · rfl
  · rfl
  · exact h

/-- Only the error text of the pool differs. -/
theorem slots_setError {p : ProducerPool} (h : Slots n hs p) (e : String) :
    Slots n hs { p with strError := e } := { h with }

/-- A statement of a producer that works on its element finds it in the array. -/
theorem onProducer_of_slots {k : ℕ} {f : Producer → ProducerPc × Producer}
    (h : Slots n hs g.world.mgr.pool) (hc : Configured d g.world.mgr.pool.pool) (hk : k ∈ hs)
    (hidx : ∀ e, (f e).2.nposition = e.nposition)
    (hdest : ∀ e, SendsTo d e → SendsTo d (f e).2) :
    ∃ e p', SendsTo d e ∧ g.onProducer k f = (g.setPool p', (f e).1) ∧ Slots n hs p' ∧
      Configured d p'.pool := by
  obtain ⟨e, p', hsends, hitem, hslots, hconf⟩ := onItem_of_slots h hc hk hidx hdest
  refine ⟨e, p', hsends, ?_, hslots, hconf⟩
  simp [Shared.onProducer, Shared.onItem, hitem, Except.map]

/-- One step of `CDSAMQProducer::sendmessage` keeps the pool. -/
theorem producerMove_owned {k : ℕ} {session : Option SessionId} {msg : String}
    {pc pc' : ProducerPc} (h : Slots n hs g.world.mgr.pool)
    (hc : Configured d g.world.mgr.pool.pool) (hk : k ∈ hs)
    (hmove : ProducerMove t k session msg g pc g' pc') :
    Slots n hs g'.world.mgr.pool ∧ Configured d g'.world.mgr.pool.pool := by
  cases hmove with
  | item f hres hidx hdest hnext hpc =>
      obtain ⟨e, p', -, heq, hslots, hconf⟩ := onProducer_of_slots h hc hk hidx (hdest d)
      rw [hres, Prod.mk.injEq] at heq
      rw [heq.1]
      exact ⟨hslots, hconf⟩
  | nonempty hne => exact ⟨h, hc⟩
  | setDeliveryMode hsession => exact ⟨h, hc⟩
  | createTextMessage => exact ⟨h, hc⟩
  | send hsession => exact ⟨h, hc⟩

/-- A step that leaves the pool alone, and what the call holds. -/
theorem owned_of_sameSends (h : Slots n hs g.world.mgr.pool)
    (hc : Configured d g.world.mgr.pool.pool) (hsame : SameSends g g')
    (hholds : holds c' = holds c) :
    ∃ hs', Slots n hs' g'.world.mgr.pool ∧ Configured d g'.world.mgr.pool.pool ∧
      ((holds c).toList ++ hs').Perm ((holds c').toList ++ hs) := by
  refine ⟨hs, ?_, ?_, ?_⟩
  · rw [hsame.pool]
    exact h
  · rw [hsame.pool]
    exact hc
  · rw [hholds]

/-- **One step of a call**: the held elements lose what the call held before and gain what it
holds after. -/
theorem move_owned (h : Slots n hs g.world.mgr.pool) (hc : Configured d g.world.mgr.pool.pool)
    (hplaced : Placed c) (hmem : ∀ k, holds c = some k → k ∈ hs) (hmove : Move t g c g' c') :
    Placed c' ∧ ∃ hs', Slots n hs' g'.world.mgr.pool ∧ Configured d g'.world.mgr.pool.pool ∧
      ((holds c).toList ++ hs').Perm ((holds c').toList ++ hs) := by
  cases hmove with
  | before hpc hpc' hsame hproducer hmsg =>
      have hnone : c.producer = none := hplaced.of_before hpc
      have hnone' : c'.producer = none := by rw [hproducer, hnone]
      constructor
      · unfold Placed
        rcases hpc' with hpc' | hpc' | hpc'
        · unfold BeforeProducer at hpc'
          cases hc' : c'.pc <;> simp_all
        · simp only [hpc']
        · simp only [hpc']
      · apply owned_of_sameSends h hc hsame
        rw [holds_of_producer_none hnone, holds_of_producer_none hnone']
  | create hpc hcreate =>
      have hnone : c.producer = none := hplaced.of_before (by rw [hpc]; trivial)
      have hconf := configured_createPoolItem hc hcreate
      refine ⟨trivial, ?_⟩
      rw [holds_of_producer_none hnone]
      rcases createPoolItem_cases h with ⟨-, hnull⟩ | ⟨-, k, p', -, -, hsome, hslots⟩
      · rw [hcreate] at hnull
        cases hnull
        exact ⟨hs, slots_setError h _, hconf, List.Perm.refl _⟩
      · rw [hcreate] at hsome
        cases hsome
        exact ⟨k :: hs, hslots, hconf, List.Perm.refl _⟩
  | unlockCreate hpc hsame =>
      constructor
      · cases hp : c.producer <;> simp [Placed, Call.goto, hp]
      · apply owned_of_sameSends h hc hsame
        cases hp : c.producer <;> simp [holds, Call.goto, hpc, hp]
  | @overflow g' pc' hpc hpc' hsame =>
      have hnone : c.producer = none := by simpa [Placed, hpc] using hplaced
      have hnone' : (c.goto pc').producer = none := hnone
      constructor
      · rcases hpc' with rfl | ⟨msg, rfl⟩ <;> trivial
      · apply owned_of_sameSends h hc hsame
        rw [holds_of_producer_none hnone, holds_of_producer_none hnone']
  | @producer k g' pc pc' hpc hk hmove =>
      have hholds : holds c = some k := by simp only [holds, hpc, hk]
      obtain ⟨hslots, hconf⟩ := producerMove_owned h hc (hmem k hholds) hmove
      refine ⟨by simp [Placed, Call.goto, hk], hs, hslots, hconf, ?_⟩
      simp [holds, Call.goto, hpc]
  | sent hpc hsame =>
      constructor
      · simpa [Placed, hpc] using hplaced
      · apply owned_of_sameSends h hc hsame
        simp [holds, hpc]
  | closing hpc hpc' hsame =>
      have hsome : c.producer.isSome = true := by
        rcases hpc with hpc | hpc <;> simpa [Placed, hpc] using hplaced
      constructor
      · rcases hpc' with rfl | rfl | ⟨msg, rfl⟩ <;> simp [Placed, Call.goto, hsome]
      · apply owned_of_sameSends h hc hsame
        rcases hpc with hpc | hpc <;> rcases hpc' with rfl | rfl | ⟨msg, rfl⟩ <;>
          simp [holds, Call.goto, hpc]
  | @free k pool hpc hk hfree =>
      have hholds : holds c = some k := by simp only [holds, hpc, hk]
      obtain ⟨p', hfree', hslots⟩ := freePoolItem_of_mem h (hmem k hholds)
      have hconf := configured_freePoolItem hc hfree
      rw [hfree] at hfree'
      cases hfree'
      refine ⟨trivial, hs.erase k, hslots, hconf, ?_⟩
      rw [hholds]
      exact (List.perm_cons_erase (hmem k hholds)).symm
  | unlockFree hpc hsame =>
      refine ⟨trivial, owned_of_sameSends h hc hsame ?_⟩
      simp [holds, Call.goto, hpc]

/-! ## The invariant of the system -/

/-- The pool of `n` elements, all configured for `d`, is owned by the calls. -/
structure Owned (n : ℕ) (d : Destination) (s : SendSystem) : Prop where
  slots : Slots n (held s) s.shared.world.mgr.pool
  configured : Configured d s.shared.world.mgr.pool.pool
  placed : ∀ (t : ℕ) c, s.calls[t]? = some c → Placed c

theorem mem_held (hc : s.calls[t]? = some c) {k : ℕ} (hk : holds c = some k) : k ∈ held s :=
  List.mem_filterMap.mpr ⟨c, List.mem_of_getElem? hc, hk⟩

/-- In a state that satisfies the invariant, the step of a call is a `Move`. -/
theorem Owned.move {r : Reply} (h : Owned n d s) (hc : s.calls[t]? = some c)
    (hstep : c.step t s.shared r = some (g', c')) : Move t s.shared c g' c' :=
  move_of_step h.slots (h.placed t c hc) (fun _ hk => mem_held hc hk) hstep

/-- **The step lemma.** -/
theorem owned_step {a : SendAction} (h : Owned n d s) (hstep : s.step a = some s') :
    Owned n d s' := by
  cases a with
  | begin msg =>
      cases hstep
      refine ⟨?_, h.configured, ?_⟩
      · have : held { s with calls := s.calls ++ [Call.new msg] } = held s := by
          simp [held, List.filterMap_append, holds, Call.new]
        rw [this]
        exact h.slots
      · exact Threads.forall_append (P := fun _ c => Placed c) rfl h.placed
  | act t r =>
      obtain ⟨c, g', c', hc, hcall, rfl⟩ := act_eq_some hstep
      have hmove := h.move hc hcall
      obtain ⟨hplaced, hs', hslots, hconf, hperm⟩ := move_owned h.slots h.configured
        (h.placed t c hc) (fun k hk => mem_held hc hk) hmove
      refine ⟨?_, hconf, ?_⟩
      · -- both lists come from the old one by exchanging what `t` holds
        have hset := Threads.filterMap_set_perm (b := c') holds hc
        exact slots_perm hslots ((List.perm_append_left_iff _).mp (hperm.trans hset.symm))
      · exact Threads.forall_set (P := fun _ c => Placed c) hc hplaced
          fun i x _ hx => h.placed i x hx

/-- The invariant holds in every state that the calls reach. -/
theorem owned_of_run {w₀ w : MgrWorld} {cr : CreateCall}
    {modes : SessionId → Destination → DeliveryMode} {as : List SendAction}
    (hcreated : CreatedBy w₀ cr w)
    (hrun : SendSystem.machine.run (.init w modes) as = some s) :
    Owned (min cr.nPoolSize.toNat 50) (givenDestination w₀.mgr cr) s := by
  obtain ⟨hslots, hconf⟩ := createdBy_spec hcreated
  have hinit : Owned (min cr.nPoolSize.toNat 50) (givenDestination w₀.mgr cr) (.init w modes) :=
    ⟨hslots, hconf, by simp [SendSystem.init]⟩
  refine Machine.run_inv ?_ hinit hrun
  intro s a s' h hstep
  exact owned_step h hstep

/-- The call at `CreatePoolItem` gets its answer, and it is NULL exactly when all elements are
held. -/
theorem createPoolItem_answer (h : Owned n d s) (hc : s.calls[t]? = some c)
    (hpc : c.pc = .createPoolItem) :
    ∃ s' c', s.step (.act t .tau) = some s' ∧ s'.calls[t]? = some c' ∧ c'.pc = .unlockCreate ∧
      (c'.producer = none ↔ (held s).length = n) := by
  have hlt : t < s.calls.length := (List.getElem?_eq_some_iff.mp hc).1
  have hstep : ∀ o pool, s.shared.world.mgr.pool.createPoolItem = .ok (o, pool) →
      s.step (.act t .tau) = some ⟨s.shared.setPool pool,
        s.calls.set t { c with producer := o, pc := .unlockCreate }⟩ := by
    intro o pool hcreate
    simp only [SendSystem.step, hc, Call.step, hpc, Call.createPoolItem, hcreate,
      Option.map_some]
  rcases createPoolItem_cases h.slots with ⟨hlen, hcreate⟩ | ⟨hlen, k, p', -, -, hcreate, -⟩
  · exact ⟨_, _, hstep none _ hcreate, List.getElem?_set_self hlt, rfl, by simp [hlen]⟩
  · refine ⟨_, _, hstep (some k) p' hcreate, List.getElem?_set_self hlt, rfl, ?_⟩
    have : (held s).length ≠ n := by omega
    simp [this]

/-- **Exclusive use of pooled producers.**  From a created pool of clamped size `n`, in every
state that any interleaving of any number of `sendmessage` calls reaches: no two calls hold the
same element; the bits are those of the held elements, and each carries its index; the counter
counts the calls that hold one; and the next call of `CreatePoolItem` returns NULL exactly when
`n` calls do. -/
theorem exclusive_use {w₀ w : MgrWorld} {cr : CreateCall}
    {modes : SessionId → Destination → DeliveryMode} {as : List SendAction} {s : SendSystem}
    (hcreated : CreatedBy w₀ cr w)
    (hrun : SendSystem.machine.run (.init w modes) as = some s) :
    (∀ t t' k, Holds s t k → Holds s t' k → t = t') ∧
      (∀ i, s.shared.world.mgr.pool.bits i = true ↔ ∃ t, Holds s t i) ∧
      (∀ t i, Holds s t i → ∃ e, s.shared.world.mgr.pool.pool.get i = .ok e ∧ e.nposition = i) ∧
      s.shared.world.mgr.pool.nUsedPoolItemCnt = holders s ∧
      ∀ (t : ℕ) c, s.calls[t]? = some c → c.pc = .createPoolItem →
        ∃ s' c', s.step (.act t .tau) = some s' ∧ s'.calls[t]? = some c' ∧
          c'.pc = .unlockCreate ∧
          (c'.producer = none ↔ holders s = min cr.nPoolSize.toNat 50) := by
  have h := owned_of_run hcreated hrun
  have hlength : (held s).length = holders s := List.length_filterMap_eq_countP
  refine ⟨?_, ?_, ?_, ?_, ?_⟩
  · rintro t t' k ⟨c, hc, hk⟩ ⟨c', hc', hk'⟩
    exact Threads.eq_of_nodup_filterMap h.slots.nodup hc hc' hk hk'
  · intro i
    rw [h.slots.bits i]
    constructor
    · intro hi
      obtain ⟨c, hmem, hk⟩ := List.mem_filterMap.mp hi
      obtain ⟨t, hc⟩ := List.getElem?_of_mem hmem
      exact ⟨t, c, hc, hk⟩
    · rintro ⟨t, c, hc, hk⟩
      exact mem_held hc hk
  · rintro t i ⟨c, hc, hk⟩
    exact get_of_slots h.slots (mem_held hc hk)
  · rw [h.slots.used, hlength]
  · intro t c hc hpc
    rw [← hlength]
    exact createPoolItem_answer h hc hpc

/-- A manager with one pooled producer and a session pool. -/
def oneProducer : MgrWorld :=
  ((MgrWorld.new.createPool (.full 1 "broker" "orders" false true) .ok).2.createSessionPool
    ⟨.ok (), .ok (), .ok ()⟩).2

theorem oneProducer_createdBy :
    CreatedBy .new (.full 1 "broker" "orders" false true) oneProducer := by
  refine ⟨rfl, ⟨[], rfl⟩, .ok, [.createSessionPool ⟨.ok (), .ok (), .ok ()⟩], ?_, ?_, rfl⟩
  · decide +kernel
  · simp [IsConnectionOp]

/-- Call 0 takes the only producer; call 1 comes to `CreatePoolItem`. -/
def secondCallWaits : List SendAction :=
  [.begin "a", .begin "b",
   .act 0 .tau, .act 0 .tau, .act 0 (.session (.ok (some 7))), .act 0 .tau, .act 0 .tau,
   .act 0 .tau,
   .act 1 .tau, .act 1 .tau, .act 1 (.session (.ok (some 8))), .act 1 .tau]

theorem exclusive_use_second_call :
    ∃ s, SendSystem.machine.run (.init oneProducer fun _ _ => .nonPersistent) secondCallWaits =
        some s ∧
      Holds s 0 0 ∧ s.shared.world.mgr.pool.nUsedPoolItemCnt = 1 ∧
      ∃ s' c', s.step (.act 1 .tau) = some s' ∧ s'.calls[1]? = some c' ∧ c'.producer = none := by
  have hcalls : (SendSystem.machine.run (.init oneProducer fun _ _ => .nonPersistent)
      secondCallWaits).map SendSystem.calls =
      some [⟨"a", some 7, some 0, true, .sending .testArguments⟩,
        ⟨"b", some 8, none, true, .createPoolItem⟩] := by
    decide +kernel
  obtain ⟨s, hrun, hcalls⟩ := Option.map_eq_some_iff.mp hcalls
  have hholders : holders s = 1 := by
    unfold holders
    rw [hcalls]
    decide
  obtain ⟨-, -, -, hused, hnull⟩ := exclusive_use oneProducer_createdBy hrun
  obtain ⟨s', c', hstep, hc', -, hanswer⟩ := hnull 1 _ (by rw [hcalls]; rfl) rfl
  refine ⟨s, hrun, ⟨_, by rw [hcalls]; rfl, rfl⟩, by rw [hused, hholders], s', c', hstep, hc', ?_⟩
  rw [hanswer, hholders]
  decide

end DsAmq.Analysis
