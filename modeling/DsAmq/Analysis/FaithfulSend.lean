import DsAmq.Analysis.ExclusiveUse

/-!
# Sends are faithful

What the concurrent `sendmessage` calls send is what they were asked to send: a call that returns
true had exactly one send accepted, of its own text, to the destination that was given to the
pool, with PERSISTENT delivery in force; a call that returns false had none; an empty text is
never sent (`send_faithful`).

`Ready` says what a call inside `CDSAMQProducer::sendmessage` has prepared so far, `verdict` what
it is going to return.  Other calls cannot spoil either: they append to the accepted sends under
their own number, and only ever switch cached producers to PERSISTENT (`Extends`).
-/

set_option autoImplicit false

namespace DsAmq.Analysis

open DsAmq.Model DsAmq.Library

/-- The sends of the call `t` that were accepted, in their order. -/
def acceptedBy (g : Shared) (t : ℕ) : List Sent :=
  (g.accepted.filter fun x => x.1 = t).map (·.2)

/-- The result that the call is going to return, as far as its sends are concerned; nothing for a
call that ends without returning. -/
def verdict (c : Call) : Option Bool :=
  match c.pc with
  | .sending (.returned b) => some b
  | .close | .lockFree | .freePoolItem | .unlockFree => some c.bSent
  | .ended (.returned b) => some b
  | .ended _ => none
  | _ => some false

/-- The sends that belong to a result. -/
def sendsFor (d : Destination) (msg : String) (b : Bool) : List Sent :=
  if b then [⟨d, msg, .persistent⟩] else []

/-- What a call has prepared when it is at a statement of `CDSAMQProducer::sendmessage`. -/
def Ready (d : Destination) (g : Shared) (session : Option SessionId) (msg : String) :
    ProducerPc → Prop
  | .testArguments | .returned _ | .fault _ => True
  | .testDestination | .createDestination | .createCachedProducer => msg.isEmpty = false
  | .setDeliveryMode d' => msg.isEmpty = false ∧ d' = d
  | .createTextMessage d' =>
      msg.isEmpty = false ∧ d' = d ∧ ∀ s, session = some s → g.modes s d = .persistent
  | .send d' body =>
      msg.isEmpty = false ∧ d' = d ∧ body = msg ∧
        ∀ s, session = some s → g.modes s d = .persistent

/-- The call `t` has sent and prepared what it should. -/
structure Faithful (d : Destination) (t : ℕ) (g : Shared) (c : Call) : Prop where
  sends : ∀ b, verdict c = some b → acceptedBy g t = sendsFor d c.strMessage b
  ready : ∀ pc, c.pc = .sending pc → Ready d g c.session c.strMessage pc

/-- What a step of the call `t` may do to the sends of the system: accept one of `t`'s own text,
and switch cached producers to PERSISTENT. -/
structure Extends (d : Destination) (t : ℕ) (msg : String) (g g' : Shared) : Prop where
  accepted : g'.accepted = g.accepted ∨
    (msg.isEmpty = false ∧ g'.accepted = g.accepted ++ [(t, ⟨d, msg, .persistent⟩)])
  modes : ∀ s d', g.modes s d' = .persistent → g'.modes s d' = .persistent

variable {n t k : ℕ} {d : Destination} {g g' : Shared} {c c' : Call} {hs : List ℕ}
  {s s' : SendSystem} {session : Option SessionId} {msg : String} {pc pc' : ProducerPc}

theorem Extends.of_eq (haccepted : g'.accepted = g.accepted) (hmodes : g'.modes = g.modes) :
    Extends d t msg g g' := by
  refine ⟨.inl haccepted, ?_⟩
  intro s d' hmode
  rw [hmodes]
  exact hmode

theorem acceptedBy_congr (h : g'.accepted = g.accepted) (t : ℕ) :
    acceptedBy g' t = acceptedBy g t := by
  unfold acceptedBy
  rw [h]

theorem acceptedBy_append {x : Sent} (h : g'.accepted = g.accepted ++ [(t, x)]) :
    acceptedBy g' t = acceptedBy g t ++ [x] := by
  simp [acceptedBy, h]

/-- The sends of the other calls stay as they are. -/
theorem Extends.acceptedBy_other {i : ℕ} (h : Extends d t msg g g') (hi : i ≠ t) :
    acceptedBy g' i = acceptedBy g i := by
  rcases h.accepted with heq | ⟨-, heq⟩
  · exact acceptedBy_congr heq i
  · simp [acceptedBy, heq, Ne.symm hi]

/-- What is prepared stays prepared. -/
theorem Ready.of_extends (h : Ready d g session msg pc) {msg' : String}
    (hext : Extends d t msg' g g') : Ready d g' session msg pc := by
  cases pc with
  | createTextMessage d' => exact ⟨h.1, h.2.1, fun s hs => hext.modes s d (h.2.2 s hs)⟩
  | send d' body => exact ⟨h.1, h.2.1, h.2.2.1, fun s hs => hext.modes s d (h.2.2.2 s hs)⟩
  | _ => exact h

/-- Past the test of the arguments the text is not empty. -/
theorem Ready.nonempty (h : Ready d g session msg pc) (hpast : PastArguments pc) :
    msg.isEmpty = false := by
  cases pc with
  | testArguments => cases hpast
  | returned b => cases hpast
  | fault e => cases hpast
  | testDestination => exact h
  | createDestination => exact h
  | createCachedProducer => exact h
  | setDeliveryMode d' => exact h.1
  | createTextMessage d' => exact h.1
  | send d' body => exact h.1

/-- A step of another call. -/
theorem Faithful.of_extends {i : ℕ} (h : Faithful d i g c) (hext : Extends d t msg g g')
    (hi : i ≠ t) : Faithful d i g' c := by
  constructor
  · intro b hb
    rw [hext.acceptedBy_other hi]
    exact h.sends b hb
  · intro pc hpc
    exact (h.ready pc hpc).of_extends hext

/-- One statement of `CDSAMQProducer::sendmessage`. -/
theorem producerMove_faithful (h : Slots n hs g.world.mgr.pool)
    (hc : Configured d g.world.mgr.pool.pool) (hk : k ∈ hs)
    (hready : Ready d g session msg pc) (hnone : (∀ b, pc ≠ .returned b) → acceptedBy g t = [])
    (hmove : ProducerMove t k session msg g pc g' pc') :
    Ready d g' session msg pc' ∧ Extends d t msg g g' ∧
      (∀ b, pc' = .returned b → acceptedBy g' t = sendsFor d msg b) ∧
      ((∀ b, pc' ≠ .returned b) → acceptedBy g' t = []) := by
  cases hmove with
  | item f hres hidx hdest hnext hpc =>
      obtain ⟨e, p', hsends, heq, -, -⟩ := onProducer_of_slots h hc hk hidx (hdest d)
      rw [hres, Prod.mk.injEq] at heq
      obtain ⟨rfl, rfl⟩ := heq
      have hsame : (g.setPool p').accepted = g.accepted := rfl
      have hnone' : acceptedBy (g.setPool p') t = [] := by
        rw [acceptedBy_congr hsame]
        exact hnone hpc
      refine ⟨?_, ⟨.inl rfl, fun _ _ hmode => hmode⟩, ?_, fun _ => hnone'⟩
      · rcases hnext d e hsends with hret | ⟨hpast, hnext⟩
        · rw [hret]
          trivial
        · have hne := hready.nonempty hpast
          rcases hnext with hnext | hnext | hnext
          · rw [hnext]
            exact hne
          · rw [hnext]
            exact hne
          · rw [hnext]
            exact ⟨hne, rfl⟩
      · intro b hb
        rcases hnext d e hsends with hret | ⟨-, hnext⟩
        · rw [hret] at hb
          cases hb
          exact hnone'
        · rw [hb] at hnext
          simp at hnext
  | nonempty hne =>
      exact ⟨hne, .of_eq rfl rfl, by simp, fun _ => hnone (by simp)⟩
  | @setDeliveryMode s d' hs =>
      refine ⟨⟨hready.1, hready.2, ?_⟩, ⟨.inl rfl, ?_⟩, by simp, fun _ => hnone (by simp)⟩
      · intro s' hs'
        rw [hs, Option.some.injEq] at hs'
        simp [hs', hready.2]
      · intro s' d'' hmode
        dsimp only
        split
        · rfl
        · exact hmode
  | createTextMessage =>
      exact ⟨⟨hready.1, hready.2.1, rfl, hready.2.2⟩, .of_eq rfl rfl, by simp,
        fun _ => hnone (by simp)⟩
  | @send s d' body hs =>
      obtain ⟨hne, rfl, rfl, hmode⟩ := hready
      rw [hmode s hs]
      refine ⟨trivial, ⟨.inr ⟨hne, rfl⟩, fun _ _ h => h⟩, ?_, by simp⟩
      intro b hb
      cases hb
      rw [acceptedBy_append rfl, hnone (by simp)]
      rfl

/-- A step of the call itself that sends nothing and keeps the verdict. -/
theorem Faithful.of_quiet (h : Faithful d t g c) (haccepted : g'.accepted = g.accepted)
    (hmsg : c'.strMessage = c.strMessage)
    (hverdict : ∀ b, verdict c' = some b → verdict c = some b)
    (hpc : ∀ pc, c'.pc = .sending pc → pc = .testArguments) : Faithful d t g' c' := by
  constructor
  · intro b hb
    rw [acceptedBy_congr haccepted, hmsg]
    exact h.sends b (hverdict b hb)
  · intro pc hc
    rw [hpc pc hc]
    trivial

theorem verdict_of_before (h : BeforeProducer c.pc) : verdict c = some false := by
  unfold BeforeProducer at h
  unfold verdict
  cases hc : c.pc <;> simp_all

/-- Inside `CDSAMQProducer::sendmessage` the verdict is its result, once it has returned. -/
theorem verdict_returned {b : Bool} (h : c.pc = .sending (.returned b)) : verdict c = some b := by
  unfold verdict
  rw [h]

theorem verdict_sending (h : c.pc = .sending pc) (hpc : ∀ b, pc ≠ .returned b) :
    verdict c = some false := by
  unfold verdict
  rw [h]
  cases pc with
  | returned b => exact absurd rfl (hpc b)
  | _ => rfl

/-- **One step of a call** keeps it faithful. -/
theorem move_faithful (h : Slots n hs g.world.mgr.pool)
    (hconf : Configured d g.world.mgr.pool.pool) (hmem : ∀ k, holds c = some k → k ∈ hs)
    (hf : Faithful d t g c) (hmove : Move t g c g' c') :
    Faithful d t g' c' ∧ Extends d t c.strMessage g g' ∧ c'.strMessage = c.strMessage := by
  cases hmove with
  | before hpc hpc' hsame hproducer hmsg =>
      refine ⟨hf.of_quiet hsame.accepted hmsg ?_ ?_, .of_eq hsame.accepted hsame.modes, hmsg⟩
      · intro b hb
        rw [verdict_of_before hpc]
        rcases hpc' with hpc' | hpc' | hpc'
        · rwa [verdict_of_before hpc'] at hb
        · simpa [verdict, hpc'] using hb
        · simp [verdict, hpc'] at hb
      · intro pc hc
        rw [hc] at hpc'
        simp [BeforeProducer] at hpc'
  | create hpc hcreate =>
      refine ⟨hf.of_quiet rfl rfl ?_ (by simp), .of_eq rfl rfl, rfl⟩
      intro b hb
      rw [verdict_of_before (by rw [hpc]; trivial)]
      exact hb
  | unlockCreate hpc hsame =>
      refine ⟨hf.of_quiet hsame.accepted rfl ?_ ?_, .of_eq hsame.accepted hsame.modes, rfl⟩
      · intro b hb
        cases hp : c.producer <;> simpa [verdict, Call.goto, hpc, hp] using hb
      · intro pc hc
        cases hp : c.producer <;> simp [Call.goto, hp] at hc
        exact hc.symm
  | overflow hpc hpc' hsame =>
      refine ⟨hf.of_quiet hsame.accepted rfl ?_ ?_, .of_eq hsame.accepted hsame.modes, rfl⟩
      · intro b hb
        rcases hpc' with rfl | ⟨msg, rfl⟩ <;> simp [verdict, Call.goto, hpc] at hb ⊢
        exact hb
      · intro pc hc
        rcases hpc' with rfl | ⟨msg, rfl⟩ <;> cases hc
  | @producer k g' pc pc' hpc hk hmove =>
      have hholds : holds c = some k := by simp only [holds, hpc, hk]
      have hnone : (∀ b, pc ≠ .returned b) → acceptedBy g t = [] := by
        intro hpc₀
        exact hf.sends false (verdict_sending hpc hpc₀)
      obtain ⟨hready, hext, hreturned, hother⟩ :=
        producerMove_faithful h hconf (hmem k hholds) (hf.ready pc hpc) hnone hmove
      refine ⟨⟨?_, ?_⟩, hext, rfl⟩
      · intro b hb
        by_cases hret : ∃ b', pc' = .returned b'
        · obtain ⟨b', rfl⟩ := hret
          rw [verdict_returned rfl, Option.some.injEq] at hb
          exact hreturned b (by rw [hb])
        · have hpc' : ∀ b', pc' ≠ .returned b' := fun b' hb' => hret ⟨b', hb'⟩
          rw [verdict_sending rfl hpc', Option.some.injEq] at hb
          rw [← hb]
          exact hother hpc'
      · intro pc₁ hpc₁
        cases hpc₁
        exact hready
  | @sent g' b hpc hsame =>
      refine ⟨hf.of_quiet hsame.accepted rfl ?_ (by simp), .of_eq hsame.accepted hsame.modes, rfl⟩
      intro b' hb'
      rw [verdict_returned hpc]
      exact hb'
  | closing hpc hpc' hsame =>
      refine ⟨hf.of_quiet hsame.accepted rfl ?_ ?_, .of_eq hsame.accepted hsame.modes, rfl⟩
      · intro b hb
        rcases hpc with hpc | hpc <;> rcases hpc' with rfl | rfl | ⟨msg, rfl⟩ <;>
          simp_all [verdict, Call.goto]
      · intro pc hc
        rcases hpc' with rfl | rfl | ⟨msg, rfl⟩ <;> cases hc
  | free hpc hk hfree =>
      refine ⟨hf.of_quiet rfl rfl ?_ (by simp [Call.goto]), .of_eq rfl rfl, rfl⟩
      intro b hb
      simpa [verdict, Call.goto, hpc] using hb
  | unlockFree hpc hsame =>
      refine ⟨hf.of_quiet hsame.accepted rfl ?_ (by simp [Call.goto]),
        .of_eq hsame.accepted hsame.modes, rfl⟩
      intro b hb
      simpa [verdict, Call.goto, hpc] using hb

/-! ## The invariant of the system -/

/-- Every call is faithful, and every accepted send is of the text of its call. -/
structure SendsFaithfully (d : Destination) (s : SendSystem) : Prop where
  calls : ∀ (t : ℕ) c, s.calls[t]? = some c → Faithful d t s.shared c
  accepted : ∀ x ∈ s.shared.accepted, ∃ c, s.calls[x.1]? = some c ∧
    c.strMessage.isEmpty = false ∧ x.2 = ⟨d, c.strMessage, .persistent⟩

/-- A call that has not begun has sent nothing. -/
theorem acceptedBy_new (h : SendsFaithfully d s) : acceptedBy s.shared s.calls.length = [] := by
  unfold acceptedBy
  rw [List.map_eq_nil_iff, List.filter_eq_nil_iff]
  intro x hx hlen
  obtain ⟨c, hc, -⟩ := h.accepted x hx
  have hlt := (List.getElem?_eq_some_iff.mp hc).1
  simp at hlen
  omega

/-- After a step of the call `t` the calls are there with the texts they had. -/
theorem exists_call_after (hc : s.calls[t]? = some c) (hmsg : c'.strMessage = c.strMessage)
    (i : ℕ) (x : Call) (hx : s.calls[i]? = some x) :
    ∃ x' : Call, (s.calls.set t c')[i]? = some x' ∧ x'.strMessage = x.strMessage := by
  by_cases hi : i = t
  · subst hi
    rw [hc, Option.some.injEq] at hx
    exact ⟨c', (Threads.getElem?_set_eq_some hc).mpr (.inl ⟨rfl, rfl⟩), by rw [hmsg, hx]⟩
  · exact ⟨x, (Threads.getElem?_set_eq_some hc).mpr (.inr ⟨hi, hx⟩), rfl⟩

/-- **The step lemma.** -/
theorem sendsFaithfully_step {a : SendAction} (hown : Owned n d s) (h : SendsFaithfully d s)
    (hstep : s.step a = some s') : SendsFaithfully d s' := by
  cases a with
  | begin msg =>
      cases hstep
      constructor
      · refine Threads.forall_append (P := fun t c => Faithful d t s.shared c) ?_ h.calls
        constructor
        · intro b hb
          cases hb
          exact acceptedBy_new h
        · intro pc hpc
          cases hpc
      · intro x hx
        obtain ⟨c, hc, hspec⟩ := h.accepted x hx
        exact ⟨c, Threads.getElem?_append_eq_some.mpr (.inl hc), hspec⟩
  | act t r =>
      obtain ⟨c, g', c', hc, hcall, rfl⟩ := act_eq_some hstep
      obtain ⟨hfaithful, hext, hmsg⟩ := move_faithful hown.slots hown.configured
        (fun k hk => mem_held hc hk) (h.calls t c hc) (hown.move hc hcall)
      constructor
      · exact Threads.forall_set (P := fun t c => Faithful d t g' c) hc hfaithful
          fun i x hi hx => (h.calls i x hx).of_extends hext hi
      · intro x hx
        have hcalls := exists_call_after hc hmsg
        have hold : x ∈ s.shared.accepted ∨
            (c.strMessage.isEmpty = false ∧ x = (t, ⟨d, c.strMessage, .persistent⟩)) := by
          rcases hext.accepted with heq | ⟨hne, heq⟩
          · exact .inl (heq ▸ hx)
          · rcases List.mem_append.mp (heq ▸ hx) with hx | hx
            · exact .inl hx
            · exact .inr ⟨hne, List.mem_singleton.mp hx⟩
        rcases hold with hx | ⟨hne, rfl⟩
        · obtain ⟨y, hy, hne, hsent⟩ := h.accepted x hx
          obtain ⟨y', hy', hmsg'⟩ := hcalls x.1 y hy
          exact ⟨y', hy', by rw [hmsg', hne], by rw [hmsg', hsent]⟩
        · obtain ⟨y', hy', hmsg'⟩ := hcalls t c hc
          exact ⟨y', hy', by rw [hmsg', hne], by rw [hmsg']⟩

/-- The texts that the calls were made with, in the order in which they began. -/
def begun (as : List SendAction) : List String :=
  as.filterMap fun
    | .begin msg => some msg
    | .act _ _ => none

/-- What holds in every state that the calls reach. -/
theorem sendsFaithfully_of_run {w₀ w : MgrWorld} {cr : CreateCall}
    {modes : SessionId → Destination → DeliveryMode} {as : List SendAction}
    (hcreated : CreatedBy w₀ cr w)
    (hrun : SendSystem.machine.run (.init w modes) as = some s) :
    SendsFaithfully (givenDestination w₀.mgr cr) s ∧ s.calls.map Call.strMessage = begun as := by
  have hinit : Owned (min cr.nPoolSize.toNat 50) (givenDestination w₀.mgr cr) (.init w modes) :=
    owned_of_run hcreated (Machine.run_nil _)
  suffices h : (Owned (min cr.nPoolSize.toNat 50) (givenDestination w₀.mgr cr) s ∧
      SendsFaithfully (givenDestination w₀.mgr cr) s) ∧
      s.calls.map Call.strMessage = begun as from ⟨h.1.2, h.2⟩
  refine Machine.run_inv_history (I := fun as s =>
    (Owned (min cr.nPoolSize.toNat 50) (givenDestination w₀.mgr cr) s ∧
      SendsFaithfully (givenDestination w₀.mgr cr) s) ∧ s.calls.map Call.strMessage = begun as)
    ?_ ⟨⟨hinit, by simp [SendSystem.init], by simp [SendSystem.init]⟩, rfl⟩
    (Machine.meets_true _ _) hrun
  rintro as s a s' ⟨⟨hown, hfaithful⟩, hbegun⟩ - hstep
  refine ⟨⟨owned_step hown hstep, sendsFaithfully_step hown hfaithful hstep⟩, ?_⟩
  cases a with
  | begin msg =>
      cases hstep
      simpa [begun, Call.new] using hbegun
  | act t r =>
      obtain ⟨c, g', c', hc, hcall, rfl⟩ := act_eq_some hstep
      obtain ⟨-, -, hmsg⟩ := move_faithful hown.slots hown.configured
        (fun k hk => mem_held hc hk) (hfaithful.calls t c hc) (hown.move hc hcall)
      have hset : (s.calls.set t c').map Call.strMessage = s.calls.map Call.strMessage := by
        obtain ⟨hlt, rfl⟩ := List.getElem?_eq_some_iff.mp hc
        rw [List.map_set, hmsg]
        apply List.ext_getElem?
        intro i
        rw [List.getElem?_set]
        split
        · rename_i hi
          subst hi
          simp [hlt]
        · rfl
      simpa [begun, hset] using hbegun

/-- **Producer sends are faithful.**  In every state that any interleaving of `sendmessage` calls
reaches, with any outcomes of the library calls, for the call `t`, begun with the text `msg`: if
it returned true, exactly one send of its was accepted, of `msg`, to the destination given to the
pool, with PERSISTENT delivery mode; if it returned false, none was; and if `msg` is empty, none
was, however it ended. -/
theorem send_faithful {w₀ w : MgrWorld} {cr : CreateCall}
    {modes : SessionId → Destination → DeliveryMode} {as : List SendAction} {s : SendSystem}
    (hcreated : CreatedBy w₀ cr w)
    (hrun : SendSystem.machine.run (.init w modes) as = some s)
    {t : ℕ} {c : Call} {msg : String} (hc : s.calls[t]? = some c)
    (hmsg : (begun as)[t]? = some msg) :
    (c.pc = .ended (.returned true) →
        acceptedBy s.shared t = [⟨givenDestination w₀.mgr cr, msg, .persistent⟩]) ∧
      (c.pc = .ended (.returned false) → acceptedBy s.shared t = []) ∧
      (msg = "" → acceptedBy s.shared t = []) := by
  obtain ⟨h, hbegun⟩ := sendsFaithfully_of_run hcreated hrun
  obtain rfl : c.strMessage = msg := by
    rw [← hbegun, List.getElem?_map, hc] at hmsg
    simpa using hmsg
  have hcall := h.calls t c hc
  refine ⟨?_, ?_, ?_⟩
  · intro hpc
    exact hcall.sends true (by simp [verdict, hpc])
  · intro hpc
    exact hcall.sends false (by simp [verdict, hpc])
  · intro hempty
    unfold acceptedBy
    rw [List.map_eq_nil_iff, List.filter_eq_nil_iff]
    intro x hx hxt
    obtain ⟨c', hc', hne, -⟩ := h.accepted x hx
    have hxt' : x.1 = t := by simpa using hxt
    rw [hxt', hc, Option.some.injEq] at hc'
    rw [← hc', hempty] at hne
    cases hne

/-- Call 1 takes the only producer and sends; meanwhile call 0 finds the pool empty. -/
def oneSendsOneOverflows : List SendAction :=
  [.begin "a", .begin "b",
   .act 1 .tau, .act 1 .tau, .act 1 (.session (.ok (some 8))), .act 1 .tau, .act 1 .tau,
   .act 1 .tau, .act 1 .tau,
   .act 0 .tau, .act 0 .tau, .act 0 (.session (.ok (some 7))), .act 0 .tau, .act 0 .tau,
   .act 1 .tau, .act 1 (.call (.ok ())), .act 1 (.call (.ok ())),
   .act 0 .tau, .act 0 (.call (.ok ())),
   .act 1 (.call (.ok ())), .act 1 (.call (.ok ())), .act 1 (.call (.ok ())), .act 1 .tau,
   .act 1 (.call (.ok ())), .act 1 .tau, .act 1 .tau, .act 1 .tau]

theorem send_faithful_overflow :
    ∃ s, SendSystem.machine.run (.init oneProducer fun _ _ => .nonPersistent)
        oneSendsOneOverflows = some s ∧
      acceptedBy s.shared 1 = [⟨⟨.queue, "orders"⟩, "b", .persistent⟩] ∧
      acceptedBy s.shared 0 = [] := by
  have hcalls : (SendSystem.machine.run (.init oneProducer fun _ _ => .nonPersistent)
      oneSendsOneOverflows).map SendSystem.calls =
      some [⟨"a", some 7, none, true, .ended (.returned false)⟩,
        ⟨"b", some 8, some 0, true, .ended (.returned true)⟩] := by
    decide +kernel
  obtain ⟨s, hrun, hcalls⟩ := Option.map_eq_some_iff.mp hcalls
  have h₀ : s.calls[0]? = some ⟨"a", some 7, none, true, .ended (.returned false)⟩ := by
    rw [hcalls]
    rfl
  have h₁ : s.calls[1]? = some ⟨"b", some 8, some 0, true, .ended (.returned true)⟩ := by
    rw [hcalls]
    rfl
  exact ⟨s, hrun, (send_faithful oneProducer_createdBy hrun h₁ rfl).1 rfl,
    (send_faithful oneProducer_createdBy hrun h₀ rfl).2.1 rfl⟩

end DsAmq.Analysis
