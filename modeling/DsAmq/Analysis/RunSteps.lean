import DsAmq.Model.Consumer

/-!
# What one call of `CDSAMQConsumer::run` can do

One lemma for each place of the loop: the calls that can come next there and the state each
of them leaves.  Every later proof about the consumer goes through these lemmas, not through
`Run.step` itself.
-/

set_option autoImplicit false

namespace DsAmq.Model.Run

variable {r r' : Run} {e : Event}

theorem step_takeSession (h : r.pc = .takeSession) : r.step e = some r' ↔
    (∃ msg, e = .takeSession (.cms msg) ∧ r' = { r with session := none, pc := .threw }) ∨
    (∃ s, e = .takeSession (.ok s) ∧
      r' = ⟨{ r.consumer with processTaskID := some r.consumer.nTaskID }, some s,
        afterTakeSession r.consumer⟩) := by
  cases e with
  | takeSession o =>
      unfold step
      simp only [h]
      cases o <;> aesop
  | _ =>
      unfold step
      simp [h]

theorem step_createDestination (h : r.pc = .createDestination) : r.step e = some r' ↔
    ∃ d, d = Destination.select r.consumer.busetopic r.consumer.strDestURI ∧
      ((e = .createDestination d (.ok ()) ∧
          r' = { r with consumer := { r.consumer with destination := some d }
                        pc := .createCachedConsumer }) ∨
        (∃ msg, e = .createDestination d (.cms msg) ∧
          r' = { r with
            consumer := { r.consumer with
              strError := "[consumer] in run, exception occured2, " ++ msg }
            pc := .close })) := by
  cases e with
  | createDestination d o =>
      unfold step
      simp only [h]
      cases o <;> aesop
  | _ =>
      unfold step
      simp [h]

theorem step_createCachedConsumer (h : r.pc = .createCachedConsumer) : r.step e = some r' ↔
    (e = .createCachedConsumer (.ok ()) ∧
      r' = { r with
        consumer := { r.consumer with
          nTimeout := if r.consumer.nTimeout ≤ 0 then 3000 else r.consumer.nTimeout }
        pc := .isrun }) ∨
    (∃ msg, e = .createCachedConsumer (.cms msg) ∧
      r' = { r with
        consumer := { r.consumer with
          strError := "[consumer] in run, exception occured2, " ++ msg }
        pc := .close }) := by
  cases e with
  | createCachedConsumer o =>
      unfold step
      simp only [h]
      cases o <;> aesop
  | _ =>
      unfold step
      simp [h]

theorem step_isrun (h : r.pc = .isrun) : r.step e = some r' ↔
    ∃ b, e = .isrun b ∧ r' = { r with pc := if b then .receive else .close } := by
  cases e with
  | isrun b =>
      unfold step
      simp only [h]
      aesop
  | _ =>
      unfold step
      simp [h]

theorem step_receive (h : r.pc = .receive) : r.step e = some r' ↔
    (e = .receive (.ok none) ∧ r' = { r with pc := .isrun }) ∨
    (∃ m, e = .receive (.ok (some m)) ∧
      r' = { r with pc := if m.isText then .getText m else .acknowledgeOther m }) ∨
    (∃ msg, e = .receive (.cms msg) ∧
      r' = { r with
        consumer := { r.consumer with strError := "receive exception, " ++ msg }
        pc := .close }) := by
  cases e with
  | receive o =>
      unfold step
      simp only [h]
      rcases o with (_ | m) | msg <;> aesop
  | _ =>
      unfold step
      simp [h]

theorem step_getText {m : Message} (h : r.pc = .getText m) : r.step e = some r' ↔
    (∃ text, e = .getText m (.ok text) ∧ m.body = .text text ∧
      r' = { r with pc := .process m text }) ∨
    (∃ msg, e = .getText m (.cms msg) ∧ r' = { r with pc := .close }) := by
  cases e with
  | getText m' o =>
      unfold step
      simp only [h]
      cases o <;> aesop
  | _ =>
      unfold step
      simp [h]

theorem step_acknowledgeOther {m : Message} (h : r.pc = .acknowledgeOther m) :
    r.step e = some r' ↔
    (e = .acknowledge m (.ok ()) ∧ r' = { r with pc := .process m "" }) ∨
    (∃ msg, e = .acknowledge m (.cms msg) ∧ r' = { r with pc := .close }) := by
  cases e with
  | acknowledge m' o =>
      unfold step
      simp only [h]
      cases o <;> aesop
  | _ =>
      unfold step
      simp [h]

theorem step_process {m : Message} {text : String} (h : r.pc = .process m text) :
    r.step e = some r' ↔
    (∃ ar, e = .process m text (.returns ar) ∧
      r' = { r with
        pc :=
          if r.consumer.bclientack then
            if ar = .queueRemove then .acknowledge m else .recover m
          else .isrun }) ∨
    (∃ msg, e = .process m text (.throwsCms msg) ∧ r' = { r with pc := .close }) ∨
    (e = .process m text .throwsOther ∧ r' = { r with pc := .threw }) := by
  cases e with
  | process m' text' o =>
      unfold step
      simp only [h]
      cases o <;> aesop
  | _ =>
      unfold step
      simp [h]

theorem step_acknowledge {m : Message} (h : r.pc = .acknowledge m) : r.step e = some r' ↔
    ∃ o, e = .acknowledge m o ∧ r' = { r with pc := if o.throws then .close else .isrun } := by
  cases e with
  | acknowledge m' o =>
      unfold step
      simp only [h]
      aesop
  | _ =>
      unfold step
      simp [h]

theorem step_recover {m : Message} (h : r.pc = .recover m) : r.step e = some r' ↔
    ∃ o, e = .recover o ∧ r' = { r with pc := if o.throws then .close else .isrun } := by
  cases e with
  | recover o =>
      unfold step
      simp only [h]
      aesop
  | _ =>
      unfold step
      simp [h]

theorem step_close (h : r.pc = .close) : r.step e = some r' ↔
    ∃ o, e = .close o ∧ r' = { r with pc := if o.throws then .threw else .returned } := by
  cases e with
  | close o =>
      unfold step
      simp only [h]
      aesop
  | _ =>
      unfold step
      simp [h]

/-- A run that has ended makes no call. -/
theorem step_ended (h : r.pc = .returned ∨ r.pc = .threw) : r.step e = none := by
  unfold step
  rcases h with h | h <;> cases e <;> simp [h]

/-- The acknowledge flag of the task object never changes. -/
theorem step_bclientack (h : r.step e = some r') :
    r'.consumer.bclientack = r.consumer.bclientack := by
  cases hpc : r.pc with
  | takeSession => obtain ⟨_, -, rfl⟩ | ⟨_, -, rfl⟩ := (step_takeSession hpc).mp h <;> rfl
  | createDestination =>
      obtain ⟨_, -, ⟨-, rfl⟩ | ⟨_, -, rfl⟩⟩ := (step_createDestination hpc).mp h <;> rfl
  | createCachedConsumer =>
      obtain ⟨-, rfl⟩ | ⟨_, -, rfl⟩ := (step_createCachedConsumer hpc).mp h <;> rfl
  | isrun => obtain ⟨_, -, rfl⟩ := (step_isrun hpc).mp h; rfl
  | receive =>
      obtain ⟨-, rfl⟩ | ⟨_, -, rfl⟩ | ⟨_, -, rfl⟩ := (step_receive hpc).mp h <;> rfl
  | getText m => obtain ⟨_, -, -, rfl⟩ | ⟨_, -, rfl⟩ := (step_getText hpc).mp h <;> rfl
  | acknowledgeOther m =>
      obtain ⟨-, rfl⟩ | ⟨_, -, rfl⟩ := (step_acknowledgeOther hpc).mp h <;> rfl
  | process m text =>
      obtain ⟨_, -, rfl⟩ | ⟨_, -, rfl⟩ | ⟨-, rfl⟩ := (step_process hpc).mp h <;> rfl
  | acknowledge m => obtain ⟨_, -, rfl⟩ := (step_acknowledge hpc).mp h; rfl
  | recover m => obtain ⟨_, -, rfl⟩ := (step_recover hpc).mp h; rfl
  | close => obtain ⟨_, -, rfl⟩ := (step_close hpc).mp h; rfl
  | returned => simp [step_ended (Or.inl hpc)] at h
  | threw => simp [step_ended (Or.inr hpc)] at h

end DsAmq.Model.Run
