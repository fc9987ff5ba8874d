import Hareflow.Producer.ExactlyOnce

/-!
# The order of the publishing ids on a connection

A broker drops what has an id that is not above the last one it has seen under the name of the
producer, so the ids that are passed to `publish_encoded` on one connection have to increase. `send`
takes its id before it waits for a permit and adds its message to the accumulator, and nothing keeps
another call from overtaking it in between.

* `passed` is what is passed to `publish_encoded`: along a run it is in the order in which the
  accumulator accepted the messages (`passed_sublist`).
* `notOvertaken` says that no call adds its message while an older one is still on its way. As long as
  that holds of the steps, the accumulator accepts the messages in the order of their ids (`Queued`).
-/

namespace Hareflow.Producer

open Foundations

variable {cfg : Config} {s t : State}

/-! ## What is passed is in the order of the accumulator -/

/-- The messages that a step passes to `publish_encoded`, in `publish_batch` and in
`reconnect_to_server`. -/
def passed (cfg : Config) (s : State) (a : Act) (_ : State) : List AccumulatedMessage :=
  match a with
  | .batch (.publish _) => if s.client.isSome then s.moving else []
  | .reconnect (.resend _) =>
    if s.stage = .running then (resendBatches cfg.batchSize s.unconfirmed.sorted []).flatten else []
  | _ => []

/-- What `publish_encoded` has still to be called with: the batch before it is written, and the
accumulator. -/
def State.unpassed (s : State) : List AccumulatedMessage :=
  (s.batch.map fun b => b.pc.unwritten).getD [] ++ s.accumulator.pending

theorem unpassed_finish (u : State) (caller : Caller) : (u.finish caller).unpassed = u.unpassed := by
  cases caller <;> rfl

theorem stepBatch_unpassed {a : BatchAct} (h : stepBatch cfg s a = some t) :
    (passed cfg s (.batch a) t ++ t.unpassed).Sublist s.unpassed := by
  cases batchMove_of_step h with
  | flush | task => exact .refl _
  | lock hcall hfree =>
    have hnone : s.batch = none := (State.unlocked_iff.1 hfree).1
    simp [passed, State.unpassed, hnone, BatchPc.unwritten]
  | decline =>
    rw [unpassed_finish]
    exact .refl _
  | extract hb =>
    simp [passed, State.unpassed, hb, BatchPc.unwritten, Accumulator.extractAll]
  | publish hb hc =>
    simp [passed, State.unpassed, State.moving, State.write, hb, hc, BatchPc.unwritten,
      BatchPc.messages]
  | park hb hc => simp [passed, State.unpassed, hb, hc, BatchPc.unwritten]
  | insert hb =>
    rw [unpassed_finish]
    simp [passed, State.unpassed, State.release, hb, BatchPc.unwritten]

theorem stepStop_unpassed {a : StopAct} (h : stepStop s a = some t) :
    t.unpassed.Sublist s.unpassed := by
  cases stopMove_of_step h with
  | clear => simp [State.unpassed, State.release, Accumulator.extractAll]
  | _ => exact .refl _

/-- One step: what is passed and what is still to be passed comes from what was to be passed, and from
what the accumulator accepts. -/
theorem step_unpassed {a : Act} (ha : ∀ b, a ≠ .reconnect b) (h : step cfg s a = some t) :
    ∃ new, t.accepted = s.accepted ++ new ∧
      (passed cfg s a t ++ t.unpassed).Sublist (s.unpassed ++ new) := by
  have hnone : t.accepted = s.accepted → (passed cfg s a t ++ t.unpassed).Sublist s.unpassed →
      ∃ new, t.accepted = s.accepted ++ new ∧
        (passed cfg s a t ++ t.unpassed).Sublist (s.unpassed ++ new) :=
    fun hacc hsub => ⟨[], by simp [hacc], by simpa using hsub⟩
  cases a with
  | send a =>
    obtain ⟨k, m, full, -, -, -, rfl⟩ | ⟨_, _, _, _, rfl⟩ := stepSend_inv h
    · refine ⟨[m], rfl, ?_⟩
      simp [passed, State.unpassed, State.setSend]
    · exact hnone rfl (.refl _)
  | batch a => exact hnone (step_send_frame h (by simp)).2 (stepBatch_unpassed h)
  | frame a =>
    obtain ⟨_, _, _, _, rfl⟩ := stepFrame_touches h
    exact hnone rfl (.refl _)
  | shutdown a =>
    obtain ⟨_, _, rfl⟩ := stepShutdown_touches h
    exact hnone rfl (.refl _)
  | timeout a =>
    obtain ⟨_, _, _, _, rfl⟩ := stepTimeout_touches h
    exact hnone rfl (.refl _)
  | reconnect a => exact absurd rfl (ha a)
  | stop a => exact hnone (step_send_frame h (by simp)).2 (stepStop_unpassed h)

/-! ## The order of the accumulator -/

/-- The call has its id and has neither added its message nor thrown. -/
def SendPc.onTheWay (pc : SendPc) : Bool := pc.publishingId.isSome

/-- The user gives no ids, and the counter does not wrap; no connection is recovered; and no call adds
its message while an older one is on its way. -/
def notOvertaken (cfg : Config) (s : State) : Act → Bool
  | .send (.call explicit) =>
    explicit.isNone && decide (cfg.firstPublishingId.toNat + s.calls < 2 ^ 64)
  | .send (.insert k) => (List.range k).all fun l => !(s.sends l).onTheWay
  | .reconnect _ => false
  | _ => true

theorem counted_of_notOvertaken {a : Act} (h : notOvertaken cfg s a = true) :
    counted s a = true := by
  cases a with
  | send a =>
    cases a with
    | call explicit =>
      simp only [notOvertaken, Bool.and_eq_true, decide_eq_true_eq] at h
      simp only [counted, Bool.and_eq_true, decide_eq_true_eq]
      exact ⟨h.1, by omega⟩
    | _ => rfl
  | _ => rfl

/-- The messages were accepted in the order of their tickets, and no call behind the last of them is on
its way. -/
structure Queued (cfg : Config) (x : Sending) : Prop where
  numbered : Numbered cfg x
  range : cfg.firstPublishingId.toNat + x.calls ≤ 2 ^ 64
  sorted : x.accepted.Pairwise fun m m' => m.ticket < m'.ticket
  settled : ∀ m ∈ x.accepted, ∀ l < m.ticket, (x.sends l).publishingId = none

namespace Queued

/-- Nothing is accepted, and no call gets on its way behind an accepted message. -/
theorem keep {x y : Sending} (hx : Queued cfg x) (hy : Numbered cfg y) (hcalls : y.calls = x.calls)
    (haccepted : y.accepted = x.accepted)
    (hsends : ∀ k i, (y.sends k).publishingId = some i → (x.sends k).publishingId = some i) :
    Queued cfg y := by
  refine ⟨hy, ?_, ?_, fun m hm l hl => ?_⟩
  · rw [hcalls]
    exact hx.range
  · rw [haccepted]
    exact hx.sorted
  · rw [haccepted] at hm
    refine Option.eq_none_iff_forall_ne_some.2 fun i hi => ?_
    have hold := hsends l i hi
    rw [hx.settled m hm l hl] at hold
    cases hold

/-- The message that is accepted comes after the others. -/
theorem lt_of_sized {x : Sending} (hx : Queued cfg x) {k : ℕ} {m m' : AccumulatedMessage}
    (hk : x.sends k = .sized m) (hm' : m' ∈ x.accepted) : m'.ticket < k := by
  by_contra hge
  have hne : m'.ticket ≠ k := by
    intro heq
    have hacc := (hx.numbered.accepted m' hm').2
    rw [heq, hk] at hacc
    cases hacc
  have hnone := hx.settled m' hm' k (by omega)
  simp [hk, SendPc.publishingId] at hnone

theorem initial (cfg : Config) : Queued cfg (initial cfg).sending := by
  refine ⟨(Accounted.initial cfg).numbered, ?_, .nil, ?_⟩
  · have := cfg.firstPublishingId.toNat_lt
    simp only [State.sending, Producer.initial]
    omega
  · simp [State.sending, Producer.initial]

theorem stepSend {a : SendAct} (hs : Queued cfg s.sending)
    (hok : notOvertaken cfg s (.send a) = true) (h : stepSend cfg s a = some t) :
    Queued cfg t.sending := by
  have hnumbered := hs.numbered.stepSend (counted_of_notOvertaken hok) h
  cases change_of_stepSend h with
  | call explicit ha ht =>
    subst ha
    simp only [notOvertaken, Bool.and_eq_true, decide_eq_true_eq] at hok
    rw [ht] at hnumbered ⊢
    refine ⟨hnumbered, ?_, hs.sorted, fun m hm l hl => ?_⟩
    · have := hok.2
      simp only
      omega
    · have hlt : m.ticket < s.calls := hs.numbered.ticketed.lt_calls fun hidle => by
        have hacc := (hs.numbered.accepted m hm).2
        simp [hidle, SendPc.accepted] at hacc
      have hne : l ≠ s.calls := by omega
      simp only [Function.update_of_ne hne]
      exact hs.settled m hm l hl
  | @insert k m full ha hk ht =>
    subst ha
    have hbehind : ∀ l < k, (s.sends l).publishingId = none := by
      simpa [notOvertaken, SendPc.onTheWay] using hok
    have hticket : m.ticket = k := hs.numbered.tickets k m hk
    rw [ht] at hnumbered ⊢
    refine ⟨hnumbered, hs.range, ?_, fun m' hm' l hl => ?_⟩
    · refine List.pairwise_append.2 ⟨hs.sorted, List.pairwise_singleton .., fun m' hm' m'' hm'' => ?_⟩
      obtain rfl := List.mem_singleton.1 hm''
      rw [hticket]
      exact hs.lt_of_sized hk hm'
    · by_cases hlk : l = k
      · simp [hlk, SendPc.publishingId]
      · simp only [Function.update_of_ne hlk]
        rcases List.mem_append.1 hm' with hm' | hm'
        · exact hs.settled m' hm' l hl
        · obtain rfl := List.mem_singleton.1 hm'
          exact hbehind l (by omega)
  | @goOn k pc hidle hpub hticket hid hacc ht =>
    rw [ht] at hnumbered ⊢
    refine hs.keep hnumbered rfl rfl fun l i hl => ?_
    by_cases hlk : l = k
    · subst hlk
      exact hid i (by simpa using hl)
    · simpa [hlk, State.sending] using hl

theorem step {a : Act} (hs : Queued cfg s.sending) (hok : notOvertaken cfg s a = true)
    (h : step cfg s a = some t) : Queued cfg t.sending := by
  have hnumbered := hs.numbered.step (counted_of_notOvertaken hok) h
  cases a with
  | send a => exact hs.stepSend hok h
  | batch a =>
    have hsends := stepBatch_sends h
    obtain ⟨_, _, _, _, _, _, _, _, rfl⟩ := stepBatch_touches h
    exact hs.keep hnumbered rfl rfl hsends
  | frame a =>
    obtain ⟨_, _, _, _, rfl⟩ := stepFrame_touches h
    exact hs
  | shutdown a =>
    obtain ⟨_, _, rfl⟩ := stepShutdown_touches h
    exact hs
  | timeout a =>
    obtain ⟨_, _, _, _, rfl⟩ := stepTimeout_touches h
    exact hs
  | reconnect a =>
    obtain ⟨_, _, _, _, _, _, rfl⟩ := stepReconnect_touches h
    exact hs
  | stop a =>
    obtain ⟨_, _, _, _, _, _, _, _, rfl⟩ := stepStop_touches h
    exact hs

/-- The ids of the accepted messages increase with their tickets. -/
theorem publishingId_pairwise (hs : Queued cfg s.sending) :
    (s.accepted.map AccumulatedMessage.publishingId).Pairwise (· < ·) := by
  refine List.pairwise_map.2 (hs.sorted.imp_of_mem fun {m m'} hm hm' hlt => ?_)
  have htoNat : ∀ m ∈ s.accepted,
      m.publishingId.toNat = cfg.firstPublishingId.toNat + m.ticket := by
    intro m hm
    have hcall : m.ticket < s.calls := hs.numbered.ticketed.lt_calls fun hidle => by
      have hacc := (hs.numbered.accepted m hm).2
      simp [hidle, SendPc.accepted] at hacc
    have hrange : cfg.firstPublishingId.toNat + s.calls ≤ 2 ^ 64 := hs.range
    rw [(hs.numbered.accepted m hm).1, toNat_publishingId (by omega)]
  rw [UInt64.lt_iff_toNat_lt, htoNat m hm, htoNat m' hm']
  omega

end Queued

/-- What is passed along a run without a recovery comes in the order of the accumulator. -/
theorem passed_sublist {as : List Act}
    (hok : (machine cfg).Along (fun _ a => ∀ b, a ≠ .reconnect b) (initial cfg) as)
    (h : (machine cfg).run (initial cfg) as = some t) :
    ((machine cfg).record (passed cfg) (initial cfg) as).Sublist t.accepted := by
  have hstep : ∀ {s a t l}, (l ++ s.unpassed).Sublist s.accepted → (∀ b, a ≠ .reconnect b) →
      (machine cfg).step s a = some t →
      ((l ++ passed cfg s a t) ++ t.unpassed).Sublist t.accepted := by
    intro s a t l hs ha h
    obtain ⟨new, haccepted, hsub⟩ := step_unpassed ha h
    rw [haccepted, List.append_assoc]
    refine (hsub.append_left l).trans ?_
    rw [← List.append_assoc]
    exact hs.append_right new
  have hend := Machine.run_record_along
    (P := fun s l => (l ++ s.unpassed).Sublist s.accepted) hstep (l := []) (.refl _) hok h
  exact (List.sublist_append_left ..).trans (by simpa using hend)

/-- **The ids that are passed to `publish_encoded` increase**, in every run without a recovery in which
no call of `send` is overtaken between its id and the accumulator. -/
theorem passed_increasing {as : List Act}
    (hok : (machine cfg).Along (fun s a => notOvertaken cfg s a = true) (initial cfg) as)
    (h : (machine cfg).run (initial cfg) as = some t) :
    (((machine cfg).record (passed cfg) (initial cfg) as).map
      AccumulatedMessage.publishingId).Pairwise (· < ·) := by
  have hqueued : Queued cfg t.sending :=
    Machine.run_invariant (M := machine cfg) (P := fun u => Queued cfg u.sending)
      (fun hs hok h => hs.step hok h) (.initial cfg) hok h
  have hsub := passed_sublist (hok.imp fun s a hstep b hb => by simp [hb, notOvertaken] at hstep) h
  exact hqueued.publishingId_pairwise.sublist (hsub.map _)

/-- Two calls of `send` one after the other, and the batch of the second. -/
theorem passed_increasing_of_sequential :
    ∃ t, (machine pairs).run (initial pairs)
        (acceptedSend 0 ++ acceptedSend 1 ++ publishFull 1) = some t ∧
      (((machine pairs).record (passed pairs) (initial pairs)
        (acceptedSend 0 ++ acceptedSend 1 ++ publishFull 1)).map
          AccumulatedMessage.publishingId) = [0, 1] ∧
      (((machine pairs).record (passed pairs) (initial pairs)
        (acceptedSend 0 ++ acceptedSend 1 ++ publishFull 1)).map
          AccumulatedMessage.publishingId).Pairwise (· < ·) := by
  have hok : (machine pairs).checkAlong (fun s a => notOvertaken pairs s a = true) (initial pairs)
      (acceptedSend 0 ++ acceptedSend 1 ++ publishFull 1) = true := rfl
  exact ⟨_, rfl, rfl, passed_increasing (Machine.along_of_check hok) rfl⟩

/-- Two calls of `send` take their ids; the second one is the first to add its message. -/
def overtaking : List Act :=
  [.send (.call none), .send (.call none), .send (.check 0), .send (.check 1),
    .send (.acquire 0), .send (.acquire 1), .send (.encode 1 (some []) 0), .send (.insert 1),
    .send (.proceed 1), .send (.encode 0 (some []) 0), .send (.insert 0), .send (.proceed 0)]

/-- **A call that is overtaken is published behind a greater id**: the batch is passed to
`publish_encoded` with the ids 1 and 0, in this order. -/
theorem passed_decreasing_of_overtaking :
    ∃ t, (machine pairs).run (initial pairs) (overtaking ++ publishFull 0) = some t ∧
      ((machine pairs).record (passed pairs) (initial pairs) (overtaking ++ publishFull 0)).map
        AccumulatedMessage.publishingId = [1, 0] ∧
      t.client = some 0 ∧ t.created = 1 :=
  ⟨_, rfl, rfl, rfl, rfl⟩

end Hareflow.Producer
