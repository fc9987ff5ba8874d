import Hareflow.Foundations.Ledger
import Hareflow.Producer.Tickets

/-!
# Every accepted message is resolved once

A message that `send` has had accepted is, at each moment, in the accumulator, in the batch that
`publish_batch` moves, in `m_unconfirmed` or in the hands of the one caller that is going to call its
confirmation handler, or its handler has been called. Seen that way a producer is a ledger.

* `Numbered`: the calls of `send` without an id of their own get distinct ids, as long as there are
  no more than `2 ^ 64` of them, and a call is accepted exactly if its message is.
* `State.ledger` is the ledger of a state, and `step_move` that each step of the producer is a move
  of it. That the batch is not lost on its way to `m_unconfirmed`, which is keyed by the ids, is
  where `Numbered` is used, and `spares` excludes the exceptions of handlers that lose messages.
* `Tracked` is what remains of the ledger in any run: what is lost never comes back (`Lost`), and no
  message is in two places as long as no handler has thrown out of the first loop of
  `fail_all_unconfirmed`.
* At the end of the stop nothing waits and nothing is in anyone's hands (`Stopping.waiting_eq_zero`,
  `Stopping.out_eq_zero`), so every handler has been called. A stop does not come to its end after an
  exception: `stop()` then throws.
-/

namespace Hareflow.Producer

open Foundations

variable {cfg : Config} {s t : State}

/-! ## The numbers of the messages -/

/-- The id that the counter gives to the call with the number `k`. -/
def Config.publishingId (cfg : Config) (k : ℕ) : UInt64 :=
  cfg.firstPublishingId + UInt64.ofNat k

theorem Config.publishingId_inj (cfg : Config) {k l : ℕ} (hk : k < 2 ^ 64) (hl : l < 2 ^ 64)
    (h : cfg.publishingId k = cfg.publishingId l) : k = l := by
  have hof : UInt64.ofNat k = UInt64.ofNat l := by
    simpa [publishingId] using h
  have hmod := congrArg UInt64.toNat hof
  rw [UInt64.toNat_ofNat_of_lt' hk, UInt64.toNat_ofNat_of_lt' hl] at hmod
  exact hmod

structure Numbered (cfg : Config) (x : Sending) : Prop where
  next : x.nextPublishingId = cfg.publishingId x.calls
  few : x.calls ≤ 2 ^ 64
  fresh : ∀ k, x.calls ≤ k → x.sends k = .idle
  ids : ∀ k i, (x.sends k).publishingId = some i → i = cfg.publishingId k
  tickets : ∀ k m, x.sends k = .sized m → m.ticket = k
  batch : ∀ k pc, x.batch = some ⟨.send k, pc⟩ → x.sends k = .publishing
  accepted : ∀ m ∈ x.accepted,
    m.publishingId = cfg.publishingId m.ticket ∧ (x.sends m.ticket).accepted = true
  covered : ∀ k, (x.sends k).accepted = true → k ∈ x.accepted.map AccumulatedMessage.ticket
  nodup : (x.accepted.map AccumulatedMessage.ticket).Nodup

namespace Numbered

variable {x : Sending}

theorem ticketed (hx : Numbered cfg x) : Ticketed x :=
  ⟨hx.fresh, hx.tickets, hx.batch, fun m hm => (hx.accepted m hm).2, hx.covered, hx.nodup⟩

theorem of_ticketed (hx : Ticketed x) (hnext : x.nextPublishingId = cfg.publishingId x.calls)
    (hfew : x.calls ≤ 2 ^ 64)
    (hids : ∀ k i, (x.sends k).publishingId = some i → i = cfg.publishingId k)
    (haccepted : ∀ m ∈ x.accepted, m.publishingId = cfg.publishingId m.ticket) : Numbered cfg x :=
  ⟨hnext, hfew, hx.fresh, hids, hx.tickets, hx.batch,
    fun m hm => ⟨haccepted m hm, hx.accepted m hm⟩, hx.covered, hx.nodup⟩

/-- The messages of accepted calls have distinct ids. -/
theorem publishingId_inj (hx : Numbered cfg x) {m m' : AccumulatedMessage} (hm : m ∈ x.accepted)
    (hm' : m' ∈ x.accepted) (h : m.publishingId = m'.publishingId) : m = m' := by
  have hlt : ∀ m ∈ x.accepted, m.ticket < 2 ^ 64 := fun m hm =>
    Nat.lt_of_lt_of_le (hx.ticketed.lt_calls fun hi => by
      have := (hx.accepted m hm).2
      simp [hi, SendPc.accepted] at this) hx.few
  have hticket : m.ticket = m'.ticket := by
    refine Config.publishingId_inj cfg (hlt m hm) (hlt m' hm') ?_
    rw [← (hx.accepted m hm).1, ← (hx.accepted m' hm').1, h]
  exact List.inj_on_of_nodup_map hx.nodup hm hm' hticket

end Numbered

/-- The user gives no ids, and there are at most `2 ^ 64` calls of `send`. -/
def counted (s : State) : Act → Bool
  | .send (.call explicit) => explicit.isNone && decide (s.calls < 2 ^ 64)
  | _ => true

theorem Numbered.stepSend {a : SendAct} (hs : Numbered cfg s.sending)
    (hok : counted s (.send a) = true) (h : stepSend cfg s a = some t) : Numbered cfg t.sending := by
  have ht' := hs.ticketed.stepSend h
  have hids : ∀ k i, (s.sends k).publishingId = some i → i = cfg.publishingId k := hs.ids
  cases change_of_stepSend h with
  | call explicit ha ht =>
    subst ha
    obtain ⟨rfl, hfew⟩ : explicit = none ∧ s.calls < 2 ^ 64 := by
      simpa [counted] using hok
    rw [ht] at ht' ⊢
    refine .of_ticketed ht' ?_ hfew (fun l i hl => ?_) fun m hm => (hs.accepted m hm).1
    · have hnext : s.nextPublishingId = cfg.publishingId s.calls := hs.next
      simp only [hnext, Config.publishingId, UInt64.ofNat_add]
      rw [UInt64.add_assoc]
      rfl
    · by_cases hlk : l = s.calls
      · subst hlk
        have hi : s.nextPublishingId = i := by simpa [SendPc.publishingId] using hl
        rw [← hi]
        exact hs.next
      · exact hids l i (by simpa [hlk] using hl)
  | @insert k m full ha hk ht =>
    rw [ht] at ht' ⊢
    refine .of_ticketed ht' hs.next hs.few (fun l i hl => ?_) fun m' hm' => ?_
    · by_cases hlk : l = k
      · subst hlk
        simp [SendPc.publishingId] at hl
      · exact hids l i (by simpa [hlk] using hl)
    · rcases List.mem_append.1 hm' with hm' | hm'
      · exact (hs.accepted m' hm').1
      · obtain rfl : m' = m := by simpa using hm'
        rw [hs.tickets k m' hk]
        exact hids k _ (by simp [hk, SendPc.publishingId])
  | @goOn k pc hidle hpub hticket hid hacc ht =>
    rw [ht] at ht' ⊢
    refine .of_ticketed ht' hs.next hs.few (fun l i hl => ?_) fun m hm => (hs.accepted m hm).1
    by_cases hlk : l = k
    · subst hlk
      exact hids l i (hid i (by simpa using hl))
    · exact hids l i (by simpa [hlk] using hl)

theorem Numbered.stepBatch {a : BatchAct} (hs : Numbered cfg s.sending)
    (h : stepBatch cfg s a = some t) : Numbered cfg t.sending := by
  have ht' := hs.ticketed.stepBatch h
  have hsends := stepBatch_sends h
  obtain ⟨_, _, _, _, _, _, _, _, rfl⟩ := stepBatch_touches h
  refine .of_ticketed ht' hs.next hs.few (fun k i hk => ?_) fun m hm => (hs.accepted m hm).1
  exact hs.ids k i (hsends k i hk)

theorem Numbered.step {a : Act} (hs : Numbered cfg s.sending) (hok : counted s a = true)
    (h : step cfg s a = some t) : Numbered cfg t.sending := by
  cases a with
  | send a => exact hs.stepSend hok h
  | batch a => exact hs.stepBatch h
  | frame a =>
    obtain ⟨_, _, _, _, rfl⟩ := stepFrame_touches h
    exact hs
  | shutdown a =>
    obtain ⟨_, _, rfl⟩ := stepShutdown_touches h
    exact hs
  | timeout a =>
    obtain ⟨_, _, _, _, rfl⟩ := stepTimeout_touches h
    exact hs
  | reconnect a =>
    obtain ⟨_, _, _, _, _, _, rfl⟩ := stepReconnect_touches h
    exact hs
  | stop a =>
    obtain ⟨_, _, _, _, _, _, _, _, rfl⟩ := stepStop_touches h
    exact hs

/-! ## The ledger -/

/-- The message that a frame thread has taken out. -/
def FramePc.message : FramePc → Multiset AccumulatedMessage
  | .taken m _ => {m}
  | _ => 0

@[simp] theorem FramePc.message_reading : FramePc.reading.message = 0 := rfl

@[simp] theorem FramePc.message_taken (m : AccumulatedMessage) (st : ConfirmationStatus) :
    (FramePc.taken m st).message = {m} := rfl

@[simp] theorem FramePc.message_handling (m : AccumulatedMessage) :
    (FramePc.handling m).message = 0 := rfl

/-- What `check_confirm_timeout` has still to fail. -/
def TimeoutPc.todo : TimeoutPc → List AccumulatedMessage
  | .failing _ todo _ => todo
  | _ => []

/-- What `fail_all_unconfirmed` has still to fail. -/
def Stage.todo : Stage → List AccumulatedMessage
  | .unconfirmed todo | .pending _ todo => todo
  | _ => []

namespace State

/-- The batch on its way from the accumulator to `m_unconfirmed`. -/
def moving (s : State) : List AccumulatedMessage := (s.batch.map fun b => b.pc.messages).getD []

/-- What waits in `m_unconfirmed`. The loop of `fail_all_unconfirmed` over the map has all of it in
hand: it clears the map before it lets go of the mutex. -/
def waiting (s : State) : List AccumulatedMessage :=
  match s.stage with
  | .unconfirmed _ => []
  | _ => s.unconfirmed.entries

/-- What a frame thread, `check_confirm_timeout` or `fail_all_unconfirmed` has taken out and not yet
called the handler for. -/
def inHand (s : State) : Multiset AccumulatedMessage :=
  ∑ c ∈ Finset.range s.created, (s.frames c).message + s.timeout.todo + s.stage.todo

def ledger (s : State) : Ledger AccumulatedMessage where
  waiting := s.accumulator.pending + s.moving + s.waiting
  out := s.inHand
  called := s.handled.map Prod.fst

end State

/-- One frame thread moves. -/
theorem sum_message_update (frames : ℕ → FramePc) {c n : ℕ} (hc : c < n) (pc : FramePc) :
    (frames c).message + ∑ d ∈ Finset.range n, (Function.update frames c pc d).message =
      pc.message + ∑ d ∈ Finset.range n, (frames d).message :=
  add_sum_update frames (fun _ => FramePc.message) (Finset.mem_range.2 hc) pc

theorem waiting_of_not_locks (h : s.stage.locks = false) : s.waiting = s.unconfirmed.entries := by
  cases hst : s.stage <;> simp [State.waiting, hst, Stage.locks] at h ⊢

/-- With nobody in a critical section, what waits is what the accumulator and `m_unconfirmed` hold. -/
theorem ledger_waiting (h : s.unlocked = true) :
    s.ledger.waiting = s.accumulator.pending + s.unconfirmed.entries := by
  obtain ⟨hnone, hlocks⟩ := State.unlocked_iff.1 h
  simp [State.ledger, State.moving, hnone, waiting_of_not_locks hlocks]

open Ledger

theorem move_takeUnconfirmed {c : ℕ} {i : UInt64} {st : ConfirmationStatus} (hs : Stopping s)
    (h : s.takeUnconfirmed c i st = some t) : Move s.ledger t.ledger none := by
  simp only [State.takeUnconfirmed] at h
  split at h
  · rename_i hg
    split at h <;> cases h
    · rename_i m hm
      have hlt : c < s.created := hs.lt_created (by simp [hg.1, FramePc.active])
      have hsum := sum_message_update s.frames hlt (.taken m st)
      rw [hg.1, FramePc.message_reading, FramePc.message_taken, zero_add] at hsum
      have hperm : (s.unconfirmed.entries : Multiset AccumulatedMessage) =
          {m} + (s.unconfirmed.erase i).entries :=
        Multiset.coe_eq_coe.2 (Unconfirmed.perm_of_find hm)
      refine .take {m} ?_ ?_ rfl
      · rw [ledger_waiting hg.2, ledger_waiting (by exact hg.2), hperm]
        exact add_left_comm _ _ _
      · simp only [State.ledger, State.inHand, State.setFrame, hsum]
        ac_rfl
    · exact .stay rfl
  · cases h

/-- A frame thread that has no message in hand before and after leaves the ledger alone. -/
theorem ledger_setFrame (hs : Stopping s) {c : ℕ} (pc : FramePc) (hc : (s.frames c).active = true)
    (hold : (s.frames c).message = 0) (hnew : pc.message = 0) :
    (s.setFrame c pc).ledger = s.ledger := by
  have hsum := sum_message_update s.frames (hs.lt_created hc) pc
  rw [hold, hnew, zero_add, zero_add] at hsum
  simp only [State.ledger, State.inHand, State.setFrame, hsum]
  rfl

theorem move_stepFrame {a : FrameAct} (hs : Stopping s) (h : stepFrame s a = some t) :
    Move s.ledger t.ledger none := by
  cases a with
  | confirm c i => exact move_takeUnconfirmed hs h
  | error c i e => exact move_takeUnconfirmed hs h
  | invoke c =>
    simp only [stepFrame] at h
    split at h <;> cases h
    rename_i m st hc
    have hlt : c < s.created := hs.lt_created (by simp [hc, FramePc.active])
    have hsum := sum_message_update s.frames hlt (.handling m)
    rw [hc, FramePc.message_taken, FramePc.message_handling, zero_add] at hsum
    refine .call m rfl ?_ ?_
    · simp only [State.ledger, State.inHand, State.setFrame, State.handle, ← hsum,
        Multiset.singleton_add, Multiset.cons_add]
    · simp [State.ledger, State.setFrame, State.handle, ← Multiset.singleton_add, add_comm,
        ← Multiset.coe_add]
  | finish c =>
    simp only [stepFrame] at h
    split at h
    · rename_i m hc
      split at h <;> cases h
      exact .stay (ledger_setFrame hs .reading (by simp [hc, FramePc.active])
        (by simp [hc, FramePc.message]) rfl)
    · cases h
  | leave c =>
    simp only [stepFrame] at h
    split at h <;> cases h
    rename_i hc
    exact .stay (ledger_setFrame hs .left (by simp [hc, FramePc.active]) (by simp [hc, FramePc.message])
      rfl)

/-- A call of a handler, in the record of them. -/
theorem coe_handled_append (s : State) (m : AccumulatedMessage) (st : ConfirmationStatus) :
    ((s.handled ++ [(m, st)]).map Prod.fst : Multiset AccumulatedMessage) =
      m ::ₘ (s.handled.map Prod.fst : List AccumulatedMessage) := by
  simp [← Multiset.singleton_add, add_comm, ← Multiset.coe_add]

/-- What an exception out of `check_confirm_timeout` does: the messages after the one whose handler has
thrown are gone. -/
theorem abandons_timeout (h : stepTimeout cfg s .throw = some t) :
    ∃ m todo, s.timeout.todo = m :: todo ∧ Abandons s.ledger t.ledger m todo := by
  simp only [stepTimeout] at h
  split at h <;> cases h
  rename_i timedOut m todo e hg
  refine ⟨m, todo, by rw [hg]; rfl, rfl, ?_, coe_handled_append ..⟩
  simp only [State.ledger, State.inHand, State.handle, State.release, hg, TimeoutPc.todo,
    ← Multiset.cons_coe, Multiset.coe_nil, add_zero, Multiset.add_cons, Multiset.cons_add]
  congr 1
  ac_rfl

/-- `check_confirm_timeout` calls the last handler that it has to. -/
def TimeoutPc.last : TimeoutPc → Bool
  | .failing _ [_] _ => true
  | _ => false

/-- `fail_all_unconfirmed` calls the last handler that it has to. -/
def Stage.last : Stage → Bool
  | .pending _ [_] => true
  | _ => false

/-- No message is lost to an exception: a handler that throws is the last one to be called. -/
def spares (s : State) : Act → Bool
  | .timeout .throw => s.timeout.last
  | .stop (.throw _) => s.stage.last
  | _ => true

theorem move_stepTimeout {a : TimeoutAct} (hspares : spares s (.timeout a) = true)
    (h : stepTimeout cfg s a = some t) : Move s.ledger t.ledger none := by
  cases a with
  | enter =>
    simp only [stepTimeout] at h
    split at h <;> cases h
    rename_i hg
    refine .stay ?_
    simp [State.ledger, State.inHand, State.moving, State.waiting, hg.2.2, TimeoutPc.todo]
  | scan now =>
    simp only [stepTimeout] at h
    split at h <;> cases h
    rename_i hg
    have hperm : (s.unconfirmed.entries : Multiset AccumulatedMessage) =
        s.unconfirmed.timedOut now cfg.confirmTimeout +
          (s.unconfirmed.eraseAll (s.unconfirmed.timedOut now cfg.confirmTimeout)).entries :=
      Multiset.coe_eq_coe.2 (s.unconfirmed.perm_timedOut now cfg.confirmTimeout)
    refine .take (s.unconfirmed.timedOut now cfg.confirmTimeout) ?_ ?_ rfl
    · rw [ledger_waiting hg.2, ledger_waiting (by exact hg.2)]
      simp only
      nth_rewrite 1 [hperm]
      exact add_left_comm _ _ _
    · simp only [State.ledger, State.inHand, hg.1, TimeoutPc.todo, Multiset.coe_nil, add_zero]
      ac_rfl
  | invoke =>
    simp only [stepTimeout] at h
    split at h <;> cases h
    rename_i timedOut m todo e hg
    refine .call m rfl ?_ (coe_handled_append ..)
    simp only [State.ledger, State.inHand, State.handle, hg, TimeoutPc.todo, ← Multiset.cons_coe,
      Multiset.add_cons, Multiset.cons_add]
  | throw =>
    obtain ⟨m, todo, htodo, habandons⟩ := abandons_timeout h
    have hlast : todo = [] := by
      have hlast : s.timeout.last = true := hspares
      cases hpc : s.timeout with
      | failing timedOut todo' e =>
        rw [hpc] at hlast htodo
        obtain rfl : todo' = m :: todo := htodo
        cases todo with
        | nil => rfl
        | cons m' todo => cases hlast
      | _ => simp [hpc, TimeoutPc.last] at hlast
    subst hlast
    exact habandons.move
  | finish =>
    simp only [stepTimeout] at h
    split at h <;> cases h
    rename_i timedOut e hg
    refine .stay ?_
    simp [State.ledger, State.inHand, State.moving, State.waiting, State.release, hg, TimeoutPc.todo]

theorem move_stepReconnect {a : ReconnectAct} (h : stepReconnect cfg s a = some t) :
    Move s.ledger t.ledger none := by
  refine .stay ?_
  cases a with
  | connect =>
    simp only [stepReconnect] at h
    split at h <;> cases h
    have hsum : ∑ c ∈ Finset.range (s.created + 1),
        (Function.update s.frames s.created .reading c).message =
          ∑ c ∈ Finset.range s.created, (s.frames c).message := by
      rw [Finset.sum_range_succ, Function.update_self]
      rw [FramePc.message_reading, add_zero]
      refine Finset.sum_congr rfl fun c hc => ?_
      rw [Function.update_of_ne (Finset.mem_range.1 hc).ne]
    simp only [State.ledger, State.inHand, State.setFrame, hsum]
    rfl
  | _ =>
    simp only [stepReconnect] at h
    (repeat' split at h) <;> first
      | (cases h; done)
      | (cases h; rfl)

/-- What an exception out of the second loop of `fail_all_unconfirmed` does. -/
theorem abandons_pending {p : Stopper} {m : AccumulatedMessage}
    {extracted todo : List AccumulatedMessage} (hst : s.stage = .pending extracted (m :: todo)) :
    Abandons s.ledger { ((s.handle m ⟨false, p.code⟩).release extracted.length).setStop p .threw with
      stage := .aborted true : State }.ledger m todo := by
  refine ⟨?_, ?_, coe_handled_append ..⟩
  · simp [State.ledger, State.moving, State.waiting, State.handle, State.release, State.setStop, hst]
  · simp only [State.ledger, State.inHand, State.handle, State.release, State.setStop, hst, Stage.todo,
      ← Multiset.cons_coe, Multiset.coe_nil, add_zero, Multiset.add_cons]
    rw [add_comm]

theorem move_stepStop {a : StopAct} (hs : Stopping s) (hspares : spares s (.stop a) = true)
    (h : stepStop s a = some t) : Move s.ledger t.ledger none := by
  cases stopMove_of_step h with
  | callUser | callFrame | callTask | destroy | join | joinThrew | decline => exact .stay rfl
  | exchange hpc hst | accumulator hpc hst | semaphore hpc hst | take hpc hst | takeNone hpc hst
  | stopped hpc hst | finish hpc hst =>
    refine .stay ?_
    simp [State.ledger, State.inHand, State.moving, State.waiting, State.release, State.setStop,
      Accumulator.destroy, hst, Stage.todo]
  | lock hpc hst hfree =>
    refine .take s.unconfirmed.entries ?_ ?_ rfl
    · rw [ledger_waiting hfree]
      simp [State.ledger, State.moving, State.waiting, (State.unlocked_iff.1 hfree).1, add_comm]
    · simp [State.ledger, State.inHand, hst, Stage.todo]
  | @failUnconfirmed p m todo hpc hst | @failPending p m extracted todo hpc hst =>
    refine .call m ?_ ?_ (coe_handled_append ..)
    · simp [State.ledger, State.moving, State.waiting, State.handle, hst]
    · simp only [State.ledger, State.inHand, State.handle, hst, Stage.todo, ← Multiset.cons_coe,
        Multiset.add_cons]
  | clear hpc hst =>
    have hnone : s.batch = none := hs.batch_eq_none (by simp [hst, Stage.locks])
    refine .take s.accumulator.pending ?_ ?_ rfl
    · simp [State.ledger, State.moving, State.waiting, State.release, hst, hnone,
        Accumulator.extractAll]
    · simp [State.ledger, State.inHand, State.release, hst, Stage.todo, Accumulator.extractAll]
  | abortUnconfirmed hpc hst => simp [spares, hst, Stage.last] at hspares
  | @abortPending p m extracted todo hpc hst =>
    cases todo with
    | nil => exact (abandons_pending hst).move
    | cons m' todo => simp [spares, hst, Stage.last] at hspares

theorem ledger_finish (u : State) (caller : Caller) : (u.finish caller).ledger = u.ledger := by
  cases caller <;> rfl

/-- While a batch is inserted the producer is not failing its messages. -/
theorem Stopping.not_locks_of_insert (hs : Stopping s) (h : stepBatch cfg s .insert = some t) :
    s.stage.locks = false := by
  by_contra hlocks
  simp [stepBatch, hs.batch_eq_none (by simpa using hlocks)] at h

/-- `publish_batch` adds its batch to what waits in `m_unconfirmed`. -/
theorem ledger_insert (hs : Stopping s) (h : stepBatch cfg s .insert = some t) :
    s.ledger.waiting = s.accumulator.pending + s.moving + s.unconfirmed.entries ∧
      t.ledger.waiting = s.accumulator.pending + (s.unconfirmed.emplaceAll s.moving).entries ∧
      t.ledger.out = s.ledger.out ∧ t.ledger.called = s.ledger.called := by
  have hopen := hs.not_locks_of_insert h
  cases batchMove_of_step h
  rename_i caller ms hb
  have hmoving : s.moving = ms := by simp [State.moving, hb, BatchPc.messages]
  rw [ledger_finish, hmoving]
  refine ⟨by simp [State.ledger, hmoving, waiting_of_not_locks hopen], ?_, rfl, rfl⟩
  rw [ledger_waiting (by simp [State.unlocked, State.release, hopen])]
  rfl

/-- The other steps of `publish_batch` leave the ledger alone. -/
theorem ledger_stepBatch {a : BatchAct} (h : stepBatch cfg s a = some t) (ha : a ≠ .insert) :
    t.ledger = s.ledger := by
  cases batchMove_of_step h with
  | flush | task => rfl
  | lock hcall hfree =>
    have hnone : s.batch = none := (State.unlocked_iff.1 hfree).1
    simp [State.ledger, State.inHand, State.moving, State.waiting, hnone, BatchPc.messages]
  | @decline caller => exact ledger_finish s caller
  | extract hb =>
    simp [State.ledger, State.inHand, State.moving, State.waiting, hb, BatchPc.messages,
      Accumulator.extractAll]
  | publish hb | park hb =>
    simp [State.ledger, State.inHand, State.moving, State.waiting, State.write, hb,
      BatchPc.messages]
  | insert => exact absurd rfl ha

/-- No id of the batch that is inserted is there twice, or in `m_unconfirmed`. -/
def State.DistinctIds (s : State) : Act → Prop
  | .batch .insert =>
    ((s.unconfirmed.entries ++ s.moving).map AccumulatedMessage.publishingId).Nodup
  | _ => True

instance (s : State) : (a : Act) → Decidable (s.DistinctIds a)
  | .batch .insert => inferInstanceAs (Decidable (List.Nodup _))
  | .batch (.flush _) | .batch .task | .batch (.lock _) | .batch .extract | .batch (.publish _) =>
    .isTrue trivial
  | .send _ | .frame _ | .shutdown _ | .timeout _ | .reconnect _ | .stop _ => .isTrue trivial

theorem move_stepBatch {a : BatchAct} (hs : Stopping s) (hids : s.DistinctIds (.batch a))
    (h : stepBatch cfg s a = some t) : Move s.ledger t.ledger none := by
  refine .stay ?_
  by_cases ha : a = .insert
  · subst ha
    obtain ⟨hwaiting, hwaiting', hout, hcalled⟩ := ledger_insert hs h
    refine Ledger.ext ?_ hout hcalled
    rw [hwaiting, hwaiting', Unconfirmed.entries_emplaceAll hids, ← Multiset.coe_add]
    ac_rfl
  · exact ledger_stepBatch h ha

/-- **Each step is a move of the ledger**, and what it accepts is what `add` has accepted. -/
theorem step_move {a : Act} (hs : Stopping s) (hn : Ticketed s.sending) (hids : s.DistinctIds a)
    (hspares : spares s a = true) (h : step cfg s a = some t) :
    ∃ o, Move s.ledger t.ledger o ∧ t.accepted = s.accepted ++ o.toList ∧
      ∀ m ∈ o, m ∉ s.accepted := by
  have hnone : t.accepted = s.accepted → Move s.ledger t.ledger none → ∃ o,
      Move s.ledger t.ledger o ∧ t.accepted = s.accepted ++ o.toList ∧ ∀ m ∈ o, m ∉ s.accepted :=
    fun hacc hmove => ⟨none, hmove, by simp [hacc], by simp⟩
  cases a with
  | send a =>
    obtain ⟨k, m, full, -, hk, -, rfl⟩ | ⟨_, _, _, _, rfl⟩ := stepSend_inv h
    · refine ⟨some m, .accept m ?_ rfl rfl, rfl, ?_⟩
      · simp only [State.ledger, State.moving, State.waiting, State.setSend, ← Multiset.coe_add,
          ← Multiset.singleton_add, Multiset.coe_singleton]
        ac_rfl
      · intro m' hm'
        obtain rfl : m = m' := by simpa using hm'
        exact (hn.insert full hk).2
    · exact hnone rfl (.stay rfl)
  | batch a => exact hnone (step_send_frame h (by simp)).2 (move_stepBatch hs hids h)
  | frame a => exact hnone (step_send_frame h (by simp)).2 (move_stepFrame hs h)
  | shutdown a =>
    obtain ⟨_, _, rfl⟩ := stepShutdown_touches h
    exact hnone rfl (.stay rfl)
  | timeout a => exact hnone (step_send_frame h (by simp)).2 (move_stepTimeout hspares h)
  | reconnect a => exact hnone (step_send_frame h (by simp)).2 (move_stepReconnect h)
  | stop a => exact hnone (step_send_frame h (by simp)).2 (move_stepStop hs hspares h)

/-! ## What is lost does not come back -/

theorem State.distinctIds_of_ne {a : Act} (ha : a ≠ .batch .insert) : s.DistinctIds a := by
  unfold State.DistinctIds
  split
  · exact absurd rfl ha
  · trivial

/-- Nothing takes back the call of a handler. -/
theorem handled_step {a : Act} (h : step cfg s a = some t) : s.handled ⊆ t.handled := by
  have hcall : ∀ x, s.handled ⊆ s.handled ++ [x] := fun x => List.subset_append_left ..
  cases a with
  | send a =>
    obtain ⟨k, m, full, -, -, -, rfl⟩ | ⟨_, _, _, _, rfl⟩ := stepSend_inv h <;> exact List.Subset.refl _
  | batch a =>
    obtain ⟨_, _, _, _, _, _, _, _, rfl⟩ := stepBatch_touches h
    exact List.Subset.refl _
  | frame a =>
    cases a <;> simp only [step, stepFrame, State.takeUnconfirmed] at h <;> (repeat' split at h) <;> first
      | (cases h; done)
      | (cases h; exact List.Subset.refl _)
      | (cases h; exact hcall _)
  | shutdown a =>
    obtain ⟨_, _, rfl⟩ := stepShutdown_touches h
    exact List.Subset.refl _
  | timeout a =>
    cases a <;> simp only [step, stepTimeout] at h <;> split at h <;> first
      | (cases h; done)
      | (cases h; exact List.Subset.refl _)
      | (cases h; exact hcall _)
  | reconnect a =>
    obtain ⟨_, _, _, _, _, _, rfl⟩ := stepReconnect_touches h
    exact List.Subset.refl _
  | stop a =>
    cases stopMove_of_step h with
    | failUnconfirmed | failPending | abortUnconfirmed | abortPending => exact hcall _
    | _ => exact List.Subset.refl _

/-- The first loop of `fail_all_unconfirmed` has called the handlers that it has not still to call. -/
def State.Looped (s : State) : Prop :=
  ∀ todo, s.stage = .unconfirmed todo → ∀ m ∈ s.unconfirmed.entries,
    m ∈ todo ∨ m ∈ s.handled.map Prod.fst

theorem State.Looped.step {a : Act} (hl : s.Looped) (hs : Stopping s) (h : step cfg s a = some t) :
    t.Looped := by
  intro todo hst m hm
  by_cases ha : ∃ b, a = .stop b
  · obtain ⟨b, rfl⟩ := ha
    cases stopMove_of_step h with
    | callUser | callFrame | callTask | destroy | join | joinThrew | decline => exact hl todo hst m hm
    | lock =>
      obtain rfl := Stage.unconfirmed.inj hst
      exact .inl hm
    | @failUnconfirmed p m' todo' hpc hst' =>
      obtain rfl := Stage.unconfirmed.inj hst
      rcases hl _ hst' m hm with hmem | hmem
      · rcases List.mem_cons.1 hmem with rfl | hmem
        · exact .inr (by simp [State.handle])
        · exact .inl hmem
      · exact .inr (List.map_subset _ (handled_step h) hmem)
    | _ => cases hst
  · have ha' : ∀ b, a ≠ .stop b := fun b hb => ha ⟨b, hb⟩
    have hstage := (step_stop_frame h ha').2.1
    have hst' : s.stage = .unconfirmed todo := hstage ▸ hst
    rw [hs.unconfirmed_of_locks h ha' (by simp [hst', Stage.locks])] at hm
    exact (hl todo hst' m hm).imp_right fun hmem => List.map_subset _ (handled_step h) hmem

/-- **What a step may lose**: what is in one of the places was there before or is accepted, and unless
a handler has thrown out of the first loop of `fail_all_unconfirmed` it is not there twice. -/
structure Loses (s t : State) (o : Option AccumulatedMessage) : Prop where
  lossy : t.stage ≠ .aborted false → LossyMove s.ledger t.ledger o
  mem : ∀ m ∈ t.ledger.all, m ∈ s.ledger.all ∨ m ∈ o
  accepted : t.accepted = s.accepted ++ o.toList
  fresh : ∀ m ∈ o, m ∉ s.accepted

theorem Loses.of_lossy (haccepted : t.accepted = s.accepted)
    (hlossy : LossyMove s.ledger t.ledger none) : Loses s t none :=
  ⟨fun _ => hlossy, fun _ hm => hlossy.mem hm, by simp [haccepted], by simp⟩

/-- `publish_batch` loses the messages whose ids are taken. -/
theorem loses_insert (hs : Stopping s) (h : step cfg s (.batch .insert) = some t) :
    Loses s t none := by
  have hinsert : stepBatch cfg s .insert = some t := h
  obtain ⟨hwaiting, hwaiting', hout, hcalled⟩ := ledger_insert hs hinsert
  obtain ⟨dropped, hperm, -⟩ := s.unconfirmed.exists_dropped s.moving
  have hsplit : (s.unconfirmed.entries + s.moving : Multiset AccumulatedMessage) =
      dropped + (s.unconfirmed.emplaceAll s.moving).entries := Multiset.coe_eq_coe.2 hperm
  have hall : s.ledger.all = dropped + t.ledger.all := by
    calc s.ledger.all
        = s.accumulator.pending + (s.unconfirmed.entries + s.moving) + s.ledger.out +
            s.ledger.called := by
          rw [all, hwaiting]
          ac_rfl
      _ = dropped + (s.accumulator.pending + (s.unconfirmed.emplaceAll s.moving).entries +
            s.ledger.out + s.ledger.called) := by
          rw [hsplit]
          ac_rfl
      _ = dropped + t.ledger.all := by rw [all, hwaiting', hout, hcalled]
  refine .of_lossy (step_send_frame h (by simp)).2 ?_
  rw [LossyMove, hall, Option.toList_none, Multiset.coe_nil, add_zero]
  exact Multiset.le_add_left _ _

/-- The first loop of `fail_all_unconfirmed` leaves what it has called in `m_unconfirmed`. -/
theorem loses_abortUnconfirmed {p : Stopper} {m : AccumulatedMessage} {todo : List AccumulatedMessage}
    (hl : s.Looped) (hst : s.stage = .unconfirmed (m :: todo)) :
    Loses s { (s.handle m ⟨false, p.code⟩).setStop p .threw with stage := .aborted false } none := by
  refine ⟨fun hne => absurd rfl hne, fun m' hm' => .inl ?_, by simp; rfl, by simp⟩
  have hloop := hl _ hst m'
  simp only [all, State.ledger, State.inHand, State.moving, State.waiting, State.handle,
    State.setStop, hst, Stage.todo, Multiset.mem_add, Multiset.mem_coe, Multiset.coe_nil,
    Multiset.notMem_zero, List.map_append, List.mem_append, List.map_cons, List.map_nil,
    List.mem_cons, List.not_mem_nil, or_false] at hm' hloop ⊢
  tauto

theorem step_loses {a : Act} (hs : Stopping s) (hn : Ticketed s.sending) (hl : s.Looped)
    (h : step cfg s a = some t) : ∃ o, Loses s t o := by
  have hmove : a ≠ .batch .insert → spares s a = true → ∃ o, Loses s t o := by
    intro ha hspares
    obtain ⟨o, hmove, haccepted, hnew⟩ := step_move hs hn (State.distinctIds_of_ne ha) hspares h
    exact ⟨o, fun _ => hmove.lossy, fun m hm => hmove.lossy.mem hm, haccepted, hnew⟩
  cases a with
  | batch a =>
    by_cases ha : a = .insert
    · subst ha
      exact ⟨none, loses_insert hs h⟩
    · exact hmove (by simpa using ha) rfl
  | timeout a =>
    cases a with
    | throw =>
      have hthrow : stepTimeout cfg s .throw = some t := h
      obtain ⟨m, todo, -, habandons⟩ := abandons_timeout hthrow
      exact ⟨none, .of_lossy (step_send_frame h (by simp)).2 habandons.lossy⟩
    | _ => exact hmove (by simp) rfl
  | stop a =>
    cases a with
    | throw p =>
      have hthrow : stepStop s (.throw p) = some t := h
      cases stopMove_of_step hthrow with
      | abortPending hpc hst =>
        exact ⟨none, .of_lossy (step_send_frame h (by simp)).2 (abandons_pending hst).lossy⟩
      | abortUnconfirmed hpc hst => exact ⟨none, loses_abortUnconfirmed hl hst⟩
    | _ => exact hmove (by simp) rfl
  | _ => exact hmove (by simp) rfl

namespace State

/-- How often the handler of a call of `send` has been called. -/
def invocations (s : State) (k : ℕ) : ℕ := (s.handled.map fun c => c.1.ticket).count k

/-- How often the message of a call is in a list. -/
def among (ms : Multiset AccumulatedMessage) (k : ℕ) : ℕ :=
  (ms.map AccumulatedMessage.ticket).count k

end State

theorem invocations_eq (s : State) (k : ℕ) :
    s.invocations k = (s.ledger.map AccumulatedMessage.ticket).called.count k := by
  simp [State.invocations, Ledger.map, State.ledger, Function.comp_def]

/-- What the ledger says about a state in any run. -/
structure Tracked (s : State) : Prop where
  stopping : Stopping s
  ticketed : Ticketed s.sending
  looped : s.Looped
  recorded : ∀ m ∈ s.ledger.all, m ∈ s.accepted
  traced : s.stage ≠ .aborted false → Traced s.accepted s.ledger

namespace Tracked

variable {m : AccumulatedMessage}

theorem initial (cfg : Config) : Tracked (initial cfg) := by
  have hall : (Producer.initial cfg).ledger.all = 0 := by
    simp [all, State.ledger, State.inHand, State.moving, State.waiting, Producer.initial,
      TimeoutPc.todo, Stage.todo]
  refine ⟨.initial cfg, ⟨?_, ?_, ?_, ?_, ?_, ?_⟩, ?_, by simp [hall], fun _ => ⟨?_, List.nodup_nil⟩⟩
  · simp [State.sending, Producer.initial]
  · simp [State.sending, Producer.initial]
  · simp [State.sending, Producer.initial]
  · simp [State.sending, Producer.initial]
  · simp [State.sending, Producer.initial, SendPc.accepted]
  · simp [State.sending, Producer.initial]
  · simp [State.Looped, Producer.initial]
  · rw [hall]
    exact Multiset.zero_le _

theorem step {a : Act} (hs : Tracked s) (h : step cfg s a = some t) : Tracked t := by
  obtain ⟨o, hloses⟩ := step_loses hs.stopping hs.ticketed hs.looped h
  refine ⟨hs.stopping.step h, hs.ticketed.step h, hs.looped.step hs.stopping h, fun m hm => ?_,
    fun hne => ?_⟩
  · rw [hloses.accepted]
    rcases hloses.mem m hm with hm | hm
    · exact List.mem_append_left _ (hs.recorded m hm)
    · exact List.mem_append_right _ (by simpa using hm)
  · rw [hloses.accepted]
    exact (hs.traced fun hst => hne (aborted_step h hst)).move (hloses.lossy hne) hloses.fresh

theorem of_run {as : List Act} (hs : Tracked s) (h : (machine cfg).run s as = some t) : Tracked t :=
  Machine.run_keeps (P := Tracked) (fun hs h => hs.step h) hs h

theorem of_reachable (h : (machine cfg).Reachable s) : Tracked s := by
  obtain ⟨_, as, rfl, hrun⟩ := h
  exact (Tracked.initial cfg).of_run hrun

/-- A message whose handler has been called: that was the only call. -/
theorem invocations_eq_one (hs : Tracked s) (hne : s.stage ≠ .aborted false)
    {st : ConfirmationStatus} (hm : (m, st) ∈ s.handled) : s.invocations m.ticket = 1 := by
  have hcalled : m ∈ s.handled.map Prod.fst := List.mem_map_of_mem hm
  rw [invocations_eq]
  refine ((hs.traced hne).map hs.ticketed.nodup).count_called_eq_one ?_
  exact Multiset.mem_map_of_mem AccumulatedMessage.ticket (Multiset.mem_coe.2 hcalled)

/-- Only handlers of messages that were accepted are called. -/
theorem exists_of_invocations (hs : Tracked s) {k : ℕ} (hk : s.invocations k ≠ 0) :
    ∃ m ∈ s.accepted, m.ticket = k ∧ m ∈ s.ledger.called := by
  rw [invocations_eq, ne_eq, Multiset.count_eq_zero, not_not] at hk
  obtain ⟨m, hm, hticket⟩ : ∃ m ∈ s.ledger.called, m.ticket = k := Multiset.mem_map.1 hk
  exact ⟨m, hs.recorded m (Multiset.mem_add.2 (.inr hm)), hticket, hm⟩

/-- The calls of the handler of a message are those with that message. -/
theorem invocations_eq_zero (hs : Tracked s) (haccepted : m ∈ s.accepted)
    (hm : m ∉ s.ledger.called) : s.invocations m.ticket = 0 := by
  by_contra hne
  obtain ⟨m', hacc, hticket, hcalled⟩ := hs.exists_of_invocations hne
  obtain rfl := hs.ticketed.eq_of_ticket_eq hacc haccepted hticket
  exact hm hcalled

end Tracked

/-- The handler of the message is called in no continuation. -/
def Lost (cfg : Config) (s : State) (m : AccumulatedMessage) : Prop :=
  ∀ as t, (machine cfg).run s as = some t → t.invocations m.ticket = 0

/-- A message that was accepted and is in no place is lost. -/
theorem Tracked.lost {m : AccumulatedMessage} (hs : Tracked s) (haccepted : m ∈ s.accepted)
    (hm : m ∉ s.ledger.all) : Lost cfg s m := by
  intro as t h
  have hstep : ∀ {u v a}, Tracked u ∧ m ∈ u.accepted ∧ m ∉ u.ledger.all →
      (machine cfg).step u a = some v → Tracked v ∧ m ∈ v.accepted ∧ m ∉ v.ledger.all := by
    rintro u v a ⟨hu, hacc, hgone⟩ h
    obtain ⟨o, hloses⟩ := step_loses hu.stopping hu.ticketed hu.looped h
    refine ⟨hu.step h, accepted_step h m hacc, fun hmem => ?_⟩
    rcases hloses.mem m hmem with hmem | ho
    · exact hgone hmem
    · exact hloses.fresh m ho hacc
  obtain ⟨ht, hacc, hgone⟩ := Machine.run_keeps (M := machine cfg)
    (P := fun u => Tracked u ∧ m ∈ u.accepted ∧ m ∉ u.ledger.all) hstep ⟨hs, haccepted, hm⟩ h
  exact ht.invocations_eq_zero hacc fun hcalled => hgone (Multiset.mem_add.2 (.inr hcalled))

/-! ## Every handler is called once -/

/-- An exception has ended `check_confirm_timeout` or `fail_all_unconfirmed`. -/
def State.Abandoned (s : State) : Prop :=
  s.timeout = .threw ∨ ∃ cleared, s.stage = .aborted cleared

theorem threw_step {a : Act} (h : step cfg s a = some t) (hs : s.timeout = .threw) :
    t.timeout = .threw := by
  cases a with
  | send a =>
    obtain ⟨k, m, full, -, -, -, rfl⟩ | ⟨_, _, _, _, rfl⟩ := stepSend_inv h <;> exact hs
  | batch a =>
    obtain ⟨_, _, _, _, _, _, _, _, rfl⟩ := stepBatch_touches h
    exact hs
  | frame a =>
    obtain ⟨_, _, _, _, rfl⟩ := stepFrame_touches h
    exact hs
  | shutdown a =>
    obtain ⟨_, _, rfl⟩ := stepShutdown_touches h
    exact hs
  | timeout a => cases a <;> simp [step, stepTimeout, hs] at h
  | reconnect a =>
    obtain ⟨_, _, _, _, _, _, rfl⟩ := stepReconnect_touches h
    exact hs
  | stop a =>
    obtain ⟨_, _, _, _, _, _, _, _, rfl⟩ := stepStop_touches h
    exact hs

theorem State.Abandoned.step {a : Act} (hs : s.Abandoned) (h : step cfg s a = some t) : t.Abandoned :=
  hs.imp (threw_step h) fun ⟨cleared, hst⟩ => ⟨cleared, aborted_step h hst⟩

/-- A step that does not end one of the two by an exception loses nothing to one. -/
theorem spares_of_not_abandoned {a : Act} (h : step cfg s a = some t) (ht : ¬t.Abandoned) :
    spares s a = true := by
  cases a with
  | timeout a =>
    cases a with
    | throw =>
      simp only [step, stepTimeout] at h
      split at h <;> cases h
      exact absurd (.inl rfl) ht
    | _ => rfl
  | stop a =>
    cases a with
    | throw p =>
      have hthrow : stepStop s (.throw p) = some t := h
      cases stopMove_of_step hthrow <;> exact absurd (.inr ⟨_, rfl⟩) ht
    | _ => rfl
  | _ => rfl

/-- What waits outside the accumulator has distinct ids. -/
theorem nodup_publishingId (hn : Numbered cfg s.sending) (ht : Traced s.accepted s.ledger)
    (hlocks : s.stage.locks = false) :
    ((s.unconfirmed.entries ++ s.moving).map AccumulatedMessage.publishingId).Nodup := by
  have hsub : (s.unconfirmed.entries ++ s.moving : Multiset AccumulatedMessage) ≤ s.ledger.all := by
    simp only [all, State.ledger, waiting_of_not_locks hlocks, ← Multiset.coe_add]
    rw [add_comm (s.unconfirmed.entries : Multiset AccumulatedMessage), add_assoc, add_assoc, add_assoc]
    refine le_trans ?_ (Multiset.le_add_left _ _)
    rw [← add_assoc]
    exact Multiset.le_add_right _ _
  refine List.Nodup.map_on ?_ (Multiset.coe_nodup.1 (Multiset.nodup_of_le hsub ht.nodup_all))
  intro m hm m' hm' h
  exact hn.publishingId_inj (ht.mem_accepted (Multiset.mem_of_le hsub (Multiset.mem_coe.2 hm)))
    (ht.mem_accepted (Multiset.mem_of_le hsub (Multiset.mem_coe.2 hm'))) h

/-- Ids from the counter do not repeat. -/
theorem Numbered.distinctIds {a : Act} (hn : Numbered cfg s.sending) (hs : Tracked s)
    (h : Producer.step cfg s a = some t) : s.DistinctIds a := by
  unfold State.DistinctIds
  split
  · have hinsert : Producer.stepBatch cfg s .insert = some t := h
    refine nodup_publishingId hn (hs.traced fun hst => ?_) (hs.stopping.not_locks_of_insert hinsert)
    have hnone := (hs.stopping.drained.moved (by simp [hst, Stage.rank])).2
    simp [Producer.stepBatch, hnone] at hinsert
  · trivial

/-- A step that repeats no id and loses nothing to an exception keeps the ledger. -/
theorem Tracked.kept_step {a : Act} (hs : Tracked s) (hkept : Kept s.accepted s.ledger)
    (hids : s.DistinctIds a) (hspares : spares s a = true) (h : Producer.step cfg s a = some t) :
    Kept t.accepted t.ledger := by
  obtain ⟨o, hmove, hacc, hnew⟩ := step_move hs.stopping hs.ticketed hids hspares h
  rw [hacc]
  exact hkept.move hmove hnew

theorem kept_initial (cfg : Config) : Kept (initial cfg).accepted (initial cfg).ledger := by
  refine ⟨?_, List.nodup_nil⟩
  simp [Ledger.all, State.ledger, State.inHand, State.moving, State.waiting, initial, TimeoutPc.todo,
    Stage.todo]

/-- In a run without repeated ids and without messages lost to exceptions nothing is lost. -/
theorem kept_of_run {as : List Act} (hids : (machine cfg).Along State.DistinctIds (initial cfg) as)
    (hspares : (machine cfg).Along (fun s a => spares s a = true) (initial cfg) as)
    (h : (machine cfg).run (initial cfg) as = some t) : Kept t.accepted t.ledger :=
  (Machine.run_invariant (M := machine cfg) (P := fun s => Tracked s ∧ Kept s.accepted s.ledger)
    (fun hs hok h => ⟨hs.1.step h, hs.1.kept_step hs.2 hok.1 hok.2 h⟩)
    ⟨.initial cfg, kept_initial cfg⟩ (hids.and hspares) h).2

/-- What the ledger says about a state of a run in which the ids come from the counter. -/
structure Accounted (cfg : Config) (s : State) : Prop where
  tracked : Tracked s
  numbered : Numbered cfg s.sending
  kept : ¬s.Abandoned → Kept s.accepted s.ledger

theorem Accounted.initial (cfg : Config) : Accounted cfg (initial cfg) := by
  refine ⟨.initial cfg, .of_ticketed (Tracked.initial cfg).ticketed ?_ (Nat.zero_le _) ?_ ?_,
    fun _ => kept_initial cfg⟩
  · exact (UInt64.add_zero _).symm
  all_goals simp [State.sending, Producer.initial, SendPc.publishingId]

theorem Accounted.step {a : Act} (hs : Accounted cfg s) (hok : counted s a = true)
    (h : Producer.step cfg s a = some t) : Accounted cfg t := by
  refine ⟨hs.tracked.step h, hs.numbered.step hok h, fun ht => ?_⟩
  exact hs.tracked.kept_step (hs.kept fun habandoned => ht (habandoned.step h))
    (hs.numbered.distinctIds hs.tracked h) (spares_of_not_abandoned h ht) h

/-- At the end of a stop nothing waits. -/
theorem Stopping.waiting_eq_zero (hs : Stopping s) (h : s.stage = .done) :
    s.ledger.waiting = 0 := by
  have hempty := hs.drained.emptied (by simp [h, Stage.rank]) (by simp [h])
  have hmoved := hs.drained.moved (by simp [h, Stage.rank])
  simp [State.ledger, State.moving, State.waiting, h, hempty.1, hempty.2, hmoved.2]

/-- At the end of a stop `check_confirm_timeout` is over, and not by an exception. -/
theorem Stopping.timeout_eq (hs : Stopping s) (h : s.stage = .done) : s.timeout = .idle :=
  (hs.quiet.stopped (by simp [h]) .confirmTimeout (by decide)).timeout_eq

theorem Stopping.not_abandoned (hs : Stopping s) (h : s.stage = .done) : ¬s.Abandoned := by
  rintro (ht | ⟨cleared, hst⟩)
  · simp [hs.timeout_eq h] at ht
  · simp [h] at hst

/-- At the end of a stop nobody has a message in hand. -/
theorem Stopping.out_eq_zero (hs : Stopping s) (h : s.stage = .done) : s.ledger.out = 0 := by
  have hframes : ∑ c ∈ Finset.range s.created, (s.frames c).message = 0 := by
    refine Finset.sum_eq_zero fun c _ => ?_
    have htaken := hs.referenced.untaken h c
    cases hc : s.frames c with
    | taken m st => exact absurd hc (htaken m st)
    | _ => rfl
  simp [State.ledger, State.inHand, hframes, hs.timeout_eq h, h, TimeoutPc.todo, Stage.todo]

/-- The ledger of the calls of `send`. -/
theorem Accounted.tickets (hs : Accounted cfg s) (hkept : Kept s.accepted s.ledger) :
    Kept (s.accepted.map AccumulatedMessage.ticket) (s.ledger.map AccumulatedMessage.ticket) :=
  hkept.map hs.numbered.nodup

/-- **Every accepted message is resolved once.** In a run in which the ids come from the counter:
the handler of a `send` that throws is not called, and once the call of `internal_stop` that stopped
the producer has returned, the handler of every `send` that returned has been called exactly once. If
moreover no message is lost to the exception of a handler, then no handler is called twice, and a
message that was accepted is in one place: the accumulator, the moving batch, `m_unconfirmed` or the
hands of its resolver, or its handler has been called. -/
theorem resolved_of_run {as : List Act}
    (hok : (machine cfg).Along (fun s a => counted s a = true) (initial cfg) as)
    (h : (machine cfg).run (initial cfg) as = some t) :
    ((machine cfg).Along (fun s a => spares s a = true) (initial cfg) as →
      (∀ k, t.invocations k ≤ 1) ∧
      ∀ k, (t.sends k).accepted = true →
        State.among t.accumulator.pending k + State.among t.moving k + State.among t.waiting k +
          State.among t.inHand k + t.invocations k = 1) ∧
    (∀ k, t.sends k = .threw → t.invocations k = 0) ∧
    (t.stage = .done → ∀ k, t.sends k = .returned → t.invocations k = 1) := by
  have hacc : Accounted cfg t :=
    Machine.run_invariant (M := machine cfg) (fun hs hok h => hs.step hok h) (.initial cfg) hok h
  refine ⟨fun hspares => ?_, fun k hk => ?_, fun hst k hk => ?_⟩
  · obtain ⟨-, hkept⟩ := Machine.run_invariant (M := machine cfg)
      (P := fun s => Accounted cfg s ∧ Kept s.accepted s.ledger)
      (fun hs hok h => ⟨hs.1.step hok.1 h,
        hs.1.tracked.kept_step hs.2 (hs.1.numbered.distinctIds hs.1.tracked h) hok.2 h⟩)
      ⟨.initial cfg, kept_initial cfg⟩ (hok.and hspares) h
    refine ⟨fun k => ?_, fun k hk => ?_⟩
    · rw [invocations_eq]
      exact (hacc.tickets hkept).count_called_le_one k
    · rw [invocations_eq]
      have hone := (hacc.tickets hkept).count_eq_one (hacc.numbered.covered k hk)
      simp only [Ledger.map, State.ledger, Multiset.map_add, Multiset.count_add] at hone
      exact hone
  · by_contra hne
    obtain ⟨m, hm, rfl, -⟩ := hacc.tracked.exists_of_invocations hne
    have haccepted := (hacc.numbered.accepted m hm).2
    have hk' : t.sending.sends m.ticket = .threw := hk
    rw [hk'] at haccepted
    cases haccepted
  · have hstopping := hacc.tracked.stopping
    rw [invocations_eq]
    refine (hacc.tickets (hacc.kept (hstopping.not_abandoned hst))).called_eq_one ?_ ?_
      (hacc.numbered.covered k ?_)
    · simp [Ledger.map, hstopping.waiting_eq_zero hst]
    · simp [Ledger.map, hstopping.out_eq_zero hst]
    · show (t.sends k).accepted = true
      rw [hk]
      rfl

/-- Batches of two messages, published when they are full. -/
def pairs : Config where
  batchSize := 2
  batchPublishingDelay := 0
  maxUnconfirmed := 8
  confirmTimeout := 0
  enqueueTimeout := 0
  firstPublishingId := 0
  maxFrameSize := 0

/-- A call of `send` whose message is accepted. -/
def acceptedSend (k : ℕ) : List Act :=
  [.send (.call none), .send (.check k), .send (.acquire k), .send (.encode k (some []) k),
    .send (.insert k), .send (.proceed k)]

/-- The `publish_batch` of a call of `send`. -/
def publishFull (k : ℕ) : List Act :=
  [.batch (.lock (.send k)), .batch .extract, .batch (.publish none), .batch .insert]

/-- Two messages are published and the first is confirmed; a third one is still in the accumulator
when the user stops the producer, and a fourth comes too late. -/
def stoppedWithPending : List Act :=
  let user : Stopper := .user 0
  acceptedSend 0 ++ acceptedSend 1 ++ publishFull 1 ++
    [Act.frame (.confirm 0 0), .frame (.invoke 0), .frame (.finish 0)] ++
    acceptedSend 2 ++ [Act.stop (.call user)] ++
    (List.replicate 5 [Act.stop (.destroy user), .stop (.join user)]).flatten ++
    [Act.stop (.exchange user), .send (.call none), .send (.check 3)] ++
    List.replicate 3 (Act.stop (.perform user)) ++ [Act.frame (.leave 0)] ++
    List.replicate 6 (Act.stop (.perform user))

/-- The theorem at that run: the second and the third message fail with the stop. -/
theorem resolved_of_stoppedWithPending :
    ∃ t, (machine pairs).run (initial pairs) stoppedWithPending = some t ∧ t.stage = .done ∧
      t.sends 2 = .returned ∧ t.sends 3 = .threw ∧
      t.handled.map (fun c => (c.1.ticket, c.2.confirmed)) = [(0, true), (1, false), (2, false)] ∧
      t.invocations 1 ≤ 1 ∧ t.invocations 2 = 1 ∧ t.invocations 3 = 0 := by
  have hok : (machine pairs).checkAlong (fun s a => counted s a = true) (initial pairs)
      stoppedWithPending = true := rfl
  have hspares : (machine pairs).checkAlong (fun s a => spares s a = true) (initial pairs)
      stoppedWithPending = true := rfl
  obtain ⟨honce, hthrew, hdone⟩ := resolved_of_run (Machine.along_of_check hok) rfl
  exact ⟨_, rfl, rfl, rfl, rfl, rfl, (honce (Machine.along_of_check hspares)).1 1, hdone rfl 2 rfl,
    hthrew 3 rfl⟩

/-- Batches of two messages, whose confirmations are late after five units of time. -/
def latePairs : Config := { pairs with confirmTimeout := 5 }

/-- Both messages of a batch are late, and the handler of the first throws. -/
def thrownLate : List Act :=
  acceptedSend 0 ++ acceptedSend 1 ++ publishFull 1 ++
    [Act.timeout .enter, .timeout (.scan 10), .timeout .throw]

/-- The handler of the first message of a batch, which is confirmed, calls `stop()`, and the handler of
the second throws out of it. The first handler catches the exception and returns to the frame thread,
which finds the id of the second message in the same frame. -/
def thrownStop : List Act :=
  let frame : Stopper := .frame 0
  acceptedSend 0 ++ acceptedSend 1 ++ publishFull 1 ++
    [Act.frame (.confirm 0 0), .frame (.invoke 0), .stop (.call frame)] ++
    (List.replicate 5 [Act.stop (.destroy frame), .stop (.join frame)]).flatten ++
    [Act.stop (.exchange frame)] ++ List.replicate 5 (Act.stop (.perform frame)) ++
    [Act.stop (.throw frame), .frame (.finish 0), .frame (.confirm 0 1), .frame (.invoke 0)]

/-- **A handler that throws loses other messages**: after `thrownLate` the second message has been
accepted and is nowhere, and its handler is called in no continuation. **Or it is called twice**: after
`thrownStop` the handler of the second message has been called once for the stop and once for its
confirmation. -/
theorem unresolved_of_throw :
    (∃ t m, (machine latePairs).run (initial latePairs) thrownLate = some t ∧
      t.sends 1 = .returned ∧ m ∈ t.accepted ∧ m.ticket = 1 ∧
      State.among t.accumulator.pending 1 + State.among t.moving 1 + State.among t.waiting 1 +
        State.among t.inHand 1 + t.invocations 1 = 0 ∧ Lost latePairs t m) ∧
    ∃ t, (machine pairs).run (initial pairs) thrownStop = some t ∧ t.sends 1 = .returned ∧
      t.invocations 1 = 2 := by
  refine ⟨?_, ?_⟩
  · have hrun : ((machine latePairs).run (initial latePairs) thrownLate).any (fun t =>
        t.sends 1 = .returned ∧ ⟨1, 1, [], 1⟩ ∈ t.accepted ∧
          State.among t.accumulator.pending 1 + State.among t.moving 1 + State.among t.waiting 1 +
            State.among t.inHand 1 + t.invocations 1 = 0 ∧
          ⟨1, 1, [], 1⟩ ∉ t.ledger.all) = true := by decide +kernel
    obtain ⟨t, ht, hend⟩ := (Option.any_eq_true ..).1 hrun
    obtain ⟨hreturned, haccepted, hnowhere, hgone⟩ := of_decide_eq_true hend
    have htracked : Tracked t := .of_reachable ⟨_, _, rfl, ht⟩
    exact ⟨t, _, ht, hreturned, haccepted, rfl, hnowhere, htracked.lost haccepted hgone⟩
  · have hrun : ((machine pairs).run (initial pairs) thrownStop).any (fun t =>
        t.sends 1 = .returned ∧ t.invocations 1 = 2) = true := by decide +kernel
    obtain ⟨t, ht, hend⟩ := (Option.any_eq_true ..).1 hrun
    exact ⟨t, ht, of_decide_eq_true hend⟩

end Hareflow.Producer
