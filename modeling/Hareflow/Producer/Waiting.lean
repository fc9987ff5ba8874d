import Hareflow.Foundations.Monitor
import Hareflow.Producer.Tickets

/-!
# The waits of `send`

A call of `send` waits at two places: for a permit, on `m_released` of the semaphore, and for space,
on `m_space_available` of the accumulator. In the machine of the producer such a call is one whose
next step is not enabled. This module adds the two condition variables.

Permits come back in six places, from a `send` that throws to the end of a stop, and the accumulator
is emptied in two. Whatever of it makes a wait end is followed by a `notify_all`, which is why a call
that sleeps is woken up. Both condition variables are notified without their
mutex, so anything can happen in between.
-/

namespace Hareflow.Producer

open Foundations

/-- The condition variables. -/
inductive Condition
  /-- `m_released`. -/
  | released
  /-- `m_space_available`. -/
  | spaceAvailable
  deriving DecidableEq, Repr

/-- What a call of `send` waits for. -/
def SendPc.waits : SendPc → Option Condition
  | .checked _ => some .released
  | .sized _ => some .spaceAvailable
  | _ => none

/-- The predicate of `acquire` and `try_acquire_for`. -/
def Semaphore.ready (x : Semaphore) : Bool := 0 < x.available || x.destroyed

def Condition.ready (s : State) : Condition → Bool
  | .released => s.semaphore.ready
  | .spaceAvailable => s.accumulator.ready

/-- The call of `send` that takes the step, for those that number it. -/
def SendAct.ticket : SendAct → Option ℕ
  | .call _ => none
  | .check k | .acquire k | .timeout k | .encode k _ _ | .insert k | .proceed k => some k

def Act.ticket : Act → Option ℕ
  | .send a => a.ticket
  | _ => none

/-- The step calls `extract_all` or `destroy` of the accumulator. -/
def Act.makesSpace (s : State) : Act → Bool
  | .batch .extract => true
  | .stop (.perform _) => s.stage = .accumulator || s.stage = .unconfirmed []
  | _ => false

/-- `m_available` goes up in `release` only and `m_destroyed` is set in `destroy` only; both notify. -/
def Condition.notified (s : State) (a : Act) (t : State) : Condition → Bool
  | .released =>
    s.semaphore.available < t.semaphore.available ||
      (!s.semaphore.destroyed && t.semaphore.destroyed)
  | .spaceAvailable => a.makesSpace s

/-- The waits of the calls of `send`, which stand under their tickets. -/
def waits : Monitor State Act ℕ Condition where
  waits s k := (s.sends k).waits
  ready c s := c.ready s
  thread := Act.ticket
  notifies c s a t := c.notified s a t

/-- The producer with its condition variables. -/
def waitingMachine (cfg : Config) : Machine (Monitored State ℕ Condition) (MonitorAct Act ℕ Condition) :=
  waits.layer (machine cfg)

variable {cfg : Config} {s t : State}

/-! ## A call stays where it waits -/

theorem stepSend_sends {a : SendAct} (h : stepSend cfg s a = some t) {k : ℕ} (hk : k < s.calls)
    (ha : a.ticket ≠ some k) : t.sends k = s.sends k := by
  cases a with
  | call explicit =>
    have hne : k ≠ s.calls := Nat.ne_of_lt hk
    cases explicit <;> cases h <;> simp [State.setSend, hne]
  | check j | acquire j | timeout j | encode j encoded now | insert j | proceed j =>
    have hne : k ≠ j := fun hkj => ha (congrArg some hkj.symm)
    simp only [stepSend] at h
    (repeat' split at h) <;> first
      | (cases h; done)
      | (cases h; simp [State.throwPermitted, State.release, State.setSend, hne])

theorem State.finish_sends (s : State) {caller : Caller} {k : ℕ} (hne : caller ≠ .send k) :
    (s.finish caller).sends k = s.sends k := by
  cases caller with
  | send j =>
    have hkj : k ≠ j := fun hkj => hne (congrArg Caller.send hkj.symm)
    simp [State.finish, State.setSend, hkj]
  | flush j => rfl
  | task => rfl

/-- `publish_batch` returns to its own caller. -/
theorem stepBatch_sends_eq {a : BatchAct} (hx : Ticketed s.sending) (h : stepBatch cfg s a = some t)
    {k : ℕ} (hk : s.sends k ≠ .publishing) : t.sends k = s.sends k := by
  cases batchMove_of_step h with
  | flush | task | lock | extract | publish | park => rfl
  | @decline caller hcall =>
    apply State.finish_sends
    rintro rfl
    exact hk (by simpa [State.calling] using hcall)
  | @insert caller ms hb =>
    refine (State.finish_sends _ ?_).trans rfl
    rintro rfl
    exact hk (hx.batch k _ hb)

theorem SendPc.ne_of_waits {pc : SendPc} {c : Condition} (h : pc.waits = some c) :
    pc ≠ .idle ∧ pc ≠ .publishing := by
  cases pc <;> simp_all [SendPc.waits]

/-- Nobody else moves a call that waits. -/
theorem sends_of_waits {a : Act} (hx : Ticketed s.sending) (h : step cfg s a = some t) {k : ℕ}
    {c : Condition} (hk : (s.sends k).waits = some c) (ha : a.ticket ≠ some k) :
    t.sends k = s.sends k := by
  obtain ⟨hidle, hpublishing⟩ := SendPc.ne_of_waits hk
  cases a with
  | send a => exact stepSend_sends h (hx.lt_calls hidle) ha
  | batch a => exact stepBatch_sends_eq hx h hpublishing
  | frame a =>
    obtain ⟨_, _, _, _, rfl⟩ := stepFrame_touches h
    rfl
  | shutdown a =>
    obtain ⟨_, _, rfl⟩ := stepShutdown_touches h
    rfl
  | timeout a =>
    obtain ⟨_, _, _, _, rfl⟩ := stepTimeout_touches h
    rfl
  | reconnect a =>
    obtain ⟨_, _, _, _, _, _, rfl⟩ := stepReconnect_touches h
    rfl
  | stop a =>
    obtain ⟨_, _, _, _, _, _, _, _, rfl⟩ := stepStop_touches h
    rfl

/-! ## What ends a wait notifies -/

/-- The semaphore becomes ready by a permit that comes back or by `destroy`. -/
theorem notified_of_released {a : Act} (hs : s.semaphore.ready = false)
    (ht : t.semaphore.ready = true) : Condition.released.notified s a t = true := by
  simp only [Semaphore.ready, Bool.or_eq_false_iff, Bool.or_eq_true, decide_eq_false_iff_not,
    decide_eq_true_eq] at hs ht
  obtain ⟨hnone, hopen⟩ := hs
  obtain hback | hdestroyed := ht
  · have hmore : s.semaphore.available < t.semaphore.available := by omega
    simp [Condition.notified, hmore]
  · simp [Condition.notified, hopen, hdestroyed]

/-- A step that calls neither `extract_all` nor `destroy` makes no space. -/
theorem accumulator_ready_of_step {a : Act} (h : step cfg s a = some t)
    (ha : a.makesSpace s = false) (ht : t.accumulator.ready = true) :
    s.accumulator.ready = true := by
  cases a with
  | send a =>
    obtain ⟨k, m, full, -, -, -, rfl⟩ | ⟨_, _, _, _, rfl⟩ := stepSend_inv h
    · simp only [Accumulator.ready, List.length_append, List.length_singleton, Bool.or_eq_true,
        decide_eq_true_eq] at ht ⊢
      exact ht.imp_left Nat.lt_of_succ_lt
    · exact ht
  | batch a =>
    cases batchMove_of_step h with
    | flush | task | lock | publish | park => exact ht
    | extract => simp [Act.makesSpace] at ha
    | decline | insert =>
      obtain ⟨_, _, _, hf⟩ := State.finish_eq _ _
      rw [hf] at ht
      exact ht
  | frame a =>
    obtain ⟨_, _, _, _, rfl⟩ := stepFrame_touches h
    exact ht
  | shutdown a =>
    obtain ⟨_, _, rfl⟩ := stepShutdown_touches h
    exact ht
  | timeout a =>
    obtain ⟨_, _, _, _, rfl⟩ := stepTimeout_touches h
    exact ht
  | reconnect a =>
    obtain ⟨_, _, _, _, _, _, rfl⟩ := stepReconnect_touches h
    exact ht
  | stop a =>
    cases stopMove_of_step h with
    | accumulator hpc hst | clear hpc hst => simp [Act.makesSpace, hst] at ha
    | _ => exact ht

/-! ## The semaphore of a stop -/

/-- A step other than the stop's leaves `m_destroyed` of the semaphore alone. -/
theorem semaphore_destroyed_of_step {a : Act} (h : step cfg s a = some t) (ha : ∀ b, a ≠ .stop b) :
    t.semaphore.destroyed = s.semaphore.destroyed := by
  cases a with
  | send a =>
    cases a with
    | call explicit => cases explicit <;> cases h <;> rfl
    | _ =>
      simp only [step, stepSend] at h
      (repeat' split at h) <;> first
        | (cases h; done)
        | (cases h; rfl)
  | batch a =>
    cases batchMove_of_step h with
    | flush | task | lock | extract | publish | park => rfl
    | decline =>
      obtain ⟨_, _, _, hf⟩ := State.finish_eq _ _
      rw [hf]
    | insert =>
      obtain ⟨_, _, _, hf⟩ := State.finish_eq _ _
      rw [hf]
      rfl
  | frame a =>
    cases a <;> simp only [step, stepFrame, State.takeUnconfirmed] at h <;>
      (repeat' split at h) <;> first
        | (cases h; done)
        | (cases h; rfl)
  | shutdown a =>
    obtain ⟨_, _, rfl⟩ := stepShutdown_touches h
    rfl
  | timeout a =>
    cases a <;> simp only [step, stepTimeout] at h <;> split at h <;> first
      | (cases h; done)
      | (cases h; rfl)
  | reconnect a =>
    obtain ⟨_, _, _, _, _, _, rfl⟩ := stepReconnect_touches h
    rfl
  | stop a => exact absurd rfl (ha a)

/-- What the waits rest on. -/
structure Waiting (s : State) : Prop where
  ticketed : Ticketed s.sending
  stopping : Stopping s
  semaphore : 2 < s.stage.rank → s.semaphore.destroyed = true

theorem Waiting.initial (cfg : Config) : Waiting (initial cfg) :=
  ⟨.initial cfg, .initial cfg, by simp [Producer.initial, Stage.rank]⟩

theorem Waiting.step {a : Act} (hs : Waiting s) (h : step cfg s a = some t) : Waiting t := by
  refine ⟨hs.ticketed.step h, hs.stopping.step h, fun hrank => ?_⟩
  by_cases ha : ∃ b, a = .stop b
  · obtain ⟨b, rfl⟩ := ha
    cases stopMove_of_step h with
    | semaphore => rfl
    | accumulator | exchange => simp [Stage.rank] at hrank
    | callUser | callFrame | callTask | destroy | join | joinThrew | decline =>
      exact hs.semaphore hrank
    | take hpc hst | takeNone hpc hst | stopped hpc hst | lock hpc hst | failUnconfirmed hpc hst
    | clear hpc hst | failPending hpc hst | finish hpc hst | abortUnconfirmed hpc hst
    | abortPending hpc hst =>
      exact hs.semaphore (by simp [hst, Stage.rank])
  · have ha' : ∀ b, a ≠ .stop b := fun b hb => ha ⟨b, hb⟩
    rw [semaphore_destroyed_of_step h ha']
    exact hs.semaphore ((step_stop_frame h ha').2.1 ▸ hrank)

/-- The discipline of the two condition variables. -/
theorem waits_disciplined (cfg : Config) : waits.Disciplined (machine cfg) Waiting where
  keeps hs h := hs.step h
  stays hs h ha hk := (congrArg SendPc.waits (sends_of_waits hs.ticketed h hk ha)).trans hk
  notifies {s t a _ c} _ h _ _ hs ht := by
    have hs : c.ready s = false := hs.resolve_right (by simp [waits])
    cases c with
    | released => exact .inl (notified_of_released (a := a) hs ht)
    | spaceAvailable =>
      cases ha : a.makesSpace s with
      | true => exact .inl ha
      | false => exact absurd (accumulator_ready_of_step h ha ht) (Bool.eq_false_iff.1 hs)

/-! ## Nobody sleeps on -/

/-- The step of a call whose wait is over. -/
def Condition.goOn (k : ℕ) : Condition → SendAct
  | .released => .acquire k
  | .spaceAvailable => .insert k

/-- Once its predicate holds, a call that waits can go on. -/
theorem exists_goOn (cfg : Config) {k : ℕ} {c : Condition} (hk : (s.sends k).waits = some c)
    (hready : c.ready s = true) : ∃ t, step cfg s (.send (c.goOn k)) = some t := by
  cases hpc : s.sends k with
  | checked i =>
    obtain rfl : Condition.released = c := by simpa [hpc, SendPc.waits] using hk
    simp only [Condition.ready, Semaphore.ready, Bool.or_eq_true, decide_eq_true_eq] at hready
    simp only [step, Condition.goOn, stepSend, hpc]
    split
    · exact ⟨_, rfl⟩
    · rename_i hopen
      rw [if_pos (hready.resolve_right hopen)]
      exact ⟨_, rfl⟩
  | sized m =>
    obtain rfl : Condition.spaceAvailable = c := by simpa [hpc, SendPc.waits] using hk
    have hready : s.accumulator.ready = true := hready
    cases hd : s.accumulator.destroyed <;>
      simp [step, Condition.goOn, stepSend, hpc, Accumulator.insert, hready, hd]
  | _ => simp [hpc, SendPc.waits] at hk

/-- **No call of `send` sleeps on.** In every run of a producer with its condition variables, which is
a run of the producer, a call that sleeps waits for a permit or for space; and if there is one, a
`notify_all` is due that wakes the call up, whose next step can then be taken. Once a stop has
destroyed the accumulator and the semaphore and has notified, no call sleeps. -/
theorem sleeping_send_woken (cfg : Config) (as : List (MonitorAct Act ℕ Condition))
    (s : Monitored State ℕ Condition) (h : (waitingMachine cfg).run (.start (initial cfg)) as = some s) :
    (machine cfg).run (initial cfg) (as.filterMap MonitorAct.base) = some s.base ∧
    (∀ k, s.asleep k = true → ∃ c, (s.base.sends k).waits = some c ∧
      (c.ready s.base = true → ∃ t u,
        (waitingMachine cfg).step s (.notify c) = some t ∧ t.base = s.base ∧ t.asleep k = false ∧
        (waitingMachine cfg).step t (.act (.send (c.goOn k))) = some u)) ∧
    (2 < s.base.stage.rank → (∀ c, s.due c = 0) → ∀ k, s.asleep k = false) := by
  obtain ⟨hwaiting, hawake⟩ := Monitor.awake_run (waits_disciplined cfg) (Waiting.initial cfg) h
  refine ⟨Monitor.run_base h, fun k hk => ?_, fun hrank hdue k => ?_⟩
  · obtain ⟨c, hc, -⟩ := hawake k hk
    refine ⟨c, hc, fun hready => ?_⟩
    obtain ⟨t, ht, hbase, htk⟩ := hawake.exists_notify (M := machine cfg) hk hc hready rfl
    obtain ⟨v, hv⟩ := exists_goOn cfg hc hready
    have hv' : (machine cfg).step t.base (.send (c.goOn k)) = some v := hbase ▸ hv
    have hown : ∀ j, waits.thread (.send (c.goOn k)) = some j → t.asleep j = false := by
      intro j hj
      obtain rfl : k = j := by cases c <;> exact Option.some.inj hj
      exact htk
    obtain ⟨u, hu, -⟩ := Monitor.exists_act hv' hown
    exact ⟨t, u, ht, hbase, htk, hu⟩
  · by_contra hk
    obtain ⟨c, -, hready⟩ := hawake k (by simpa using hk)
    have hc : c.ready s.base = true := by
      cases c with
      | released => simp [Condition.ready, Semaphore.ready, hwaiting.semaphore hrank]
      | spaceAvailable =>
        have hrank' : 1 < s.base.stage.rank := by omega
        simp [Condition.ready, Accumulator.ready, hwaiting.stopping.drained.destroyed hrank']
    have hpos : 0 < s.due c := (hready hc).resolve_right (by simp [waits])
    rw [hdue c] at hpos
    exact Nat.lt_irrefl 0 hpos

/-- One permit and two calls of `send`: the second sleeps while the codec throws in the first. -/
def onePermit : List (MonitorAct Act ℕ Condition) :=
  [.act (.send (.call none)), .act (.send (.check 0)), .act (.send (.acquire 0)),
    .act (.send (.call none)), .act (.send (.check 1)), .sleep 1,
    .act (.send (.encode 0 none 0))]

theorem sleeping_send_woken_onePermit :
    ∃ s, (waitingMachine ⟨2, 0, 1, 0, 0, 0, 0⟩).run (.start (initial ⟨2, 0, 1, 0, 0, 0, 0⟩))
        onePermit = some s ∧ s.asleep 1 = true ∧
      ∃ t u, (waitingMachine ⟨2, 0, 1, 0, 0, 0, 0⟩).step s (.notify .released) = some t ∧
        (waitingMachine ⟨2, 0, 1, 0, 0, 0, 0⟩).step t (.act (.send (.acquire 1))) = some u := by
  obtain ⟨s, hs, hasleep, hwaits, hready⟩ : ∃ s,
      (waitingMachine ⟨2, 0, 1, 0, 0, 0, 0⟩).run (.start (initial ⟨2, 0, 1, 0, 0, 0, 0⟩))
        onePermit = some s ∧ s.asleep 1 = true ∧ (s.base.sends 1).waits = some .released ∧
        Condition.released.ready s.base = true := ⟨_, rfl, rfl, rfl, rfl⟩
  obtain ⟨-, hsleeping, -⟩ := sleeping_send_woken _ onePermit s hs
  obtain ⟨c, hc, hwoken⟩ := hsleeping 1 hasleep
  obtain rfl : c = .released := Option.some.inj (hc.symm.trans hwaits)
  obtain ⟨t, u, ht, -, -, hu⟩ := hwoken hready
  exact ⟨s, hs, hasleep, t, u, ht, hu⟩

end Hareflow.Producer
