import Hareflow.Producer.Machine

/-!
# What a stop leaves behind

`internal_stop` destroys the tasks, marks the producer as `Stopped`, destroys the accumulator, takes
`m_client` away, stops it and only then fails what is left. This module is why that order is enough.

* `Quiet`: once the status is `Stopped` no task runs, and none will.
* `Drained`: once `m_client` has been taken there is no client and no batch any more, and once
  `fail_all_unconfirmed` has emptied the two stores they stay empty. A handler that throws before that
  leaves them as they are.
* `Referenced`: a frame thread that can still call the producer belongs to a client that someone
  refers to. So once the client of the producer is stopped there is none left, except the thread of
  a handler that called `stop()` itself.

`Stopping` is the three together, and `Stopping.step` that every step keeps them.
-/

namespace Hareflow.Producer

open Foundations

variable {cfg : Config} {s t : State}

/-! ## The order of a stop -/

/-- The place of a stage in the order of `internal_stop`. -/
def Stage.rank : Stage → ℕ
  | .running => 0
  | .accumulator => 1
  | .semaphore => 2
  | .taking => 3
  | .stopping _ => 4
  | .locking => 5
  | .unconfirmed _ => 6
  | .pending _ _ => 7
  | .done => 8
  | .aborted _ => 9

/-- The place of a task in the order of their destruction. -/
def TaskName.rank : TaskName → ℕ
  | .streamDeleted => 0
  | .batchPublish => 1
  | .confirmTimeout => 2
  | .delayedReconnect => 3
  | .reconnect => 4

/-- The number of tasks whose `destroy()` a call of `internal_stop` has behind it. -/
def StopPc.rank : StopPc → ℕ
  | .idle | .threw => 0
  | .destroying task | .joining task => task.rank
  | .exchanging | .performing | .returned => 5

theorem TaskName.rank_next (x : TaskName) : x.next.rank = x.rank + 1 := by cases x <;> rfl

/-! ## No task runs -/

/-- The task is marked as destroyed and its function is not running. -/
def State.Gone (s : State) (x : TaskName) : Prop := s.destroyed x = true ∧ s.quiet x = true

/-- What the calls of `destroy()` have reached. The stream-deleted task, which `internal_stop` may
run on, is not among the tasks that count. -/
structure Quiet (s : State) : Prop where
  joining : ∀ p x, s.stops p = .joining x → s.destroyed x = true
  passed : ∀ p x, 0 < x.rank → x.rank < (s.stops p).rank → s.Gone x
  stopped : s.stage ≠ .running → ∀ x, 0 < x.rank → s.Gone x

/-- A task that is gone has not thrown. -/
theorem State.Gone.timeout_eq (hs : s.Gone .confirmTimeout) : s.timeout = .idle := by
  simpa [State.quiet] using hs.2

theorem not_stepTimeout_of_gone {a : TimeoutAct} (hs : s.Gone .confirmTimeout) :
    stepTimeout cfg s a = none := by
  have hidle := hs.timeout_eq
  cases a <;> simp [stepTimeout, hs.1, hidle]

/-- The steps of `delayed_reconnect`. -/
def ReconnectAct.isDelayed : ReconnectAct → Bool
  | .delayed | .delayedTake | .delayedStop => true
  | _ => false

theorem not_stepReconnect_of_gone {a : ReconnectAct}
    (hs : s.Gone (if a.isDelayed then .delayedReconnect else .reconnect)) :
    stepReconnect cfg s a = none := by
  cases a <;> simp only [ReconnectAct.isDelayed, if_true, Bool.false_eq_true, if_false] at hs <;>
    obtain ⟨hd, hq⟩ := hs <;>
    simp only [State.quiet, decide_eq_true_eq] at hq <;>
    simp [stepReconnect, hd, hq]

/-- `delayed_reconnect` and `reconnect_to_server` leave each other's place alone. -/
theorem stepReconnect_frame {a : ReconnectAct} (h : stepReconnect cfg s a = some t) :
    if a.isDelayed then t.reconnect = s.reconnect else t.delayed = s.delayed := by
  cases a <;> simp only [stepReconnect] at h <;> (repeat' split at h) <;> first
    | (cases h; done)
    | (cases h; rfl)

theorem stepBatch_batchTask {a : BatchAct} (h : stepBatch cfg s a = some t)
    (hs : s.Gone .batchPublish) : t.batchTask = false := by
  obtain ⟨hd, hq⟩ := hs
  have hidle : s.batchTask = false := by simpa [State.quiet] using hq
  have hfinish : ∀ (u : State) caller, u.batchTask = false → (u.finish caller).batchTask = false := by
    intro u caller hu
    cases caller <;> first | exact hu | rfl
  cases batchMove_of_step h with
  | flush | lock | extract | publish | park => exact hidle
  | task hopen => simp [hd] at hopen
  | decline | insert => exact hfinish _ _ hidle

theorem stepStop_destroyed {a : StopAct} (h : stepStop s a = some t) {x : TaskName}
    (hx : s.destroyed x = true) : t.destroyed x = true := by
  cases stopMove_of_step h with
  | @destroy p y => by_cases hxy : x = y <;> simp [hxy, hx]
  | _ => exact hx

theorem gone_stepStop {a : StopAct} (h : stepStop s a = some t) {x : TaskName} (hx : 0 < x.rank)
    (hs : s.Gone x) : t.Gone x := by
  have hd := stepStop_destroyed h hs.1
  obtain ⟨_, _, _, _, _, _, _, _, rfl⟩ := stepStop_touches h
  exact ⟨hd, by cases x <;> first | exact hs.2 | simp [TaskName.rank] at hx⟩

/-- A task that is gone stays gone. -/
theorem gone_step {a : Act} (h : step cfg s a = some t) {x : TaskName} (hx : 0 < x.rank)
    (hs : s.Gone x) : t.Gone x := by
  cases a with
  | send a =>
    obtain ⟨k, m, full, -, -, -, rfl⟩ | ⟨_, _, _, _, rfl⟩ := stepSend_inv h <;>
      exact ⟨hs.1, by cases x <;> exact hs.2⟩
  | batch a =>
    have htask := fun hx' : x = .batchPublish => stepBatch_batchTask h (hx' ▸ hs)
    obtain ⟨_, _, _, _, _, _, _, _, rfl⟩ := stepBatch_touches h
    refine ⟨hs.1, ?_⟩
    cases x with
    | batchPublish => simpa [State.quiet] using htask rfl
    | _ => exact hs.2
  | frame a =>
    obtain ⟨_, _, _, _, rfl⟩ := stepFrame_touches h
    exact ⟨hs.1, by cases x <;> exact hs.2⟩
  | shutdown a =>
    obtain ⟨_, _, rfl⟩ := stepShutdown_touches h
    exact ⟨hs.1, by cases x <;> exact hs.2⟩
  | timeout a =>
    cases x with
    | confirmTimeout => simp [step, not_stepTimeout_of_gone hs] at h
    | _ =>
      obtain ⟨_, _, _, _, rfl⟩ := stepTimeout_touches h
      exact hs
  | reconnect a =>
    have hframe := stepReconnect_frame h
    have hgone : s.Gone (if a.isDelayed then .delayedReconnect else .reconnect) →
        stepReconnect cfg s a = none := not_stepReconnect_of_gone
    have hd : t.destroyed x = true := by
      obtain ⟨_, _, _, _, _, _, rfl⟩ := stepReconnect_touches h
      exact hs.1
    cases x with
    | delayedReconnect =>
      cases ha : a.isDelayed with
      | true => simp [step, hgone (by simpa [ha] using hs)] at h
      | false =>
        have hsame : t.delayed = s.delayed := by simpa [ha] using hframe
        exact ⟨hd, by simpa [State.quiet, hsame] using hs.2⟩
    | reconnect =>
      cases ha : a.isDelayed with
      | true =>
        have hsame : t.reconnect = s.reconnect := by simpa [ha] using hframe
        exact ⟨hd, by simpa [State.quiet, hsame] using hs.2⟩
      | false => simp [step, hgone (by simpa [ha] using hs)] at h
    | _ =>
      obtain ⟨_, _, _, _, _, _, rfl⟩ := stepReconnect_touches h
      exact hs
  | stop a => exact gone_stepStop h hx hs

/-- What is neither a stop nor in the way of one leaves the calls of `internal_stop` alone. -/
theorem step_stop_frame {a : Act} (h : step cfg s a = some t) (ha : ∀ b, a ≠ .stop b) :
    t.stops = s.stops ∧ t.stage = s.stage ∧ t.destroyed = s.destroyed := by
  cases a with
  | send b =>
    obtain ⟨k, m, full, -, -, -, rfl⟩ | ⟨_, _, _, _, rfl⟩ := stepSend_inv h <;> exact ⟨rfl, rfl, rfl⟩
  | batch b =>
    obtain ⟨_, _, _, _, _, _, _, _, rfl⟩ := stepBatch_touches h
    exact ⟨rfl, rfl, rfl⟩
  | frame b =>
    obtain ⟨_, _, _, _, rfl⟩ := stepFrame_touches h
    exact ⟨rfl, rfl, rfl⟩
  | shutdown b =>
    obtain ⟨_, _, rfl⟩ := stepShutdown_touches h
    exact ⟨rfl, rfl, rfl⟩
  | timeout b =>
    obtain ⟨_, _, _, _, rfl⟩ := stepTimeout_touches h
    exact ⟨rfl, rfl, rfl⟩
  | reconnect b =>
    obtain ⟨_, _, _, _, _, _, rfl⟩ := stepReconnect_touches h
    exact ⟨rfl, rfl, rfl⟩
  | stop b => exact absurd rfl (ha b)

/-- A stop that a handler has thrown out of is not taken up again. -/
theorem aborted_step {a : Act} {cleared : Bool} (h : step cfg s a = some t)
    (hs : s.stage = .aborted cleared) : t.stage = .aborted cleared := by
  by_cases ha : ∃ b, a = .stop b
  · obtain ⟨b, rfl⟩ := ha
    cases stopMove_of_step h <;> simp_all [State.setStop]
  · rw [(step_stop_frame h fun b hb => ha ⟨b, hb⟩).2.1, hs]

/-- The calls of `internal_stop` other than the one that moves keep what they have reached. -/
theorem Quiet.update (hs : Quiet s) (hdestroyed : ∀ x, s.destroyed x = true → t.destroyed x = true)
    (hgone : ∀ x, 0 < x.rank → s.Gone x → t.Gone x) {p : Stopper} {pc : StopPc}
    (hstops : t.stops = Function.update s.stops p pc)
    (hjoining : ∀ x, pc = .joining x → t.destroyed x = true)
    (hpassed : ∀ x, 0 < x.rank → x.rank < pc.rank → t.Gone x)
    (hstopped : t.stage ≠ .running → ∀ x, 0 < x.rank → t.Gone x) : Quiet t := by
  refine ⟨fun q x hq => ?_, fun q x hx hq => ?_, hstopped⟩
  · by_cases hqp : q = p
    · exact hjoining x (by simpa [hstops, hqp] using hq)
    · exact hdestroyed x (hs.joining q x (by simpa [hstops, hqp] using hq))
  · by_cases hqp : q = p
    · exact hpassed x hx (by simpa [hstops, hqp] using hq)
    · exact hgone x hx (hs.passed q x hx (by simpa [hstops, hqp] using hq))

theorem Quiet.stepStop {a : StopAct} (hs : Quiet s) (h : stepStop s a = some t) : Quiet t := by
  have hd : ∀ x, s.destroyed x = true → t.destroyed x = true := fun x => stepStop_destroyed h
  have hgone : ∀ x, 0 < x.rank → s.Gone x → t.Gone x := fun x => gone_stepStop h
  -- a call that keeps its rank passes no task
  have hkeep : ∀ p, ∀ x, 0 < x.rank → x.rank < (s.stops p).rank → t.Gone x :=
    fun p x hx hp => hgone x hx (hs.passed p x hx hp)
  have hstopped : t.stage = s.stage → t.stage ≠ .running → ∀ x, 0 < x.rank → t.Gone x :=
    fun hst hne x hx => hgone x hx (hs.stopped (hst ▸ hne) x hx)
  have hlow : ∀ (y x : TaskName), y.rank ≤ 1 → 0 < x.rank →
      x.rank < (StopPc.destroying y).rank → t.Gone x := by
    intro y x hy hx hlt
    simp only [StopPc.rank] at hlt
    omega
  -- at the exchange, and after it, a call has passed every task
  have hall : ∀ {p : Stopper}, s.stops p = .exchanging ∨ s.stops p = .performing → ∀ x,
      0 < x.rank → t.Gone x := by
    intro p hp x hx
    refine hkeep p x hx ?_
    obtain hp | hp := hp <;> rw [hp] <;> cases x <;> simp [TaskName.rank, StopPc.rank]
  have hperform : ∀ {p : Stopper}, s.stops p = .performing → t.stops = s.stops → Quiet t := by
    intro p hp hstops
    have hsame : t.stops = Function.update s.stops p .performing := by
      rw [hstops, ← hp, Function.update_eq_self]
    exact hs.update hd hgone hsame (by simp) (fun x hx _ => hall (.inr hp) x hx)
      (fun _ => hall (.inr hp))
  cases stopMove_of_step h with
  | callUser | callFrame | callTask =>
    exact hs.update hd hgone rfl (by simp) (fun x => hlow _ x (by decide)) (hstopped rfl)
  | @destroy p y hpc =>
    refine hs.update hd hgone rfl ?_ (fun x hx hlt => hkeep p x hx (by rw [hpc]; exact hlt))
      (hstopped rfl)
    intro x hx
    cases hx
    simp
  | @join p y hpc hquiet =>
    refine hs.update hd hgone rfl (fun x hx => by cases y <;> simp [TaskName.next] at hx) ?_
      (hstopped rfl)
    intro x hx hlt
    rw [TaskName.rank_next] at hlt
    by_cases hxy : x.rank = y.rank
    · obtain rfl : x = y := by cases x <;> cases y <;> simp [TaskName.rank] at hxy ⊢
      exact hgone x hx ⟨hs.joining p x hpc, hquiet⟩
    · exact hkeep p x hx (by rw [hpc]; simp only [StopPc.rank]; omega)
  | exchange hpc | decline hpc =>
    exact hs.update hd hgone rfl (by simp) (fun x hx _ => hall (.inl hpc) x hx)
      (fun _ => hall (.inl hpc))
  | joinThrew =>
    exact hs.update hd hgone rfl (by simp) (by simp [StopPc.rank]) (hstopped rfl)
  | finish hpc | abortUnconfirmed hpc | abortPending hpc =>
    exact hs.update hd hgone rfl (by simp) (fun x hx _ => hall (.inr hpc) x hx)
      (fun _ => hall (.inr hpc))
  | accumulator hpc | semaphore hpc | take hpc | takeNone hpc | stopped hpc | lock hpc
  | failUnconfirmed hpc | clear hpc | failPending hpc => exact hperform hpc rfl

theorem Quiet.step {a : Act} (hs : Quiet s) (h : step cfg s a = some t) : Quiet t := by
  by_cases ha : ∃ b, a = .stop b
  · obtain ⟨b, rfl⟩ := ha
    exact hs.stepStop h
  · obtain ⟨hstops, hstage, hd⟩ := step_stop_frame h (fun b hb => ha ⟨b, hb⟩)
    refine ⟨fun p x hp => ?_, fun p x hx hp => ?_, fun hne x hx => ?_⟩
    · rw [hd]
      exact hs.joining p x (hstops ▸ hp)
    · exact gone_step h hx (hs.passed p x hx (hstops ▸ hp))
    · exact gone_step h hx (hs.stopped (hstage ▸ hne) x hx)

/-- A stopped producer has no steps of `check_confirm_timeout` any more. -/
theorem Quiet.running_of_timeout {a : TimeoutAct} (hq : Quiet s)
    (h : stepTimeout cfg s a = some t) : s.stage = .running := by
  by_contra hne
  rw [not_stepTimeout_of_gone (hq.stopped hne .confirmTimeout (by decide))] at h
  cases h

theorem Quiet.running_of_reconnect {a : ReconnectAct} (hq : Quiet s)
    (h : stepReconnect cfg s a = some t) : s.stage = .running := by
  by_contra hne
  rw [not_stepReconnect_of_gone (hq.stopped hne _ (by split <;> decide))] at h
  cases h

/-! ## The stores are empty -/

/-- What `internal_stop` has taken away does not come back. -/
structure Drained (s : State) : Prop where
  destroyed : 1 < s.stage.rank → s.accumulator.destroyed = true
  moved : 3 < s.stage.rank → s.client = none ∧ s.batch = none
  emptied : 6 < s.stage.rank → s.stage ≠ .aborted false →
    s.accumulator.pending = [] ∧ s.unconfirmed.entries = []

theorem Drained.of_running (h : s.stage = .running) : Drained s := by
  constructor <;> simp [h, Stage.rank]

theorem Drained.stepBatch {a : BatchAct} (hs : Drained s) (h : stepBatch cfg s a = some t) :
    Drained t := by
  -- while there is a batch `m_client` is not taken
  have hlow : s.batch ≠ none → s.stage.rank ≤ 3 := fun hb => by
    by_contra hgt
    exact hb (hs.moved (by omega)).2
  have hmoved : t.stage = s.stage → t.accumulator.destroyed = s.accumulator.destroyed →
      s.stage.rank ≤ 3 → Drained t := fun hst hd hle =>
    ⟨fun hr => hd ▸ hs.destroyed (hst ▸ hr), fun hr => by rw [hst] at hr; omega,
      fun hr _ => by rw [hst] at hr; omega⟩
  cases batchMove_of_step h with
  | flush | task => exact ⟨hs.destroyed, hs.moved, hs.emptied⟩
  | lock hcall hfree hrun => exact .of_running hrun
  | @decline caller => cases caller <;> exact ⟨hs.destroyed, hs.moved, hs.emptied⟩
  | extract hb | publish hb | park hb => exact hmoved rfl rfl (hlow (by simp [hb]))
  | @insert caller ms hb => cases caller <;> exact hmoved rfl rfl (hlow (by simp [hb]))

theorem Drained.stepFrame {a : FrameAct} (hs : Drained s) (h : stepFrame s a = some t) :
    Drained t := by
  have htake : ∀ c i st, s.takeUnconfirmed c i st = some t → Drained t := by
    intro c i st h
    simp only [State.takeUnconfirmed] at h
    (repeat' split at h) <;> cases h
    · rename_i m hm
      refine ⟨hs.destroyed, hs.moved, fun hr hne => ?_⟩
      have hmem := (Unconfirmed.mem_of_find hm).1
      rw [(hs.emptied hr hne).2] at hmem
      cases hmem
    · exact hs
  cases a with
  | confirm c i => exact htake c i _ h
  | error c i e => exact htake c i _ h
  | _ =>
    simp only [Producer.stepFrame] at h
    (repeat' split at h) <;> first
      | (cases h; done)
      | (cases h; exact ⟨hs.destroyed, hs.moved, hs.emptied⟩)

theorem Drained.stepStop {a : StopAct} (hs : Drained s) (h : stepStop s a = some t) :
    Drained t := by
  obtain ⟨hd, hm, he⟩ := hs
  cases stopMove_of_step h with
  | callUser | callFrame | callTask | destroy | join | joinThrew | decline => exact ⟨hd, hm, he⟩
  | exchange => exact ⟨by simp [Stage.rank], by simp [Stage.rank], by simp [Stage.rank]⟩
  | accumulator => exact ⟨fun _ => rfl, by simp [Stage.rank], by simp [Stage.rank]⟩
  | semaphore hpc hst =>
    exact ⟨fun _ => hd (by simp [hst, Stage.rank]), by simp [Stage.rank], by simp [Stage.rank]⟩
  | take hpc hst hfree | takeNone hpc hst hfree =>
    exact ⟨fun _ => hd (by simp [hst, Stage.rank]),
      fun _ => ⟨rfl, (State.unlocked_iff.1 hfree).1⟩, by simp [Stage.rank]⟩
  | stopped hpc hst | lock hpc hst | failUnconfirmed hpc hst =>
    exact ⟨fun _ => hd (by simp [hst, Stage.rank]), fun _ => hm (by simp [hst, Stage.rank]),
      by simp [Stage.rank]⟩
  | clear hpc hst =>
    exact ⟨fun _ => hd (by simp [hst, Stage.rank]), fun _ => hm (by simp [hst, Stage.rank]),
      fun _ _ => ⟨rfl, rfl⟩⟩
  | failPending hpc hst | finish hpc hst | abortPending hpc hst =>
    exact ⟨fun _ => hd (by simp [hst, Stage.rank]), fun _ => hm (by simp [hst, Stage.rank]),
      fun _ _ => he (by simp [hst, Stage.rank]) (by simp [hst])⟩
  | abortUnconfirmed hpc hst =>
    exact ⟨fun _ => hd (by simp [hst, Stage.rank]), fun _ => hm (by simp [hst, Stage.rank]),
      fun _ hne => absurd rfl hne⟩

theorem Drained.step {a : Act} (hs : Drained s) (hq : Quiet s) (h : step cfg s a = some t) :
    Drained t := by
  cases a with
  | send a =>
    obtain ⟨k, m, full, -, -, hopen, rfl⟩ | ⟨_, _, _, _, rfl⟩ := stepSend_inv h
    · have hlow : s.stage.rank ≤ 1 := by
        by_contra hgt
        exact absurd (hs.destroyed (by omega)) (by simp [hopen])
      exact ⟨hs.destroyed, hs.moved, fun hr _ => absurd (show 6 < s.stage.rank from hr) (by omega)⟩
    · exact ⟨hs.destroyed, hs.moved, hs.emptied⟩
  | batch a => exact hs.stepBatch h
  | frame a => exact hs.stepFrame h
  | shutdown a =>
    simp only [Producer.step] at h
    cases a <;> simp only [stepShutdown] at h <;> split at h <;> cases h
    · exact ⟨hs.destroyed, hs.moved, hs.emptied⟩
    · exact ⟨hs.destroyed, fun hr => ⟨rfl, (hs.moved hr).2⟩, hs.emptied⟩
  | timeout a =>
    have hrun := hq.running_of_timeout h
    obtain ⟨_, _, _, _, rfl⟩ := stepTimeout_touches h
    exact .of_running hrun
  | reconnect a =>
    have hrun := hq.running_of_reconnect h
    obtain ⟨_, _, _, _, _, _, rfl⟩ := stepReconnect_touches h
    exact .of_running hrun
  | stop a => exact hs.stepStop h

/-! ## Who can still call the producer -/

/-- The clients, the threads that can call the producer and those that refer to a client. -/
structure Links where
  client : Option ℕ
  created : ℕ
  frames : ℕ → FramePc
  delayed : DelayedPc
  reconnect : ReconnectPc
  stops : Stopper → StopPc
  stage : Stage

def State.links (s : State) : Links :=
  ⟨s.client, s.created, s.frames, s.delayed, s.reconnect, s.stops, s.stage⟩

/-- `m_client` or a local of a task refers to the client. -/
def Links.Holds (x : Links) (c : ℕ) : Prop :=
  x.client = some c ∨ x.reconnect.client = some c ∨ x.delayed = .taken (some c)

/-- Which frame threads can still call the producer. -/
structure Referenced (x : Links) : Prop where
  fresh : ∀ c, x.created ≤ c → x.frames c = .absent
  connecting : x.reconnect.connects = true → x.client = none
  /-- `stop()` on a frame thread is called by a handler. -/
  selfStop : ∀ c, (x.stops (.frame c)).busy = true → ∃ m, x.frames c = .handling m
  held : x.stage.rank ≤ 3 → ∀ c, (x.frames c).active = true → x.Holds c
  stopping : ∀ b, x.stage = .stopping b → ∀ c, (x.frames c).active = true → c = b
  joined : 4 < x.stage.rank → x.stage.rank < 8 → ∀ c, (x.frames c).active = true →
    x.stops (.frame c) = .performing
  untaken : x.stage = .done → ∀ c m st, x.frames c ≠ .taken m st

/-- An active frame thread goes on. -/
theorem Referenced.setFrame {x : Links} (hx : Referenced x) (c : ℕ) (pc : FramePc)
    (hc : (x.frames c).active = true)
    (hbusy : (x.stops (.frame c)).busy = true → ∃ m, pc = .handling m)
    (hdone : x.stage = .done → ∀ m st, pc ≠ .taken m st) :
    Referenced { x with frames := Function.update x.frames c pc } := by
  have hactive : ∀ d, (Function.update x.frames c pc d).active = true →
      (x.frames d).active = true := by
    intro d hd
    by_cases hdc : d = c
    · rw [hdc]
      exact hc
    · simpa [hdc] using hd
  refine ⟨fun d hd => ?_, hx.connecting, fun d hd => ?_, fun hr d hd => hx.held hr d (hactive d hd),
    fun b hb d hd => hx.stopping b hb d (hactive d hd),
    fun hr hr' d hd => hx.joined hr hr' d (hactive d hd), fun hst d m st => ?_⟩
  · have hdc : d ≠ c := by
      rintro rfl
      simp [hx.fresh d hd, FramePc.active] at hc
    simpa [hdc] using hx.fresh d hd
  · by_cases hdc : d = c
    · subst hdc
      simpa using hbusy hd
    · simpa [hdc] using hx.selfStop d hd
  · by_cases hdc : d = c
    · subst hdc
      simpa using hdone hst m st
    · simpa [hdc] using hx.untaken hst d m st

/-- A thread that reads is in no call of `stop()`. -/
theorem Referenced.not_busy {x : Links} (hx : Referenced x) {c : ℕ} (hc : x.frames c = .reading) :
    (x.stops (.frame c)).busy = false := by
  cases hb : (x.stops (.frame c)).busy with
  | false => rfl
  | true =>
    obtain ⟨m, hm⟩ := hx.selfStop c hb
    rw [hc] at hm
    cases hm

theorem Referenced.stepFrame {a : FrameAct} (hs : Referenced s.links) (hd : Drained s)
    (h : stepFrame s a = some t) : Referenced t.links := by
  have htake : ∀ c i st, s.takeUnconfirmed c i st = some t → Referenced t.links := by
    intro c i st h
    simp only [State.takeUnconfirmed] at h
    split at h
    · rename_i hc
      split at h <;> cases h
      · rename_i m hm
        refine hs.setFrame c (.taken m st) ?_ ?_ ?_
        · simp [State.links, hc.1, FramePc.active]
        · simp [hs.not_busy hc.1]
        · intro hst
          have hmem := (Unconfirmed.mem_of_find hm).1
          have hst' : s.stage = .done := hst
          rw [(hd.emptied (by simp [hst', Stage.rank]) (by simp [hst'])).2] at hmem
          cases hmem
      · exact hs
    · cases h
  cases a with
  | confirm c i => exact htake c i _ h
  | error c i e => exact htake c i _ h
  | invoke c =>
    simp only [Producer.stepFrame] at h
    split at h <;> cases h
    rename_i m st hc
    exact hs.setFrame c (.handling m) (by simp [State.links, hc, FramePc.active])
      (fun _ => ⟨m, rfl⟩) (by simp)
  | finish c =>
    simp only [Producer.stepFrame] at h
    split at h
    · rename_i m hc
      split at h <;> cases h
      rename_i hbusy
      exact hs.setFrame c .reading (by simp [State.links, hc, FramePc.active])
        (fun hb => absurd hb hbusy) (by simp)
    · cases h
  | leave c =>
    simp only [Producer.stepFrame] at h
    split at h <;> cases h
    rename_i hc
    exact hs.setFrame c .left (by simp [State.links, hc, FramePc.active])
      (by simp [hs.not_busy hc]) (by simp)

/-- References move, and no active thread loses its last one. -/
theorem Referenced.relink {x : Links} (hx : Referenced x)
    (client : Option ℕ) (delayed : DelayedPc) (reconnect : ReconnectPc)
    (hconnects : reconnect.connects = true → client = none)
    (hholds : ∀ c, (x.frames c).active = true → x.Holds c →
      client = some c ∨ reconnect.client = some c ∨ delayed = .taken (some c)) :
    Referenced { x with client := client, delayed := delayed, reconnect := reconnect } :=
  ⟨hx.fresh, hconnects, hx.selfStop, fun hr c hc => hholds c hc (hx.held hr c hc), hx.stopping,
    hx.joined, hx.untaken⟩

/-- Stopping a client, or dropping the last reference to it, waits until its thread has left. -/
theorem not_left_of_active {x : Links} {c : ℕ} (hc : (x.frames c).active = true) :
    x.frames c ≠ .left := by
  intro h
  simp [h, FramePc.active] at hc

theorem Referenced.stepShutdown {a : ShutdownAct} (hs : Referenced s.links)
    (h : stepShutdown s a = some t) : Referenced t.links := by
  cases a with
  | call c =>
    simp only [Producer.stepShutdown] at h
    split at h <;> cases h
    exact hs
  | handle c =>
    simp only [Producer.stepShutdown] at h
    split at h <;> cases h
    rename_i hg
    refine hs.relink none s.delayed s.reconnect (fun _ => rfl)
      fun b hb hold => ?_
    obtain hcl | hold := hold
    · have hcl' : s.client = some b := hcl
      have hdrop : s.droppable b = true := by simpa [hcl'] using hg.2.2
      simp only [State.droppable, Bool.or_eq_true, decide_eq_true_eq] at hdrop
      obtain hl | hi := hdrop
      · exact absurd hl (not_left_of_active hb)
      · exact .inr (.inl (by rw [hi]; rfl))
    · exact .inr hold

theorem Referenced.stepReconnect {a : ReconnectAct} (hs : Referenced s.links) (hq : Quiet s)
    (h : stepReconnect cfg s a = some t) : Referenced t.links := by
  have hrun := hq.running_of_reconnect h
  have hr : s.links.stage.rank ≤ 3 := by simp [State.links, hrun, Stage.rank]
  cases a with
  | delayed =>
    simp only [Producer.stepReconnect] at h
    split at h <;> cases h
    rename_i hg
    refine hs.relink _ _ _ hs.connecting fun c _ hold => ?_
    simpa [Links.Holds, State.links, hg.2] using hold
  | delayedTake =>
    simp only [Producer.stepReconnect, if_pos hrun] at h
    split at h <;> cases h
    rename_i hg
    refine hs.relink _ _ _ (fun _ => rfl) fun c _ hold => ?_
    simpa [Links.Holds, State.links, hg.1, or_comm] using hold
  | delayedStop =>
    simp only [Producer.stepReconnect] at h
    split at h
    · cases h
      rename_i hg
      refine hs.relink _ _ _ hs.connecting fun c _ hold => ?_
      simpa [Links.Holds, State.links, hg] using hold
    · split at h <;> cases h
      rename_i b hg hleft
      refine hs.relink _ _ _ hs.connecting fun c hc hold => ?_
      obtain hold | hold | hold := hold
      · exact .inl hold
      · exact .inr (.inl hold)
      · obtain rfl : b = c := by simpa [State.links, hg] using hold
        exact absurd hleft (not_left_of_active hc)
    · cases h
  | enter =>
    simp only [Producer.stepReconnect] at h
    split at h <;> cases h
    rename_i hg
    refine hs.relink _ _ _ (by simp [ReconnectPc.connects]) fun c _ hold => ?_
    simpa [Links.Holds, State.links, hg.2, ReconnectPc.client] using hold
  | check =>
    simp only [Producer.stepReconnect] at h
    split at h
    · rename_i hg
      split at h <;> cases h
      · refine hs.relink _ _ _ (by simp [ReconnectPc.connects]) fun c _ hold => ?_
        simpa [Links.Holds, State.links, hg.1, ReconnectPc.client] using hold
      · rename_i hnone
        simp only [hrun, not_or, not_not] at hnone
        refine hs.relink _ _ _ (fun _ => hnone.1) fun c _ hold => ?_
        simpa [Links.Holds, State.links, hg.1, ReconnectPc.client] using hold
    · cases h
  | connect =>
    simp only [Producer.stepReconnect] at h
    split at h <;> cases h
    rename_i hg
    have hnone : s.client = none := hs.connecting (by simp [State.links, hg, ReconnectPc.connects])
    have habsent : s.frames s.created = .absent := hs.fresh s.created (Nat.le_refl _)
    refine ⟨fun c hc => ?_, fun _ => hnone, fun c hc => ?_, fun _ c hc => ?_, ?_, ?_, ?_⟩
    · have hc' : s.created + 1 ≤ c := hc
      have hne : c ≠ s.created := by omega
      simpa [State.links, State.setFrame, hne] using hs.fresh c (by simp [State.links]; omega)
    · obtain ⟨m, hm⟩ := hs.selfStop c hc
      have hne : c ≠ s.created := by
        rintro rfl
        simp [State.links, habsent] at hm
      exact ⟨m, by simpa [State.links, State.setFrame, hne] using hm⟩
    · by_cases hne : c = s.created
      · exact .inr (.inl (by rw [hne]; rfl))
      · have hold := hs.held hr c (by simpa [State.links, State.setFrame, hne] using hc)
        have hdel : s.delayed = .taken (some c) := by
          simpa [Links.Holds, State.links, hg, hnone, ReconnectPc.client] using hold
        exact .inr (.inr hdel)
    all_goals simp [State.links, State.setFrame, hrun, Stage.rank]
  | declare =>
    simp only [Producer.stepReconnect] at h
    split at h <;> cases h
    rename_i b hg
    refine hs.relink _ _ _ (fun _ => hs.connecting (by simp [State.links, hg, ReconnectPc.connects]))
      fun c _ hold => ?_
    simpa [Links.Holds, State.links, hg, ReconnectPc.client] using hold
  | throw =>
    simp only [Producer.stepReconnect] at h
    split at h <;> cases h <;> rename_i hg <;>
      refine hs.relink _ _ _ (by simp [ReconnectPc.connects]) fun c _ hold => ?_ <;>
      simpa [Links.Holds, State.links, hg, ReconnectPc.client] using hold
  | resend failed =>
    simp only [Producer.stepReconnect, if_pos hrun] at h
    split at h
    · rename_i b hg
      have hnone : s.client = none := hs.connecting (by simp [State.links, hg, ReconnectPc.connects])
      split at h
      · split at h <;> cases h <;>
          refine hs.relink _ _ _ (by simp [ReconnectPc.connects]) fun c _ hold => ?_ <;>
          simp [Links.Holds, State.links, hg, hnone, ReconnectPc.client] at hold ⊢ <;>
          tauto
      · cases h
    · cases h
  | stop =>
    simp only [Producer.stepReconnect] at h
    split at h
    · split at h <;> cases h
      rename_i b hg hleft
      refine hs.relink _ _ _ (by simp [ReconnectPc.connects]) fun c hc hold => ?_
      obtain hold | hold | hold := hold
      · exact .inl hold
      · obtain rfl : b = c := by simpa [State.links, hg, ReconnectPc.client] using hold
        exact absurd hleft (not_left_of_active hc)
      · exact .inr (.inr hold)
    · cases h
  | finish =>
    simp only [Producer.stepReconnect] at h
    split at h
    · split at h <;> cases h
      rename_i b hg hother
      refine hs.relink _ _ _ (by simp [ReconnectPc.connects]) fun c hc hold => ?_
      obtain hold | hold | hold := hold
      · exact .inl hold
      · obtain rfl : b = c := by simpa [State.links, hg, ReconnectPc.client] using hold
        obtain hcl | hdel | hleft := hother
        · exact .inl hcl
        · exact .inr (.inr hdel)
        · exact absurd hleft (not_left_of_active hc)
      · exact .inr (.inr hold)
    · cases h

/-- One call of `internal_stop` moves, other than at the end of the one that performs the stop. -/
theorem Referenced.setStop {x : Links} (hx : Referenced x) {p : Stopper} (pc : StopPc)
    (hp : x.stops p ≠ .performing)
    (hself : ∀ c, p = .frame c → pc.busy = true → ∃ m, x.frames c = .handling m) :
    Referenced { x with stops := Function.update x.stops p pc } := by
  refine ⟨hx.fresh, hx.connecting, fun c hc => ?_, hx.held, hx.stopping, fun hr hr' c hc => ?_,
    hx.untaken⟩
  · by_cases hcp : Stopper.frame c = p
    · exact hself c hcp.symm (by simpa [hcp] using hc)
    · exact hx.selfStop c (by simpa [hcp] using hc)
  · have hperf := hx.joined hr hr' c hc
    have hcp : Stopper.frame c ≠ p := by
      rintro rfl
      exact hp hperf
    simpa [hcp] using hperf

/-- The call that performs the stop moves on to a stage after its client is stopped. -/
theorem Referenced.setStage {x : Links} (hx : Referenced x) {g : Stage} (hold : 4 < x.stage.rank)
    (hnew : 4 < g.rank) (hlt : x.stage.rank < 8) (hlt' : g.rank < 8) :
    Referenced { x with stage := g } := by
  refine ⟨hx.fresh, hx.connecting, hx.selfStop, fun hr => ?_, ?_, fun _ _ => hx.joined hold hlt, ?_⟩
  · have hr' : g.rank ≤ 3 := hr
    omega
  · rintro b (rfl : g = .stopping b)
    simp [Stage.rank] at hnew
  · rintro (rfl : g = .done)
    simp [Stage.rank] at hlt'

/-- The stage goes on before `m_client` is taken. -/
theorem Referenced.setStage_early {x : Links} (hx : Referenced x) {g : Stage}
    (hold : x.stage.rank ≤ 3) (hnew : g.rank ≤ 3) : Referenced { x with stage := g } := by
  refine ⟨hx.fresh, hx.connecting, hx.selfStop, fun _ => hx.held hold, ?_, ?_, ?_⟩
  · rintro b (rfl : g = .stopping b)
    simp [Stage.rank] at hnew
  · intro hr
    have hr : 4 < g.rank := hr
    omega
  · rintro (rfl : g = .done)
    simp [Stage.rank] at hnew

/-- The call that performs the stop is over. -/
theorem Referenced.endStop {x : Links} (hx : Referenced x) {p : Stopper} {pc : StopPc} {g : Stage}
    (hpc : pc.busy = false) (hg : 8 ≤ g.rank)
    (huntaken : g = .done → ∀ c m st, x.frames c ≠ .taken m st) :
    Referenced { x with stops := Function.update x.stops p pc, stage := g } := by
  refine ⟨hx.fresh, hx.connecting, fun c hc => ?_, fun hr => ?_, ?_, fun _ hr => ?_, huntaken⟩
  · have hcp : Stopper.frame c ≠ p := by
      rintro rfl
      simp [hpc] at hc
    exact hx.selfStop c (by simpa [hcp] using hc)
  · have hr : g.rank ≤ 3 := hr
    omega
  · rintro b (rfl : g = .stopping b)
    simp [Stage.rank] at hg
  · have hr : g.rank < 8 := hr
    omega

/-- When `internal_stop` takes `m_client` the tasks are gone, so an active thread is that client's. -/
theorem Referenced.client_of_active (hs : Referenced s.links) (hq : Quiet s)
    (hst : s.stage = .taking) {c : ℕ} (hc : (s.frames c).active = true) : s.client = some c := by
  have hne : s.stage ≠ .running := by simp [hst]
  have hrec : s.reconnect = .idle := by
    simpa [State.quiet] using (hq.stopped hne .reconnect (by decide)).2
  have hdel : s.delayed = .idle := by
    simpa [State.quiet] using (hq.stopped hne .delayedReconnect (by decide)).2
  simpa [Links.Holds, State.links, hrec, hdel, ReconnectPc.client] using
    hs.held (by simp [State.links, hst, Stage.rank]) c hc

theorem Referenced.stepStop {a : StopAct} (hs : Referenced s.links) (hq : Quiet s)
    (h : stepStop s a = some t) : Referenced t.links := by
  have hidle : ∀ {p : Stopper}, (s.stops p).busy = false → s.stops p ≠ .performing := by
    intro p hb hp
    simp [hp, StopPc.busy] at hb
  have hself : ∀ {p : Stopper}, (s.stops p).busy = true → ∀ c, p = .frame c →
      ∃ m, s.links.frames c = .handling m := by
    rintro p hb c rfl
    exact hs.selfStop c hb
  cases stopMove_of_step h with
  | callUser hb | callTask hb => exact hs.setStop _ (hidle hb) (by simp)
  | @callFrame c m hm hb =>
    refine hs.setStop _ (hidle hb) fun d hd _ => ⟨m, ?_⟩
    obtain rfl : c = d := by simpa using hd
    exact hm
  | destroy hpc | join hpc | joinThrew hpc | decline hpc =>
    exact hs.setStop _ (by simp [State.links, hpc]) fun c hc _ =>
      hself (by simp [hpc, StopPc.busy]) c hc
  | @exchange p hpc hst =>
    have hmoved := hs.setStop (p := p) .performing (by simp [State.links, hpc]) fun c hc _ =>
      hself (by simp [hpc, StopPc.busy]) c hc
    exact hmoved.setStage_early (by simp [State.links, hst, Stage.rank]) (by simp [Stage.rank])
  | accumulator hpc hst | semaphore hpc hst =>
    exact hs.setStage_early (by simp [State.links, hst, Stage.rank]) (by simp [Stage.rank])
  | @take p b hpc hst hfree hb =>
    refine ⟨hs.fresh, fun _ => rfl, hs.selfStop, ?_, ?_, ?_, ?_⟩
    · simp [State.links, Stage.rank]
    · rintro b' hb' c hc
      obtain rfl : b = b' := by simpa [State.links] using hb'
      exact (Option.some.inj (hb.symm.trans (hs.client_of_active hq hst hc))).symm
    · simp [State.links, Stage.rank]
    · simp [State.links]
  | takeNone hpc hst hfree hb =>
    refine ⟨hs.fresh, fun _ => rfl, hs.selfStop, ?_, ?_, fun _ _ c hc => ?_, ?_⟩
    · simp [State.links, Stage.rank]
    · simp [State.links]
    · have := hb.symm.trans (hs.client_of_active hq hst hc)
      cases this
    · simp [State.links]
  | @stopped p b hpc hst hjoin =>
    refine ⟨hs.fresh, hs.connecting, hs.selfStop, ?_, ?_, fun _ _ c hc => ?_, ?_⟩
    · simp [State.links, Stage.rank]
    · simp [State.links]
    · obtain rfl : c = b := hs.stopping b hst c hc
      obtain hleft | rfl := hjoin
      · exact absurd hleft (not_left_of_active hc)
      · exact hpc
    · simp [State.links]
  | lock hpc hst | failUnconfirmed hpc hst | clear hpc hst | failPending hpc hst =>
    exact hs.setStage (by simp [State.links, hst, Stage.rank]) (by simp [Stage.rank])
      (by simp [State.links, hst, Stage.rank]) (by simp [Stage.rank])
  | finish hpc hst =>
    refine hs.endStop rfl (Nat.le_refl _) fun _ c m st hc => ?_
    -- a thread that has taken a message would be the one in `stop()`, which is in a handler
    have hc' : s.frames c = .taken m st := hc
    have hperf := hs.joined (by simp [State.links, hst, Stage.rank])
      (by simp [State.links, hst, Stage.rank]) c (by simp [State.links, hc', FramePc.active])
    obtain ⟨m', hm'⟩ := hs.selfStop c (by rw [hperf]; rfl)
    have hm'' : s.frames c = .handling m' := hm'
    rw [hc'] at hm''
    cases hm''
  | abortUnconfirmed => exact hs.endStop (g := .aborted false) rfl (by decide) (by simp)
  | abortPending => exact hs.endStop (g := .aborted true) rfl (by decide) (by simp)

theorem Referenced.step {a : Act} (hs : Referenced s.links) (hq : Quiet s) (hd : Drained s)
    (h : step cfg s a = some t) : Referenced t.links := by
  cases a with
  | send a =>
    obtain ⟨k, m, full, -, -, -, rfl⟩ | ⟨_, _, _, _, rfl⟩ := stepSend_inv h <;> exact hs
  | batch a =>
    obtain ⟨_, _, _, _, _, _, _, _, rfl⟩ := stepBatch_touches h
    exact hs
  | frame a => exact hs.stepFrame hd h
  | shutdown a => exact hs.stepShutdown h
  | timeout a =>
    obtain ⟨_, _, _, _, rfl⟩ := stepTimeout_touches h
    exact hs
  | reconnect a => exact hs.stepReconnect hq h
  | stop a => exact hs.stepStop hq h

/-! ## The order is enough -/

/-- What the order of `internal_stop` guarantees at each moment. -/
structure Stopping (s : State) : Prop where
  quiet : Quiet s
  drained : Drained s
  referenced : Referenced s.links

theorem Stopping.initial (cfg : Config) : Stopping (initial cfg) := by
  refine ⟨⟨?_, ?_, ?_⟩, .of_running rfl, ⟨fun c hc => ?_, ?_, ?_, fun _ c hc => ?_, ?_, ?_, ?_⟩⟩
  · simp [Producer.initial]
  · simp [Producer.initial, StopPc.rank]
  · simp [Producer.initial]
  · have hc' : 1 ≤ c := hc
    simp [State.links, Producer.initial, show c ≠ 0 by omega]
  · simp [State.links, Producer.initial, ReconnectPc.connects]
  · simp [State.links, Producer.initial, StopPc.busy]
  · by_cases h0 : c = 0
    · exact .inl (by rw [h0]; rfl)
    · simp [State.links, Producer.initial, h0, FramePc.active] at hc
  all_goals simp [State.links, Producer.initial, Stage.rank]

theorem Stopping.step {a : Act} (hs : Stopping s) (h : step cfg s a = some t) : Stopping t :=
  ⟨hs.quiet.step h, hs.drained.step hs.quiet h, hs.referenced.step hs.quiet hs.drained h⟩

/-- While `fail_all_unconfirmed` has the mutex, no batch is on its way. -/
theorem Stopping.batch_eq_none (hs : Stopping s) (h : s.stage.locks = true) : s.batch = none := by
  refine (hs.drained.moved ?_).2
  cases hst : s.stage <;> simp [hst, Stage.locks] at h <;> simp [Stage.rank]

/-- Nobody else changes `m_unconfirmed` while `fail_all_unconfirmed` has the mutex. -/
theorem Stopping.unconfirmed_of_locks {a : Act} (hs : Stopping s) (h : Producer.step cfg s a = some t)
    (ha : ∀ b, a ≠ .stop b) (hlocks : s.stage.locks = true) : t.unconfirmed = s.unconfirmed := by
  have hunlocked : s.unlocked = false := by simp [State.unlocked, hlocks]
  cases a with
  | send a =>
    obtain ⟨k, m, full, -, -, -, rfl⟩ | ⟨_, _, _, _, rfl⟩ := stepSend_inv h <;> rfl
  | batch a =>
    have hnone := hs.batch_eq_none hlocks
    cases a with
    | flush k | task =>
      simp only [Producer.step, stepBatch] at h
      split at h <;> cases h
      rfl
    | _ => simp [Producer.step, stepBatch, hnone, hunlocked] at h
  | frame a =>
    cases a with
    | confirm c i | error c i e => simp [Producer.step, stepFrame, State.takeUnconfirmed, hunlocked] at h
    | _ =>
      simp only [Producer.step, stepFrame] at h
      (repeat' split at h) <;> cases h
      all_goals rfl
  | shutdown a =>
    obtain ⟨_, _, rfl⟩ := stepShutdown_touches h
    rfl
  | timeout a =>
    cases a with
    | scan now => simp [Producer.step, stepTimeout, hunlocked] at h
    | _ =>
      simp only [Producer.step, stepTimeout] at h
      split at h <;> cases h
      rfl
  | reconnect a =>
    obtain ⟨_, _, _, _, _, _, rfl⟩ := stepReconnect_touches h
    rfl
  | stop a => exact absurd rfl (ha a)

/-- A thread that can call the producer belongs to a client that was created. -/
theorem Stopping.lt_created (hs : Stopping s) {c : ℕ} (h : (s.frames c).active = true) :
    c < s.created := by
  by_contra hge
  have habsent : s.frames c = .absent := hs.referenced.fresh c (Nat.le_of_not_lt hge)
  simp [habsent, FramePc.active] at h

end Hareflow.Producer
