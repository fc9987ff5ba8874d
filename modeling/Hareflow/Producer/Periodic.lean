import Hareflow.Producer.Resolution
import Hareflow.Task.Reschedulable

/-!
# The batch task

A message waits in the accumulator until `publish_batch` takes it, which happens when the accumulator
is full, when the user asks for it, or when the batch task runs. `start()` arms the task with
`m_batch_publishing_delay`, and each `publish_batch` arms it again at its end, whoever has called it.
So the delay is meant to bound the time that a message waits.

The machine of the producer lets a task run at any time. Here the batch task is a `Task`, with its
timer, and there is a clock. `publish_batch` does not arm the task if it finds that the producer is not
`Started`, and the task may run before `start()` has returned; but `start()` has the mutex until then.

* `View` is what the batch task sees, and `Move` what a step does to it, until the task is destroyed.
* `Live`: an invocation of the task is to come, or its function is running and will arm it again.
* `Timely`: if threads and timers are prompt, the last `publish_batch` is at most the delay and twice
  the latency ago.
-/

namespace Hareflow.Producer.Periodic

open Foundations

/-- Where `start()` is; it has the mutex until it returns. -/
inductive StartPc
  | locked
  /-- The batch task is armed. -/
  | armed
  | returned
  deriving DecidableEq, Repr

structure State where
  clock : ℕ := 0
  start : StartPc := .locked
  producer : Producer.State
  /-- `m_batch_publish_task`. -/
  task : Task := .fresh
  /-- When its timer expires. -/
  deadline : ℕ := 0
  /-- The record of when the accumulator was emptied, or the task armed by `start()`. -/
  emptyAt : ℕ := 0
  /-- The record of when the task has entered `publish_batch`. -/
  enteredAt : ℕ := 0
  /-- The record of when the messages that are pending were added. -/
  added : List ℕ := []

inductive Act
  /-- Time passes. -/
  | tick (d : ℕ)
  | task (e : Tick)
  /-- `start()` arms the batch task. -/
  | arm
  /-- `start()` exchanges `Starting` for `Started` and returns. -/
  | exchange
  | producer (a : Producer.Act)
  deriving DecidableEq, Repr

/-- What can happen before `start()` has returned: it has the mutex, and `send` throws. -/
def early : Producer.Act → Bool
  | .batch .task | .frame (.leave _) | .stop (.call _) | .stop (.destroy _) | .stop (.join _) => true
  | _ => false

/-- The end of `publish_batch`. -/
def rearm (cfg : Config) (task : Task) : Task :=
  if cfg.batchPublishingDelay ≠ 0 then task.scheduleAfter else task

/-- What a step of the producer does to the batch task. -/
def taskStep (cfg : Config) (s : Producer.State) (task : Task) : Producer.Act → Option Task
  | .batch .task => task.enter
  | .batch (.lock .task) => some (if s.stage = .running then task else task.returned)
  | .batch .insert =>
    match s.batch with
    | some ⟨.task, _⟩ => some (rearm cfg task).returned
    | _ => some (rearm cfg task)
  | .stop (.destroy p) => some (if s.stops p = .destroying .batchPublish then task.destroy else task)
  | _ => some task

/-- The times of `n` pending messages, of which those that are new were added now. -/
def retimed (clock : ℕ) (added : List ℕ) (n : ℕ) : List ℕ :=
  added.take n ++ List.replicate (n - added.length) clock

def step (cfg : Config) (s : State) : Act → Option State
  | .tick d => some { s with clock := s.clock + d }
  | .task .strand =>
    (s.task.tick .strand).map fun task =>
      { s with
        task := task
        deadline :=
          if s.task.posts.head? = some .after then s.clock + cfg.batchPublishingDelay
          else s.deadline }
  | .task .expire =>
    if s.deadline ≤ s.clock then (s.task.tick .expire).map fun task => { s with task := task }
    else none
  | .task .rest => (s.task.tick .rest).map fun task => { s with task := task }
  | .arm =>
    if s.start = .locked then
      some { s with start := .armed, task := rearm cfg s.task, emptyAt := s.clock }
    else none
  | .exchange => if s.start = .armed then some { s with start := .returned } else none
  | .producer a =>
    if s.start = .returned ∨ early a then
      (taskStep cfg s.producer s.task a).bind fun task =>
        (Producer.step cfg s.producer a).map fun producer =>
          { s with
            producer := producer
            task := task
            emptyAt := if a = .batch .extract then s.clock else s.emptyAt
            enteredAt := if a = .batch .task then s.clock else s.enteredAt
            added := retimed s.clock s.added producer.accumulator.pending.length }
    else none

/-- A producer in `start()`, with its client. -/
def init (cfg : Config) : State := { producer := initial cfg }

def machine (cfg : Config) : Machine State Act := ⟨(· = init cfg), step cfg⟩

/-! ## What the batch task sees -/

structure View where
  clock : ℕ
  start : StartPc
  /-- The task is in `publish_batch`. -/
  batchTask : Bool
  /-- Whose `publish_batch` has the mutex, and whether it has emptied the accumulator. -/
  holder : Option (Caller × Bool)
  task : Task
  deadline : ℕ
  emptyAt : ℕ
  enteredAt : ℕ

def State.view (s : State) : View where
  clock := s.clock
  start := s.start
  batchTask := s.producer.batchTask
  holder := s.producer.batch.map fun b => (b.caller, b.pc ≠ .locked)
  task := s.task
  deadline := s.deadline
  emptyAt := s.emptyAt
  enteredAt := s.enteredAt

/-- The batch task has not been destroyed. -/
def State.Intact (s : State) : Prop := s.producer.destroyed .batchPublish = false

instance (s : State) : Decidable s.Intact := inferInstanceAs (Decidable (_ = _))

/-- What a step does, as long as the task is not destroyed. -/
inductive Move (delay : ℕ) (v : View) : View → Prop
  | other : Move delay v v
  | tick (d : ℕ) : Move delay v { v with clock := v.clock + d }
  | strand {task : Task} (h : v.task.tick .strand = some task) :
      Move delay v { v with
        task := task
        deadline := if v.task.posts.head? = some .after then v.clock + delay else v.deadline }
  | expire {task : Task} (h : v.task.tick .expire = some task) (hdue : v.deadline ≤ v.clock) :
      Move delay v { v with task := task }
  | rest {task : Task} (h : v.task.tick .rest = some task) : Move delay v { v with task := task }
  | arm (h : v.start = .locked) :
      Move delay v { v with start := .armed, task := v.task.scheduleAfter, emptyAt := v.clock }
  | exchange (h : v.start = .armed) : Move delay v { v with start := .returned }
  | enter {task : Task} (h : v.task.enter = some task) (hidle : v.batchTask = false) :
      Move delay v { v with task := task, batchTask := true, enteredAt := v.clock }
  | lock {caller : Caller} (h : v.holder = none) (hcall : caller = .task → v.batchTask = true) :
      Move delay v { v with holder := some (caller, false) }
  | extract {caller : Caller} (h : v.holder = some (caller, false)) :
      Move delay v { v with holder := some (caller, true), emptyAt := v.clock }
  | insert {caller : Caller} (h : v.holder = some (caller, true)) (hcaller : caller ≠ .task) :
      Move delay v { v with holder := none, task := v.task.scheduleAfter }
  | insertTask (h : v.holder = some (.task, true)) :
      Move delay v { v with
        holder := none, task := v.task.scheduleAfter.returned, batchTask := false }

section

variable {cfg : Config} {s t : State}

theorem rearm_eq (hcfg : cfg.batchPublishingDelay ≠ 0) (task : Task) :
    rearm cfg task = task.scheduleAfter := if_pos hcfg

/-- The steps of `publish_batch`, and of the calls that lead to it. -/
theorem move_of_batch (hcfg : cfg.batchPublishingDelay ≠ 0) (hs : Stopping s.producer)
    (hopen : s.Intact) {a : BatchAct} {task : Task} {producer : Producer.State}
    (htask : taskStep cfg s.producer s.task (.batch a) = some task)
    (h : stepBatch cfg s.producer a = some producer) (added : List ℕ) :
    Move cfg.batchPublishingDelay s.view (State.view { s with
      producer := producer
      task := task
      emptyAt := if Producer.Act.batch a = .batch .extract then s.clock else s.emptyAt
      enteredAt := if Producer.Act.batch a = .batch .task then s.clock else s.enteredAt
      added := added }) := by
  have hrunning : s.producer.stage = .running := by
    by_contra hne
    have hgone := (hs.quiet.stopped hne .batchPublish (by decide)).1
    rw [show s.producer.destroyed .batchPublish = false from hopen] at hgone
    cases hgone
  have hidle : a = .task → s.producer.batchTask = false := by
    rintro rfl
    simp only [stepBatch] at h
    split at h <;> cases h
    rename_i hg
    exact hg.2.2
  cases batchMove_of_step h with
  | flush pc =>
    cases htask
    exact .other
  | task => exact .enter htask (hidle rfl)
  | @lock caller hcall hfree hrun =>
    have hnone : s.view.holder = none := by
      simp [State.view, (State.unlocked_iff.1 hfree).1]
    have hsame : task = s.task := by
      cases caller <;> simp only [taskStep, if_pos hrun] at htask <;> exact (Option.some.inj htask).symm
    rw [hsame]
    refine .lock hnone ?_
    rintro rfl
    exact hcall
  | decline hcall hfree hrun => exact absurd hrunning hrun
  | @extract caller hb =>
    cases htask
    have hholder : s.view.holder = some (caller, false) := by simp [State.view, hb]
    have hextract : Move cfg.batchPublishingDelay s.view _ := .extract hholder
    simpa [State.view] using hextract
  | publish hb hc | park hb hc =>
    cases htask
    have hother : Move cfg.batchPublishingDelay s.view s.view := .other
    simpa [State.view, hb, Producer.State.write] using hother
  | @insert caller ms hb =>
    have hholder : s.view.holder = some (caller, true) := by simp [State.view, hb]
    cases caller with
    | task =>
      simp only [taskStep, hb, rearm_eq hcfg, Option.some.injEq] at htask
      rw [← htask]
      exact .insertTask hholder
    | send k =>
      simp only [taskStep, hb, rearm_eq hcfg, Option.some.injEq] at htask
      rw [← htask]
      exact .insert hholder (by simp)
    | flush k =>
      simp only [taskStep, hb, rearm_eq hcfg, Option.some.injEq] at htask
      rw [← htask]
      exact .insert hholder (by simp)

/-- The steps of a stop, other than the destruction of the batch task. -/
theorem move_of_stop {a : StopAct} {task : Task} {producer : Producer.State}
    (htask : taskStep cfg s.producer s.task (.stop a) = some task)
    (h : stepStop s.producer a = some producer)
    (hopen : producer.destroyed .batchPublish = false) (added : List ℕ) :
    s.Intact ∧ State.view { s with producer := producer, task := task, added := added } = s.view := by
  have hintact : s.Intact := by
    by_contra hd
    rw [stepStop_destroyed h (by simpa [State.Intact] using hd)] at hopen
    cases hopen
  have hsame : task = s.task := by
    cases a with
    | destroy p =>
      simp only [taskStep] at htask
      split at htask
      · rename_i hpc
        simp only [stepStop, hpc, Option.some.injEq] at h
        rw [← h] at hopen
        simp at hopen
      · exact (Option.some.inj htask).symm
    | _ => exact (Option.some.inj htask).symm
  obtain ⟨_, _, _, _, _, _, _, _, rfl⟩ := stepStop_touches h
  exact ⟨hintact, by simp [State.view, hsame]⟩

theorem move_of_step (hcfg : cfg.batchPublishingDelay ≠ 0) (hs : Stopping s.producer)
    (hopen : t.Intact) {a : Act} (h : step cfg s a = some t) :
    s.Intact ∧ Move cfg.batchPublishingDelay s.view t.view := by
  cases a with
  | tick d =>
    cases h
    exact ⟨hopen, .tick d⟩
  | task e =>
    cases e with
    | strand =>
      obtain ⟨task, htask, rfl⟩ := Option.map_eq_some_iff.1 h
      exact ⟨hopen, .strand htask⟩
    | expire =>
      simp only [step] at h
      split at h
      · rename_i hdue
        obtain ⟨task, htask, rfl⟩ := Option.map_eq_some_iff.1 h
        exact ⟨hopen, .expire htask hdue⟩
      · cases h
    | rest =>
      obtain ⟨task, htask, rfl⟩ := Option.map_eq_some_iff.1 h
      exact ⟨hopen, .rest htask⟩
  | arm =>
    simp only [step] at h
    split at h <;> cases h
    rename_i hlocked
    refine ⟨hopen, ?_⟩
    rw [rearm_eq hcfg]
    exact .arm hlocked
  | exchange =>
    simp only [step] at h
    split at h <;> cases h
    rename_i harmed
    exact ⟨hopen, .exchange harmed⟩
  | producer a =>
    simp only [step] at h
    split at h
    case isFalse => cases h
    obtain ⟨task, htask, h⟩ := Option.bind_eq_some_iff.1 h
    obtain ⟨producer, hproducer, rfl⟩ := Option.map_eq_some_iff.1 h
    cases a with
    | batch a =>
      have hintact : s.Intact := by
        obtain ⟨_, _, _, _, _, _, _, _, rfl⟩ := stepBatch_touches hproducer
        exact hopen
      exact ⟨hintact, move_of_batch hcfg hs hintact htask hproducer _⟩
    | stop a =>
      obtain ⟨hintact, hview⟩ := move_of_stop htask hproducer hopen
        (retimed s.clock s.added producer.accumulator.pending.length)
      refine ⟨hintact, ?_⟩
      simp only [reduceCtorEq, if_false, hview]
      exact .other
    | send a =>
      cases htask
      obtain ⟨k, m, full, -, -, -, rfl⟩ | ⟨_, _, _, _, rfl⟩ := stepSend_inv hproducer <;>
        exact ⟨hopen, .other⟩
    | frame a =>
      cases htask
      obtain ⟨_, _, _, _, rfl⟩ := stepFrame_touches hproducer
      exact ⟨hopen, .other⟩
    | shutdown a =>
      cases htask
      obtain ⟨_, _, rfl⟩ := stepShutdown_touches hproducer
      exact ⟨hopen, .other⟩
    | timeout a =>
      cases htask
      obtain ⟨_, _, _, _, rfl⟩ := stepTimeout_touches hproducer
      exact ⟨hopen, .other⟩
    | reconnect a =>
      cases htask
      obtain ⟨_, _, _, _, _, _, rfl⟩ := stepReconnect_touches hproducer
      exact ⟨hopen, .other⟩

end

/-! ## The task stays alive -/

/-- The task is scheduled, or its function is running and will arm it again. -/
structure Live (v : View) : Prop where
  alive : v.task.Alive
  running : v.batchTask = true ↔ v.task.invocation = .running
  caller : ∀ b, v.holder = some (.task, b) → v.batchTask = true
  scheduled : v.start ≠ .locked → v.task.Scheduled ∨ v.batchTask = true

theorem live_init (cfg : Config) : Live (init cfg).view where
  alive := Task.alive_fresh
  running := by simp [State.view, init, initial, Task.fresh]
  caller := by simp [State.view, init, initial]
  scheduled := by simp [State.view, init]

theorem Live.move {delay : ℕ} {v w : View} (h : Live v) (hmove : Move delay v w) : Live w := by
  cases hmove with
  | other => exact h
  | tick d => exact ⟨h.alive, h.running, h.caller, h.scheduled⟩
  | @strand task htask =>
    obtain ⟨-, -, -, -, hrunning, -⟩ := h.alive.strand htask
    refine ⟨h.alive.tick htask, h.running.trans hrunning.symm, h.caller, fun hstart => ?_⟩
    exact (h.scheduled hstart).imp_left fun hs => hs.tick h.alive htask
  | @expire task htask hdue =>
    have halive := h.alive.tick htask
    refine ⟨halive, ?_, h.caller, fun hstart => ?_⟩
    · obtain ⟨-, rfl⟩ := Task.expire_eq htask
      exact h.running
    · exact (h.scheduled hstart).imp_left fun hs => hs.tick h.alive htask
  | @rest task htask =>
    obtain ⟨-, -, -, hhead, hnone⟩ := Task.rest_fields htask
    refine ⟨h.alive.tick htask, ?_, h.caller, fun hstart => ?_⟩
    · simp [h.running, hhead, hnone]
    · exact (h.scheduled hstart).imp_left fun hs => hs.tick h.alive htask
  | arm hlocked =>
    refine ⟨h.alive.scheduleAfter, ?_, h.caller, fun _ => .inl h.alive.scheduled_scheduleAfter⟩
    rw [h.alive.scheduleAfter_eq]
    exact h.running
  | exchange harmed => exact ⟨h.alive, h.running, h.caller, fun _ => h.scheduled (by simp [harmed])⟩
  | @enter task htask hidle =>
    obtain ⟨-, -, -, -, hrunning⟩ := Task.enter_fields htask
    exact ⟨h.alive.enter htask, by simp [hrunning], fun _ _ => rfl, fun _ => .inr rfl⟩
  | @lock caller hnone hcall =>
    refine ⟨h.alive, h.running, fun b hb => ?_, h.scheduled⟩
    cases hb
    exact hcall rfl
  | @extract caller hholder =>
    refine ⟨h.alive, h.running, fun b hb => ?_, h.scheduled⟩
    cases hb
    exact h.caller _ hholder
  | insert hholder hcaller =>
    refine ⟨h.alive.scheduleAfter, ?_, by simp, fun _ => .inl h.alive.scheduled_scheduleAfter⟩
    rw [h.alive.scheduleAfter_eq]
    exact h.running
  | insertTask hholder =>
    refine ⟨h.alive.scheduleAfter.returned, by simp, by simp, fun _ => .inl ?_⟩
    exact h.alive.scheduled_scheduleAfter.returned

/-! ## The delay is kept -/

/-- The task is in `publish_batch` and has not emptied the accumulator. -/
def View.waits (v : View) : Bool := v.batchTask && v.holder ≠ some (.task, true)

/-- A `publish_batch` has emptied the accumulator and has not ended. -/
def View.publishing (v : View) : Bool := v.holder.any Prod.snd

/-- Time passes only while nothing is to be done at once: no handler waits on the strand, no deadline
is passed over, and an invocation that is pending waits for the function. In `publish_batch`, the task
gets the mutex within `latency`, and whoever has emptied the accumulator comes to the end within
`latency`. -/
structure View.Idles (latency : ℕ) (v : View) (later : ℕ) : Prop where
  posts : v.task.posts = []
  timer : v.task.timed = true → later ≤ v.deadline
  pending : 0 < v.task.pending → v.task.invocation = .running
  waits : v.waits = true → later ≤ v.enteredAt + latency
  publishing : v.publishing = true → later ≤ v.emptyAt + latency

instance (latency : ℕ) (v : View) (later : ℕ) : Decidable (v.Idles latency later) :=
  decidable_of_iff
    (v.task.posts = [] ∧ (v.task.timed = true → later ≤ v.deadline) ∧
      (0 < v.task.pending → v.task.invocation = .running) ∧
      (v.waits = true → later ≤ v.enteredAt + latency) ∧
      (v.publishing = true → later ≤ v.emptyAt + latency))
    ⟨fun ⟨h₁, h₂, h₃, h₄, h₅⟩ => ⟨h₁, h₂, h₃, h₄, h₅⟩,
      fun h => ⟨h.posts, h.timer, h.pending, h.waits, h.publishing⟩⟩

/-- How long ago the accumulator was emptied, depending on what the task is waiting for. -/
structure Timely (latency delay : ℕ) (v : View) : Prop where
  now : v.emptyAt ≤ v.clock
  timer : v.task.timed = true → v.clock ≤ v.deadline ∧ v.deadline ≤ v.emptyAt + latency + delay
  posts : v.task.posts ≠ [] → v.clock ≤ v.emptyAt + latency + delay
  after : .after ∈ v.task.posts → v.clock ≤ v.emptyAt + latency
  pending : 0 < v.task.pending → v.task.invocation ≠ .running →
    v.clock ≤ v.emptyAt + latency + delay
  waits : v.waits = true →
    v.clock ≤ v.enteredAt + latency ∧ v.enteredAt ≤ v.emptyAt + latency + delay
  publishing : v.publishing = true → v.clock ≤ v.emptyAt + latency

section

variable {latency delay : ℕ} {v w : View}

theorem timely_init (latency : ℕ) (cfg : Config) :
    Timely latency cfg.batchPublishingDelay (init cfg).view := by
  constructor <;>
    simp [State.view, init, initial, Task.fresh, View.waits, View.publishing]

/-- The accumulator is emptied now. -/
theorem Timely.empty (h : Timely latency delay v) : Timely latency delay { v with emptyAt := v.clock } where
  now := Nat.le_refl _
  timer ht := by
    have := h.timer ht
    have := h.now
    simp only
    omega
  posts _ := by simp only; omega
  after _ := by simp only; omega
  pending _ _ := by simp only; omega
  waits hw := by
    have := h.waits hw
    have := h.now
    simp only
    omega
  publishing _ := by simp only; omega

/-- Whoever has emptied the accumulator arms the task. -/
theorem Timely.scheduleAfter (h : Timely latency delay v) (hl : Live v)
    (hsoon : v.clock ≤ v.emptyAt + latency) :
    Timely latency delay { v with task := v.task.scheduleAfter } := by
  rw [hl.alive.scheduleAfter_eq]
  exact ⟨h.now, h.timer, fun _ => by simp only; omega, fun _ => hsoon, h.pending, h.waits,
    h.publishing⟩

theorem Timely.move (h : Timely latency delay v) (hl : Live v)
    (hidles : v.clock < w.clock → v.Idles latency w.clock) (hmove : Move delay v w) :
    Timely latency delay w := by
  cases hmove with
  | other => exact h
  | tick d =>
    obtain rfl | hpos := Nat.eq_zero_or_pos d
    · exact h
    have hi := hidles (Nat.lt_add_of_pos_right hpos)
    refine ⟨?_, fun ht => ⟨hi.timer ht, (h.timer ht).2⟩, fun hne => absurd hi.posts hne, ?_, ?_,
      fun hw => ⟨hi.waits hw, (h.waits hw).2⟩, hi.publishing⟩
    · have := h.now
      simp only
      omega
    · intro hmem
      rw [show v.task.posts = [] from hi.posts] at hmem
      cases hmem
    · exact fun hp hr => absurd (hi.pending hp) hr
  | @strand task htask =>
    obtain ⟨p, posts, hposts, hrest, hrunning, htimed⟩ := hl.alive.strand htask
    have hbound : v.clock ≤ v.emptyAt + latency + delay := h.posts (by simp [hposts])
    refine ⟨h.now, fun ht => ?_, fun _ => hbound, fun hmem => ?_, fun _ _ => hbound, h.waits,
      h.publishing⟩
    · by_cases hp : p = .after
      · have hsoon := h.after (by simp [hposts, hp])
        simp only [hposts, List.head?_cons, hp, if_true]
        omega
      · simp only [hposts, List.head?_cons, Option.some.injEq, if_neg hp]
        exact h.timer (htimed hp ht)
    · rw [show task.posts = posts from hrest] at hmem
      exact h.after (by simp [hposts, hmem])
  | expire htask hdue =>
    obtain ⟨htimed, rfl⟩ := Task.expire_eq htask
    have hbound := h.timer htimed
    refine ⟨h.now, by simp [Task.post], fun _ => by simp only; omega, fun hmem => ?_, h.pending,
      h.waits, h.publishing⟩
    exact h.after (by simpa [Task.post] using hmem)
  | @rest task htask =>
    obtain ⟨hposts, htimed, hpending, hhead, -⟩ := Task.rest_fields htask
    refine ⟨h.now, fun ht => h.timer (htimed ▸ ht), fun hp => h.posts (hposts ▸ hp),
      fun hm => h.after (hposts ▸ hm), fun hp _ => h.pending (hpending ▸ hp) (by simp [hhead]),
      h.waits, h.publishing⟩
  | arm hlocked =>
    have hempty := h.empty
    have hl' : Live { v with emptyAt := v.clock } := ⟨hl.alive, hl.running, hl.caller, hl.scheduled⟩
    have harmed := hempty.scheduleAfter hl' (Nat.le_add_right _ _)
    exact ⟨harmed.now, harmed.timer, harmed.posts, harmed.after, harmed.pending, harmed.waits,
      harmed.publishing⟩
  | exchange harmed =>
    exact ⟨h.now, h.timer, h.posts, h.after, h.pending, h.waits, h.publishing⟩
  | @enter task htask hidle =>
    obtain ⟨hpending, hhead, hposts, htimed, hrunning⟩ := Task.enter_fields htask
    have hbound := h.pending hpending (by simp [hhead])
    refine ⟨h.now, fun ht => h.timer (htimed ▸ ht), fun hp => h.posts (hposts ▸ hp),
      fun hm => h.after (hposts ▸ hm), fun _ hr => absurd hrunning hr, fun _ => ?_, h.publishing⟩
    exact ⟨Nat.le_add_right _ _, hbound⟩
  | @lock caller hnone hcall =>
    refine ⟨h.now, h.timer, h.posts, h.after, h.pending, fun hw => h.waits ?_, by simp [View.publishing]⟩
    simp only [View.waits, hnone] at hw ⊢
    simpa using hw
  | @extract caller hholder =>
    have hempty := h.empty
    refine ⟨hempty.now, hempty.timer, hempty.posts, hempty.after, hempty.pending, fun hw => ?_,
      fun _ => Nat.le_add_right _ _⟩
    refine hempty.waits ?_
    simp only [View.waits, hholder] at hw ⊢
    simp_all
  | insert hholder hcaller =>
    have hsoon := h.publishing (by simp [View.publishing, hholder])
    have harmed := h.scheduleAfter hl hsoon
    refine ⟨harmed.now, harmed.timer, harmed.posts, harmed.after, harmed.pending, fun hw => ?_,
      by simp [View.publishing]⟩
    refine harmed.waits ?_
    simp only [View.waits, hholder] at hw ⊢
    simp_all
  | insertTask hholder =>
    have hsoon := h.publishing (by simp [View.publishing, hholder])
    have harmed := h.scheduleAfter hl hsoon
    refine ⟨harmed.now, fun ht => harmed.timer (by simpa using ht),
      fun hp => harmed.posts (by simpa using hp), fun hm => harmed.after (by simpa using hm),
      fun _ _ => by simp only; omega, by simp [View.waits], by simp [View.publishing]⟩

/-- What the task waits for, if it is scheduled or in `publish_batch`, comes in time. -/
theorem Timely.bound (h : Timely latency delay v) (hl : Live v) (hstart : v.start ≠ .locked) :
    v.clock ≤ v.emptyAt + delay + 2 * latency := by
  have hbusy : v.batchTask = true → v.clock ≤ v.emptyAt + delay + 2 * latency := by
    intro hbatch
    by_cases hholder : v.holder = some (.task, true)
    · have := h.publishing (by simp [View.publishing, hholder])
      omega
    · have := h.waits (by simp [View.waits, hbatch, hholder])
      omega
  obtain (hposts | htimed | hpending) | hbatch := hl.scheduled hstart
  · have := h.posts hposts
    omega
  · have := h.timer htimed
    omega
  · by_cases hrunning : v.task.invocation = .running
    · exact hbusy (hl.running.2 hrunning)
    · have := h.pending hpending hrunning
      omega
  · exact hbusy hbatch

end

/-! ## The messages that wait -/

/-- The messages that are pending were added after the accumulator was emptied. -/
structure Recorded (s : State) : Prop where
  length : s.added.length = s.producer.accumulator.pending.length
  since : ∀ τ ∈ s.added, s.emptyAt ≤ τ
  now : s.emptyAt ≤ s.clock
  early : s.start ≠ .returned → s.added = []

theorem length_retimed (clock : ℕ) (added : List ℕ) (n : ℕ) :
    (retimed clock added n).length = n := by
  simp only [retimed, List.length_append, List.length_take, List.length_replicate]
  omega

theorem mem_retimed {clock n τ : ℕ} {added : List ℕ} (h : τ ∈ retimed clock added n) :
    τ ∈ added ∨ τ = clock :=
  (List.mem_append.1 h).imp List.mem_of_mem_take List.eq_of_mem_replicate

section

variable {cfg : Config} {s t : State}

/-- Nothing is added before `start()` has returned. -/
theorem accumulator_of_early {a : Producer.Act} {p q : Producer.State} (ha : early a = true)
    (h : Producer.step cfg p a = some q) : q.accumulator = p.accumulator := by
  unfold early at ha
  split at ha <;> simp only [Producer.step] at h
  · cases batchMove_of_step h
    rfl
  · obtain ⟨_, _, _, _, rfl⟩ := stepFrame_touches h
    rfl
  · cases stopMove_of_step h <;> rfl
  · cases stopMove_of_step h
    rfl
  · cases stopMove_of_step h <;> rfl
  · cases ha

theorem Recorded.step {a : Act} (hs : Recorded s) (h : step cfg s a = some t) : Recorded t := by
  cases a with
  | tick d =>
    cases h
    exact ⟨hs.length, hs.since, Nat.le_add_right_of_le hs.now, hs.early⟩
  | task e =>
    cases e with
    | strand | rest =>
      obtain ⟨task, -, rfl⟩ := Option.map_eq_some_iff.1 h
      exact ⟨hs.length, hs.since, hs.now, hs.early⟩
    | expire =>
      simp only [Periodic.step] at h
      split at h
      · obtain ⟨task, -, rfl⟩ := Option.map_eq_some_iff.1 h
        exact ⟨hs.length, hs.since, hs.now, hs.early⟩
      · cases h
  | arm =>
    simp only [Periodic.step] at h
    split at h <;> cases h
    rename_i hlocked
    have hnil := hs.early (by simp [hlocked])
    exact ⟨hs.length, by simp [hnil], Nat.le_refl _, fun _ => hnil⟩
  | exchange =>
    simp only [Periodic.step] at h
    split at h <;> cases h
    rename_i harmed
    exact ⟨hs.length, hs.since, hs.now, by simp⟩
  | producer a =>
    simp only [Periodic.step] at h
    split at h
    case isFalse => cases h
    rename_i hallowed
    obtain ⟨task, -, h⟩ := Option.bind_eq_some_iff.1 h
    obtain ⟨producer, hproducer, rfl⟩ := Option.map_eq_some_iff.1 h
    refine ⟨length_retimed .., fun τ hτ => ?_, ?_, fun hstart => ?_⟩
    · by_cases ha : a = .batch .extract
      · subst ha
        simp only [Producer.step] at hproducer
        cases batchMove_of_step hproducer
        simp [retimed, Accumulator.extractAll] at hτ
      · simp only [if_neg ha]
        obtain hτ | rfl := mem_retimed hτ
        · exact hs.since τ hτ
        · exact hs.now
    · have := hs.now
      simp only
      split <;> omega
    · have hearly := hallowed.resolve_left hstart
      have hlen := hs.length
      rw [hs.early hstart] at hlen
      rw [accumulator_of_early hearly hproducer, ← hlen, hs.early hstart]
      rfl

/-- The strand, the timer, the scheduler and whoever has the mutex are prompt. -/
def Prompt (latency : ℕ) (s : State) : Act → Prop
  | .tick d => s.view.Idles latency (s.clock + d)
  | _ => True

instance (latency : ℕ) (s : State) (a : Act) : Decidable (Prompt latency s a) := by
  unfold Prompt
  split <;> infer_instance

/-- A step is one of the producer or leaves it alone, and only a tick takes time. -/
theorem frame_of_step {a : Act} (h : step cfg s a = some t) :
    (t.producer = s.producer ∨ ∃ b, Producer.step cfg s.producer b = some t.producer) ∧
      (s.clock < t.clock → ∃ d, a = .tick d ∧ t.clock = s.clock + d) := by
  cases a with
  | tick d =>
    cases h
    exact ⟨.inl rfl, fun _ => ⟨d, rfl, rfl⟩⟩
  | task e =>
    cases e with
    | strand | rest =>
      obtain ⟨task, -, rfl⟩ := Option.map_eq_some_iff.1 h
      exact ⟨.inl rfl, fun hlt => absurd hlt (Nat.lt_irrefl _)⟩
    | expire =>
      simp only [step] at h
      split at h
      · obtain ⟨task, -, rfl⟩ := Option.map_eq_some_iff.1 h
        exact ⟨.inl rfl, fun hlt => absurd hlt (Nat.lt_irrefl _)⟩
      · cases h
  | arm | exchange =>
    simp only [step] at h
    split at h <;> cases h
    exact ⟨.inl rfl, fun hlt => absurd hlt (Nat.lt_irrefl _)⟩
  | producer a =>
    simp only [step] at h
    split at h
    · obtain ⟨task, -, h⟩ := Option.bind_eq_some_iff.1 h
      obtain ⟨producer, hproducer, rfl⟩ := Option.map_eq_some_iff.1 h
      exact ⟨.inr ⟨a, hproducer⟩, fun hlt => absurd hlt (Nat.lt_irrefl _)⟩
    · cases h

/-- What holds in every run. -/
structure Inv (s : State) : Prop where
  stopping : Stopping s.producer
  recorded : Recorded s
  live : s.Intact → Live s.view

theorem inv_init (cfg : Config) : Inv (init cfg) where
  stopping := .initial cfg
  recorded := ⟨rfl, by simp [init], Nat.le_refl _, fun _ => rfl⟩
  live _ := live_init cfg

theorem inv_step (hcfg : cfg.batchPublishingDelay ≠ 0) {a : Act} (hs : Inv s)
    (h : step cfg s a = some t) : Inv t := by
  have hstopping : Stopping t.producer := by
    obtain hsame | ⟨b, hb⟩ := (frame_of_step h).1
    · rw [hsame]
      exact hs.stopping
    · exact hs.stopping.step hb
  refine ⟨hstopping, hs.recorded.step h, fun hopen => ?_⟩
  obtain ⟨hintact, hmove⟩ := move_of_step hcfg hs.stopping hopen h
  exact (hs.live hintact).move hmove

theorem timely_step (hcfg : cfg.batchPublishingDelay ≠ 0) {latency : ℕ} {a : Act}
    (hs : Inv s ∧ (s.Intact → Timely latency cfg.batchPublishingDelay s.view))
    (hok : Prompt latency s a) (h : step cfg s a = some t) :
    Inv t ∧ (t.Intact → Timely latency cfg.batchPublishingDelay t.view) := by
  refine ⟨inv_step hcfg hs.1 h, fun hopen => ?_⟩
  obtain ⟨hintact, hmove⟩ := move_of_step hcfg hs.1.stopping hopen h
  refine (hs.2 hintact).move (hs.1.live hintact) (fun hlt => ?_) hmove
  obtain ⟨d, rfl, hclock⟩ := (frame_of_step h).2 hlt
  rw [show t.view.clock = s.clock + d from hclock]
  exact hok

/-- **A message waits for its batch no longer than the delay.** In every run of a producer with a
publishing delay, from its `start()` to the destruction of its batch task, and whatever else happens:
once `start()` has armed the task, an invocation of the task is to come, or its function is running.
So nothing that was accepted stays in the accumulator for want of a `publish_batch`; and if everything
that the task waits for is prompt, no message has been there for longer than the delay and twice the
latency. -/
theorem accumulated_published (cfg : Config) (hcfg : cfg.batchPublishingDelay ≠ 0) (as : List Act)
    (s : State) (h : (machine cfg).run (init cfg) as = some s) (hopen : s.Intact) :
    (s.start ≠ .locked → s.task.Alive ∧ (s.task.Scheduled ∨ s.producer.batchTask = true)) ∧
      s.added.length = s.producer.accumulator.pending.length ∧
      ∀ latency, (machine cfg).Along (Prompt latency) (init cfg) as →
        ∀ τ ∈ s.added, s.clock ≤ τ + cfg.batchPublishingDelay + 2 * latency := by
  have hinv : Inv s := Machine.run_keeps (P := Inv) (fun hs h => inv_step hcfg hs h) (inv_init cfg) h
  have hlive := hinv.live hopen
  refine ⟨fun hstart => ⟨hlive.alive, hlive.scheduled hstart⟩, hinv.recorded.length,
    fun latency hok τ hτ => ?_⟩
  have htimely := (Machine.run_invariant (P := fun s => Inv s ∧
    (s.Intact → Timely latency cfg.batchPublishingDelay s.view)) (fun hs hok h => timely_step hcfg hs hok h)
    ⟨inv_init cfg, fun _ => timely_init latency cfg⟩ hok h).2 hopen
  have hstart : s.start = .returned := by
    by_contra hne
    rw [hinv.recorded.early hne] at hτ
    cases hτ
  have hbound : s.clock ≤ s.emptyAt + cfg.batchPublishingDelay + 2 * latency :=
    htimely.bound hlive (by simp [State.view, hstart])
  have hsince := hinv.recorded.since τ hτ
  omega

/-- Batches of two messages or after ten units of time. -/
def afterTen : Config := { pairs with batchPublishingDelay := 10 }

/-- A message comes in at 4. At 10 the timer expires, and the task waits for the mutex until 11. -/
def oneMessage : List Act :=
  [Act.arm, .exchange, .task .strand, .tick 4] ++ (acceptedSend 0).map Act.producer ++
    [Act.tick 6, .task .expire, .task .strand, .producer (.batch .task), .tick 1]

theorem accumulated_published_oneMessage :
    ∃ s, (machine afterTen).run (init afterTen) oneMessage = some s ∧ s.Intact ∧ s.clock = 11 ∧
      s.added = [4] ∧ ∀ τ ∈ s.added, s.clock ≤ τ + 10 + 2 * 1 := by
  have hok : (machine afterTen).checkAlong (Prompt 1) (init afterTen) oneMessage = true := by
    decide +kernel
  exact ⟨_, rfl, rfl, rfl, rfl, (accumulated_published afterTen (by decide) oneMessage _ rfl rfl).2.2 1
    (Machine.along_of_check hok)⟩

end

end Hareflow.Producer.Periodic
