import Hareflow.Task.Invocations
import Hareflow.Task.Scheduler
import Mathlib.Data.Fintype.Card

/-!
# Producers and consumers on one scheduler

All tasks of the producers and consumers of an environment run on one `BackgroundScheduler`. The
stream-deleted task of each of them runs `internal_stop` on a worker, and `internal_stop` calls
`destroy()` on the other tasks, one after the other, and waits there for an invocation that may still
be in the overflow. This module composes the tasks and the scheduler: a firing that engages a loop
gives it to `run_task`, a loop moves only while a worker executes it, and a worker is done with a loop
when the loop has ended.

* `Blocked` is a worker in a `destroy()` whose invocation is in the overflow, `Starved` a pool of
  which every worker is blocked.
* `Inv` is the invariants of the parts, and that every loop is given to the scheduler once. Blocked
  workers then stop different owners (`owner_injective`), so that a pool with more workers than owners
  is never starved.
* `Filling` and `Blocking` are the two halves of a run that starves any other pool.
-/

namespace Hareflow.SharedScheduler

open Foundations

/-- The tasks of producers and consumers. -/
inductive Kind
  | batchPublish
  | confirmTimeout
  | persistCursor
  | delayedReconnect
  | reconnect
  | streamDeleted
  deriving DecidableEq, Repr

/-- A producer or a consumer, and which of the tasks that depend on its parameters it has. -/
inductive Owner
  | producer (batchPublish confirmTimeout : Bool)
  | consumer (persistCursor : Bool)
  deriving DecidableEq, Repr

/-- `ReschedulableTask::valid` of the tasks of an owner. -/
def Owner.valid : Owner → Kind → Bool
  | .producer batchPublish _, .batchPublish => batchPublish
  | .producer _ confirmTimeout, .confirmTimeout => confirmTimeout
  | .producer _ _, .persistCursor => false
  | .consumer _, .batchPublish => false
  | .consumer _, .confirmTimeout => false
  | .consumer persistCursor, .persistCursor => persistCursor
  | _, .delayedReconnect => true
  | _, .reconnect => true
  | _, .streamDeleted => true

/-- The tasks that `internal_stop` destroys, in this order. -/
def Owner.internalStop : Owner → List Kind
  | .producer _ _ => [.batchPublish, .confirmTimeout, .delayedReconnect, .reconnect]
  | .consumer _ => [.persistCursor, .delayedReconnect, .reconnect]

/-- The calls of `destroy()` in `internal_stop` that do something: on a task that is not valid it
returns at once. -/
def Owner.toDestroy (owner : Owner) : List Kind := owner.internalStop.filter owner.valid

/-- What a task gives to `run_task`: an invocation loop. -/
structure Job (m : ℕ) where
  owner : Fin m
  kind : Kind
  loop : ℕ
  deriving DecidableEq, Repr

/-- `m` producers and consumers and a scheduler with `n` workers. -/
structure State (m n : ℕ) where
  scheduler : Scheduler.State (Job m) n := {}
  tasks : Fin m → Kind → Invocations.State := fun _ _ => {}
  /-- What the `internal_stop` of a stream-deleted task has still to destroy, the task of the current
  call first. -/
  stops : Fin m → List Kind := fun _ => []

variable {m n : ℕ}

namespace State

def setTask (s : State m n) (o : Fin m) (k : Kind) (t : Invocations.State) : State m n :=
  { s with tasks := Function.update s.tasks o (Function.update (s.tasks o) k t) }

def setStop (s : State m n) (o : Fin m) (kinds : List Kind) : State m n :=
  { s with stops := Function.update s.stops o kinds }

/-- A task takes a step. If that engages a loop, the loop is given to the scheduler. -/
def advance (s : State m n) (o : Fin m) (k : Kind) (a : Invocations.Act) : Option (State m n) :=
  (Invocations.step (s.tasks o k) a).map fun t =>
    if (s.tasks o k).nextLoop < t.nextLoop then
      { s.setTask o k t with scheduler := s.scheduler.runTask ⟨o, k, (s.tasks o k).nextLoop⟩ }
    else s.setTask o k t

/-- The loop that a worker is in. -/
def job (s : State m n) (i : Fin n) : Option (Job m) :=
  if (s.scheduler.workThreads i).pc = .executing then
    (s.scheduler.workThreads i).currentTask.map (·.function)
  else none

/-- A worker executes the loop. -/
def Executes (s : State m n) (j : Job m) : Prop := ∃ i, s.job i = some j

instance (s : State m n) (j : Job m) : Decidable (s.Executes j) :=
  inferInstanceAs (Decidable (∃ i, s.job i = some j))

/-- The next step of the call `d` of `destroy()` on a task. -/
def destroyStep (s : State m n) (o : Fin m) (k : Kind) (d : ℕ) : Option (State m n) :=
  match (s.tasks o k).destroys d with
  | .idle => s.advance o k (.destroy d)
  | .released => s.advance o k (.released d)
  | .waiting _ => s.advance o k (.joined d)
  | _ => none

/-- The calls of `destroy()` are even for the stream-deleted task, which makes one for each of its
invocations, and odd for other threads. -/
def call (s : State m n) (o : Fin m) : ℕ := 2 * (s.tasks o .streamDeleted).started

/-- `internal_stop` goes on: with the current call of `destroy()`, or to the next one. -/
def stopStep (s : State m n) (o : Fin m) : Option (State m n) :=
  match s.stops o with
  | [] => none
  | k :: kinds =>
    if (s.tasks o k).destroys (s.call o) = .returned then some (s.setStop o kinds)
    else s.destroyStep o k (s.call o)

/-- `internal_stop` can throw: at the future that a `destroy()` waited for, or after the last one. -/
def CanThrow (s : State m n) (o : Fin m) : Prop :=
  ∀ k ∈ (s.stops o).head?, (s.tasks o k).destroys (s.call o) = .threw

instance (s : State m n) (o : Fin m) : Decidable (s.CanThrow o) :=
  inferInstanceAs (Decidable (∀ k ∈ (s.stops o).head?, _))

/-- The loop that the worker is in has ended, or was left by an exception. -/
def JobDone (s : State m n) (i : Fin n) : Prop :=
  ∃ j ∈ s.job i, (s.tasks j.owner j.kind).loops j.loop = .ended ∨
    (s.tasks j.owner j.kind).loops j.loop = .threw

instance (s : State m n) (i : Fin n) : Decidable (s.JobDone i) :=
  inferInstanceAs (Decidable (∃ j ∈ s.job i, _))

end State

/-- The steps of a task that need no worker: the calls that producers and consumers make, the strand
and the timer. -/
def isOutside : Kind → Invocations.Act → Bool
  | .batchPublish, .scheduleAfter => true
  | .confirmTimeout, .scheduleAfter => true
  | .persistCursor, .scheduleAfter => true
  | .delayedReconnect, .scheduleNow => true
  | .reconnect, .scheduleNow => true
  | .reconnect, .scheduleAfter => true
  | .streamDeleted, .scheduleNow => true
  | _, .strand => true
  | _, .expire => true
  | _, _ => false

inductive Act (m n : ℕ)
  /-- A call of the owner of a task, its strand, or its timer. -/
  | task (o : Fin m) (k : Kind) (a : Invocations.Act)
  /-- Call `d` of `destroy()` by a thread that is not a worker: by `stop()` or a destructor. -/
  | destroy (o : Fin m) (k : Kind) (d : ℕ)
  /-- A step of a worker outside its task. -/
  | worker (a : Scheduler.Act (Job m) n)
  /-- A loop takes the mutex of its task. -/
  | head (j : Job m)
  | functionReturns (j : Job m)
  | functionThrows (j : Job m)
  /-- The `internal_stop` of a stream-deleted task goes on. -/
  | internalStop (o : Fin m)

variable (owners : Fin m → Owner)

def step (s : State m n) : Act m n → Option (State m n)
  | .task o k a => if (owners o).valid k ∧ isOutside k a then s.advance o k a else none
  | .destroy o k d => if (owners o).valid k then s.destroyStep o k (2 * d + 1) else none
  | .worker (.runTask _) => none
  | .worker (.done i) =>
    if s.JobDone i then
      (Scheduler.step s.scheduler (.done i)).map fun scheduler => { s with scheduler }
    else none
  | .worker a => (Scheduler.step s.scheduler a).map fun scheduler => { s with scheduler }
  | .head j =>
    if s.Executes j then
      (s.advance j.owner j.kind (.head j.loop)).map fun t =>
        if j.kind = .streamDeleted ∧ (t.tasks j.owner j.kind).loops j.loop = .running then
          t.setStop j.owner (owners j.owner).toDestroy
        else t
    else none
  | .functionReturns j =>
    if s.Executes j ∧ (j.kind = .streamDeleted → s.stops j.owner = []) then
      s.advance j.owner j.kind (.functionReturns j.loop)
    else none
  | .functionThrows j =>
    if s.Executes j ∧ (j.kind = .streamDeleted → s.CanThrow j.owner) then
      (s.advance j.owner j.kind (.functionThrows j.loop)).map fun t =>
        if j.kind = .streamDeleted then t.setStop j.owner [] else t
    else none
  | .internalStop o => s.stopStep o

def machine (n : ℕ) : Machine (State m n) (Act m n) where
  Init s := s = {}
  step := step owners

/-- The worker is in `destroy()`, in the `internal_stop` of a stream-deleted task, and the invocation
that it waits for is in the overflow. -/
def Blocked (s : State m n) (i : Fin n) : Prop :=
  ∃ o l k kinds c, s.job i = some ⟨o, .streamDeleted, l⟩ ∧
    (s.tasks o .streamDeleted).loops l = .running ∧ s.stops o = k :: kinds ∧
    (s.tasks o k).destroys (s.call o) = .waiting c ∧
    ∃ task ∈ s.scheduler.taskOverflow, task.function = ⟨o, k, c⟩

/-- Every worker is blocked. -/
def Starved (s : State m n) : Prop := ∀ i, Blocked s i

/-! ## The parts keep their invariants -/

/-- What a step can do: move one task, with what that gives to the scheduler; move a worker; or only
move an `internal_stop`. -/
inductive Change (s t : State m n) : Prop
  | task (o : Fin m) (k : Kind) {a : Invocations.Act} {u : Invocations.State}
    (h : Invocations.step (s.tasks o k) a = some u) (htasks : t.tasks = (s.setTask o k u).tasks)
    (hscheduler : t.scheduler = if (s.tasks o k).nextLoop < u.nextLoop then
      s.scheduler.runTask ⟨o, k, (s.tasks o k).nextLoop⟩ else s.scheduler)
  | worker {a : Scheduler.Act (Job m) n} (ha : ∀ j, a ≠ .runTask j)
    (h : Scheduler.step s.scheduler a = some t.scheduler) (htasks : t.tasks = s.tasks)
  | stop (hscheduler : t.scheduler = s.scheduler) (htasks : t.tasks = s.tasks)

theorem change_of_advance {s t : State m n} {o : Fin m} {k : Kind} {a : Invocations.Act}
    (h : s.advance o k a = some t) : Change s t := by
  obtain ⟨u, hu, rfl⟩ := Option.map_eq_some_iff.1 h
  split
  · rename_i hnew
    exact .task o k hu rfl (if_pos hnew).symm
  · rename_i hold
    exact .task o k hu rfl (if_neg hold).symm

theorem Change.setStop {s t : State m n} (h : Change s t) (o : Fin m) (kinds : List Kind) :
    Change s (t.setStop o kinds) := by
  cases h with
  | task o' k h htasks hscheduler => exact .task o' k h htasks hscheduler
  | worker ha h htasks => exact .worker ha h htasks
  | stop hscheduler htasks => exact .stop hscheduler htasks

theorem change_of_destroyStep {s t : State m n} {o : Fin m} {k : Kind} {d : ℕ}
    (h : s.destroyStep o k d = some t) : Change s t := by
  rw [State.destroyStep] at h
  split at h
  · exact change_of_advance h
  · exact change_of_advance h
  · exact change_of_advance h
  · cases h

theorem change_of_step {s t : State m n} {a : Act m n} (hstep : step owners s a = some t) :
    Change s t := by
  cases a with
  | task o k a => exact change_of_advance (Option.ite_none_right_eq_some.1 hstep).2
  | destroy o k d => exact change_of_destroyStep (Option.ite_none_right_eq_some.1 hstep).2
  | worker a =>
    have hworker : (∀ j, a ≠ .runTask j) →
        (Scheduler.step s.scheduler a).map (fun scheduler => { s with scheduler }) = some t →
        Change s t := by
      intro ha h
      obtain ⟨scheduler, hu, rfl⟩ := Option.map_eq_some_iff.1 h
      exact .worker ha hu rfl
    cases a with
    | runTask j => cases hstep
    | done i => exact hworker (by simp) (Option.ite_none_right_eq_some.1 hstep).2
    | enter i => exact hworker (by simp) hstep
    | takeNext i => exact hworker (by simp) hstep
    | wake i => exact hworker (by simp) hstep
    | timeOut i => exact hworker (by simp) hstep
  | head j =>
    obtain ⟨u, hu, rfl⟩ := Option.map_eq_some_iff.1 (Option.ite_none_right_eq_some.1 hstep).2
    split
    · exact (change_of_advance hu).setStop _ _
    · exact change_of_advance hu
  | functionReturns j => exact change_of_advance (Option.ite_none_right_eq_some.1 hstep).2
  | functionThrows j =>
    obtain ⟨u, hu, rfl⟩ := Option.map_eq_some_iff.1 (Option.ite_none_right_eq_some.1 hstep).2
    split
    · exact (change_of_advance hu).setStop _ _
    · exact change_of_advance hu
  | internalStop o =>
    simp only [step, State.stopStep] at hstep
    split at hstep
    · cases hstep
    · split at hstep
      · obtain rfl := Option.some.inj hstep
        exact .stop rfl rfl
      · exact change_of_destroyStep hstep

structure Inv (s : State m n) : Prop where
  tasks : ∀ o k, Invocations.Inv (s.tasks o k)
  scheduler : Scheduler.Inv s.scheduler
  /-- The scheduler has been given loops that their tasks have engaged. -/
  engaged : ∀ task ∈ s.scheduler.submitted,
    task.function.loop < (s.tasks task.function.owner task.function.kind).nextLoop
  /-- Each of them once. -/
  distinct : (s.scheduler.submitted.map (·.function)).Nodup

theorem inv_init : Inv ({} : State m n) where
  tasks _ _ := Invocations.inv_init
  scheduler := Scheduler.inv_init
  engaged := by simp
  distinct := List.nodup_nil

theorem tasks_setTask (s : State m n) (o : Fin m) (k : Kind) (u : Invocations.State) (o' : Fin m)
    (k' : Kind) : (s.setTask o k u).tasks o' k' = if o' = o ∧ k' = k then u else s.tasks o' k' := by
  by_cases ho : o' = o
  · subst ho
    by_cases hk : k' = k
    · subst hk
      simp [State.setTask]
    · simp [State.setTask, hk]
  · simp [State.setTask, ho]

theorem inv_change {s t : State m n} (h : Inv s) (hchange : Change s t) : Inv t := by
  cases hchange with
  | @task o k a u hu htasks hscheduler =>
    have hle := Invocations.nextLoop_step hu
    have hnext : ∀ o' k', (s.tasks o' k').nextLoop ≤ (t.tasks o' k').nextLoop := by
      intro o' k'
      rw [htasks, tasks_setTask]
      split
      · rename_i heq
        rw [heq.1, heq.2]
        exact hle
      · exact Nat.le_refl _
    have htasks' : ∀ o' k', Invocations.Inv (t.tasks o' k') := by
      intro o' k'
      rw [htasks, tasks_setTask]
      split
      · exact Invocations.inv_step (h.tasks o k) hu
      · exact h.tasks o' k'
    have hengaged : ∀ task ∈ s.scheduler.submitted,
        task.function.loop < (t.tasks task.function.owner task.function.kind).nextLoop :=
      fun task htask => Nat.lt_of_lt_of_le (h.engaged task htask) (hnext _ _)
    split at hscheduler
    · rename_i hnew
      have hsubmitted := Scheduler.submitted_runTask s.scheduler ⟨o, k, (s.tasks o k).nextLoop⟩
      have hfresh : (⟨o, k, (s.tasks o k).nextLoop⟩ : Job m) ∉
          s.scheduler.submitted.map (·.function) := by
        intro hmem
        obtain ⟨task, htask, heq⟩ := List.mem_map.1 hmem
        have hlt := h.engaged task htask
        rw [heq] at hlt
        exact Nat.lt_irrefl _ hlt
      exact
        { tasks := htasks'
          scheduler := hscheduler ▸ h.scheduler.runTask _
          engaged := by
            intro task htask
            rw [hscheduler, hsubmitted] at htask
            rcases List.mem_append.1 htask with htask | htask
            · exact hengaged task htask
            · rw [List.mem_singleton.1 htask, htasks]
              simpa [tasks_setTask, Scheduler.State.packaged] using hnew
          distinct := by
            rw [hscheduler, hsubmitted, List.map_append, List.nodup_append]
            refine ⟨h.distinct, List.nodup_singleton _, ?_⟩
            rintro j hj j' hj' rfl
            obtain rfl := List.mem_singleton.1 hj'
            exact hfresh hj }
    · exact
        { tasks := htasks'
          scheduler := hscheduler ▸ h.scheduler
          engaged := hscheduler ▸ hengaged
          distinct := hscheduler ▸ h.distinct }
  | @worker a ha hu htasks =>
    have hsubmitted := Scheduler.submitted_step ha hu
    exact
      { tasks := htasks ▸ h.tasks
        scheduler := Scheduler.inv_step h.scheduler hu
        engaged := by
          rw [hsubmitted, htasks]
          exact h.engaged
        distinct := hsubmitted ▸ h.distinct }
  | stop hscheduler htasks =>
    exact
      { tasks := htasks ▸ h.tasks
        scheduler := hscheduler ▸ h.scheduler
        engaged := by
          rw [hscheduler, htasks]
          exact h.engaged
        distinct := hscheduler ▸ h.distinct }

theorem inv_step {s t : State m n} {a : Act m n} (h : Inv s) (hstep : step owners s a = some t) :
    Inv t :=
  inv_change h (change_of_step owners hstep)

theorem inv_run {t : State m n} {as : List (Act m n)} (h : (machine owners n).run {} as = some t) :
    Inv t :=
  Machine.run_keeps (M := machine owners n) (P := Inv) (inv_step owners) inv_init h

/-! ## More workers than owners -/

/-- A loop has one worker. -/
theorem Inv.job_injective {s : State m n} (h : Inv s) {i i' : Fin n} {j : Job m}
    (hi : s.job i = some j) (hi' : s.job i' = some j) : i = i' := by
  have hcurrent : ∀ {i : Fin n}, s.job i = some j →
      ∃ task, (s.scheduler.workThreads i).currentTask = some task ∧ task.function = j := by
    intro i hi
    obtain ⟨-, hi⟩ := Option.ite_none_right_eq_some.1 hi
    exact Option.map_eq_some_iff.1 hi
  obtain ⟨task, htask, hfunction⟩ := hcurrent hi
  obtain ⟨task', htask', hfunction'⟩ := hcurrent hi'
  have hmem := h.scheduler.current_mem htask
  obtain rfl : task = task' :=
    List.inj_on_of_nodup_map h.distinct hmem (h.scheduler.current_mem htask')
      (hfunction.trans hfunction'.symm)
  have hone := h.scheduler.count_eq_one hmem
  have hcard : (s.scheduler.holders task).card ≤ 1 := by omega
  exact Finset.card_le_one.1 hcard i (by simpa [Scheduler.State.holders] using htask) i'
    (by simpa [Scheduler.State.holders] using htask')

/-- Blocked workers stop different owners: the stream-deleted task of an owner has one loop. -/
theorem Inv.owner_injective {s : State m n} (h : Inv s) {i i' : Fin n} {o : Fin m} {l l' : ℕ}
    (hi : s.job i = some ⟨o, .streamDeleted, l⟩)
    (hl : (s.tasks o .streamDeleted).loops l = .running)
    (hi' : s.job i' = some ⟨o, .streamDeleted, l'⟩)
    (hl' : (s.tasks o .streamDeleted).loops l' = .running) : i = i' := by
  obtain rfl : l = l' :=
    (h.tasks o .streamDeleted).eq_of_engaged (by rw [hl]; rfl) (by rw [hl']; rfl)
  exact h.job_injective hi hi'

/-- A starved pool has no more workers than owners. -/
theorem Inv.le_of_starved {s : State m n} (h : Inv s) (hstarved : Starved s) : n ≤ m := by
  choose owner loop kind kinds c hjob hrunning hrest using hstarved
  have hinj : Function.Injective owner := by
    intro i i' heq
    have hjob' := hjob i'
    have hrunning' := hrunning i'
    rw [← heq] at hjob' hrunning'
    exact h.owner_injective (hjob i) (hrunning i) hjob' hrunning'
  simpa using Fintype.card_le_of_injective owner hinj

/-! ## As many owners as workers -/

theorem exists_advance {s : State m n} {o : Fin m} {k : Kind} {a : Invocations.Act}
    {u : Invocations.State} (hu : Invocations.step (s.tasks o k) a = some u) :
    ∃ t, s.advance o k a = some t ∧
      (∀ o' k', t.tasks o' k' = if o' = o ∧ k' = k then u else s.tasks o' k') ∧
      t.scheduler = (if (s.tasks o k).nextLoop < u.nextLoop then
        s.scheduler.runTask ⟨o, k, (s.tasks o k).nextLoop⟩ else s.scheduler) ∧
      t.stops = s.stops := by
  refine ⟨_, by rw [State.advance, hu, Option.map_some], ?_⟩
  split
  · exact ⟨tasks_setTask s o k u, rfl, rfl⟩
  · exact ⟨tasks_setTask s o k u, rfl, rfl⟩

/-- A new task that has fired once: its loop is queued. -/
def fired : Invocations.State where
  pending := 1
  current := some 0
  nextLoop := 1
  loops := Function.update (fun _ => .idle) 0 .head
  firings := 1

/-- A task is scheduled for now, or after a delay that passes, and is about to fire. -/
theorem exists_posted (k : Kind) :
    ∃ as posted, (∀ a ∈ as, isOutside k a = true) ∧ Invocations.machine.run {} as = some posted ∧
      posted.nextLoop = 0 ∧ Invocations.step posted .strand = some fired := by
  have hnow : isOutside k .scheduleNow = true ∨ isOutside k .scheduleAfter = true := by
    cases k <;> simp [isOutside]
  have hstrand : isOutside k .strand = true ∧ isOutside k .expire = true := by
    cases k <;> simp [isOutside]
  rcases hnow with hnow | hafter
  · exact ⟨[.scheduleNow], { posts := [.now] }, by simpa using hnow, rfl, rfl, rfl⟩
  · refine ⟨[.scheduleAfter, .strand, .expire], { posts := [.expired] }, ?_, rfl, rfl, rfl⟩
    simpa using ⟨hafter, hstrand⟩

/-- Steps of a task that engage no loop do not reach the scheduler. -/
theorem exists_quiet {o : Fin m} {k : Kind} (hvalid : (owners o).valid k = true)
    {as : List Invocations.Act} (has : ∀ a ∈ as, isOutside k a = true) {s : State m n}
    {u : Invocations.State} (hrun : Invocations.machine.run (s.tasks o k) as = some u)
    (hnext : u.nextLoop = (s.tasks o k).nextLoop) :
    ∃ t, (machine owners n).Leads s t ∧
      (∀ o' k', t.tasks o' k' = if o' = o ∧ k' = k then u else s.tasks o' k') ∧
      t.scheduler = s.scheduler ∧ t.stops = s.stops := by
  induction as generalizing s with
  | nil =>
    obtain rfl := Option.some.inj hrun
    refine ⟨s, .refl s, fun o' k' => ?_, rfl, rfl⟩
    split
    · rename_i heq
      rw [heq.1, heq.2]
    · rfl
  | cons a as ih =>
    obtain ⟨v, hv, hrun⟩ := Machine.run_cons.1 hrun
    have hle₁ := Invocations.nextLoop_step hv
    have hle₂ := Invocations.nextLoop_run hrun
    obtain ⟨s₁, hs₁, htasks₁, hscheduler₁, hstops₁⟩ := exists_advance hv
    have htask₁ : s₁.tasks o k = v := by simp [htasks₁]
    obtain ⟨t, hlead, htasks, hscheduler, hstops⟩ := ih (fun b hb => has b (List.mem_cons_of_mem a hb))
      (s := s₁) (htask₁ ▸ hrun) (by rw [htask₁]; omega)
    have hstep : (machine owners n).step s (.task o k a) = some s₁ :=
      (if_pos ⟨hvalid, has a (List.mem_cons_self ..)⟩).trans hs₁
    refine ⟨t, ((Machine.Leads.refl s).tail hstep).trans hlead, fun o' k' => ?_, ?_,
      hstops.trans hstops₁⟩
    · rw [htasks, htasks₁]
      split <;> rfl
    · rw [hscheduler, hscheduler₁, if_neg (by omega)]

/-- A new task of an owner fires, and the loop is given to the scheduler. -/
theorem exists_fired {s : State m n} {o : Fin m} {k : Kind} (hvalid : (owners o).valid k = true)
    (hnew : s.tasks o k = {}) :
    ∃ t, (machine owners n).Leads s t ∧
      (∀ o' k', t.tasks o' k' = if o' = o ∧ k' = k then fired else s.tasks o' k') ∧
      t.scheduler = s.scheduler.runTask ⟨o, k, 0⟩ ∧ t.stops = s.stops := by
  obtain ⟨as, posted, has, hrun, hnext, hfire⟩ := exists_posted k
  obtain ⟨s₁, hlead₁, htasks₁, hscheduler₁, hstops₁⟩ := exists_quiet owners hvalid has (s := s)
    (hnew ▸ hrun) (by rw [hnext, hnew])
  have hposted : s₁.tasks o k = posted := by simp [htasks₁]
  obtain ⟨s₂, hs₂, htasks₂, hscheduler₂, hstops₂⟩ := exists_advance (s := s₁) (hposted ▸ hfire)
  have houtside : isOutside k .strand = true := by cases k <;> rfl
  have hstep : (machine owners n).step s₁ (.task o k .strand) = some s₂ :=
    (if_pos ⟨hvalid, houtside⟩).trans hs₂
  refine ⟨s₂, hlead₁.tail hstep, ?_, ?_, hstops₂.trans hstops₁⟩
  · intro o' k'
    rw [htasks₂, htasks₁]
    split <;> rfl
  · rw [hscheduler₂, hscheduler₁, hposted, hnext]
    rfl

/-- A worker that was started calls its task. -/
theorem exists_entered {s : State m n} {i : Fin n} {task : Scheduler.PackagedTask (Job m)}
    (hi : s.scheduler.workThreads i =
      { running := true, pc := .starting, currentTask := some task }) :
    ∃ t, (machine owners n).step s (.worker (.enter i)) = some t ∧ t.tasks = s.tasks ∧
      t.stops = s.stops ∧ t.scheduler.workThreads = Function.update s.scheduler.workThreads i
        { running := true, pc := .executing, currentTask := some task } := by
  have henter : Scheduler.step s.scheduler (.enter i) = some (s.scheduler.proceed i) :=
    if_pos (by rw [hi])
  refine ⟨{ s with scheduler := s.scheduler.proceed i }, ?_, rfl, rfl, ?_⟩
  · show (Scheduler.step s.scheduler (.enter i)).map _ = _
    rw [henter]
    rfl
  · simp [Scheduler.State.proceed, Scheduler.State.setWorker, hi]

/-- A stream-deleted task that has fired once calls `internal_stop`. -/
theorem exists_stopping {s : State m n} {o : Fin m}
    (hexecutes : s.Executes ⟨o, .streamDeleted, 0⟩) (htask : s.tasks o .streamDeleted = fired) :
    ∃ t, (machine owners n).step s (.head ⟨o, .streamDeleted, 0⟩) = some t ∧
      (t.tasks o .streamDeleted).loops 0 = .running ∧
      (∀ o' k', ¬(o' = o ∧ k' = .streamDeleted) → t.tasks o' k' = s.tasks o' k') ∧
      t.scheduler = s.scheduler ∧ t.stops = Function.update s.stops o (owners o).toDestroy := by
  have hhead : Invocations.step (s.tasks o .streamDeleted) (.head 0) = some { fired with
      pending := 0
      started := 1
      loops := Function.update fired.loops 0 .running } := by
    rw [htask]
    rfl
  obtain ⟨t, ht, htasks, hscheduler, hstops⟩ := exists_advance hhead
  have hrunning : (t.tasks o .streamDeleted).loops 0 = .running := by simp [htasks]
  refine ⟨t.setStop o (owners o).toDestroy, ?_, hrunning, ?_, ?_, ?_⟩
  · refine (if_pos hexecutes).trans ?_
    rw [ht, Option.map_some, if_pos ⟨rfl, hrunning⟩]
  · intro o' k' hne
    exact (htasks o' k').trans (if_neg hne)
  · show t.scheduler = s.scheduler
    rw [hscheduler, htask]
    rfl
  · rw [State.setStop, hstops]

/-- The stream-deleted tasks of the first `r` owners have occupied `r` workers, and nothing else has
happened. -/
structure Filling (r : ℕ) (s : State m n) : Prop where
  inv : Inv s
  busy : ∃ workers : Finset (Fin n), workers.card = r ∧
    (∀ i ∈ workers, ∃ o : Fin m, o.val < r ∧ s.job i = some ⟨o, .streamDeleted, 0⟩) ∧
    ∀ i ∉ workers, (s.scheduler.workThreads i).running = false
  fresh : ∀ o k, r ≤ o.val ∨ k ≠ .streamDeleted → s.tasks o k = {}
  stopping : ∀ o, o.val < r → (s.tasks o .streamDeleted).loops 0 = .running ∧
    s.stops o = (owners o).toDestroy

theorem filling_init : Filling owners 0 ({} : State m n) where
  inv := inv_init
  busy := ⟨∅, rfl, by simp, fun _ _ => rfl⟩
  fresh _ _ _ := rfl
  stopping := by simp

/-- A worker that is in a loop is running, with the loop as its task. -/
theorem Inv.of_job {s : State m n} (h : Inv s) {i : Fin n} {j : Job m} (hi : s.job i = some j) :
    (s.scheduler.workThreads i).running = true ∧
      (s.scheduler.workThreads i).currentTask ≠ none := by
  obtain ⟨-, hi⟩ := Option.ite_none_right_eq_some.1 hi
  have hsome : (s.scheduler.workThreads i).currentTask ≠ none := by
    intro hnone
    simp [hnone] at hi
  exact ⟨(h.scheduler.coherent i).isRunning hsome, hsome⟩

/-- While some workers are in loops and the others are stopped, `run_task` starts one. -/
theorem Inv.exists_stopped {s : State m n} (h : Inv s) {workers : Finset (Fin n)}
    (hcard : workers.card < n) (hjobs : ∀ i ∈ workers, s.job i ≠ none)
    (hstopped : ∀ i ∉ workers, (s.scheduler.workThreads i).running = false) :
    ∃ i ∉ workers, s.scheduler.findAvailableThread = (some i, false) := by
  have hbusy : ∀ i ∈ workers, (s.scheduler.workThreads i).running = true ∧
      (s.scheduler.workThreads i).currentTask ≠ none := by
    intro i hi
    obtain ⟨j, hj⟩ := Option.ne_none_iff_exists'.1 (hjobs i hi)
    exact h.of_job hj
  have hfound := Scheduler.found_findAvailableThread s.scheduler
  generalize s.scheduler.findAvailableThread = found at hfound
  cases hfound with
  | idle i hrunning hnone =>
    by_cases hi : i ∈ workers
    · exact absurd hnone (hbusy i hi).2
    · simp [hstopped i hi] at hrunning
  | stopped i hrunning =>
    refine ⟨i, fun hi => ?_, rfl⟩
    simp [(hbusy i hi).1] at hrunning
  | full hfull =>
    obtain ⟨i, hi⟩ : ∃ i, i ∉ workers := by
      by_contra hall
      have huniv : workers = Finset.univ :=
        Finset.eq_univ_iff_forall.2 fun i => by_contra fun hi => hall ⟨i, hi⟩
      simp [huniv] at hcard
    have := (hfull i).1
    simp [hstopped i hi] at this

/-- The stream-deleted task of the next owner fires, a stopped worker is started for it, and
`internal_stop` begins. -/
theorem Filling.succ {r : ℕ} {s : State m n} (h : Filling owners r s) (hr : r < n) (hnm : n ≤ m) :
    ∃ t, (machine owners n).Leads s t ∧ Filling owners (r + 1) t := by
  obtain ⟨workers, hcard, hjobs, hstopped⟩ := h.busy
  obtain ⟨i, hi, hfound⟩ := h.inv.exists_stopped (hcard ▸ hr)
    (fun i hi => by obtain ⟨o, -, hjob⟩ := hjobs i hi; simp [hjob]) hstopped
  let o : Fin m := ⟨r, by omega⟩
  let task := s.scheduler.packaged ⟨o, .streamDeleted, 0⟩
  obtain ⟨s₁, hlead₁, htasks₁, hscheduler₁, hstops₁⟩ := exists_fired owners (s := s) (o := o)
    (k := .streamDeleted) (by cases owners o <;> rfl) (h.fresh o _ (.inl (Nat.le_refl r)))
  have hthreads₁ : s₁.scheduler.workThreads = Function.update s.scheduler.workThreads i
      { running := true, pc := .starting, currentTask := some task } := by
    rw [hscheduler₁, Scheduler.runTask_stopped hfound]
    rfl
  have hstarted : s₁.scheduler.workThreads i =
      { running := true, pc := .starting, currentTask := some task } := by
    rw [hthreads₁, Function.update_self]
  obtain ⟨s₂, hstep₂, htasks₂, hstops₂, hthreads₂⟩ := exists_entered owners hstarted
  rw [hthreads₁, Function.update_idem] at hthreads₂
  have hjob₂ : s₂.job i = some ⟨o, .streamDeleted, 0⟩ := by
    simp [State.job, hthreads₂, task, Scheduler.State.packaged]
  obtain ⟨t, hstep, hrunning, htasks, hscheduler, hstops⟩ := exists_stopping owners (s := s₂) (o := o)
    ⟨i, hjob₂⟩ (by simp [htasks₂, htasks₁])
  have hlead : (machine owners n).Leads s t := (hlead₁.tail hstep₂).tail hstep
  have hjob : ∀ i' ≠ i, t.job i' = s.job i' := by
    intro i' hne
    simp [State.job, hscheduler, hthreads₂, Function.update_of_ne hne]
  exact ⟨t, hlead,
    { inv := hlead.keeps (inv_step owners) h.inv
      busy := by
        refine ⟨insert i workers, by rw [Finset.card_insert_of_notMem hi, hcard], ?_, ?_⟩
        · intro i' hi'
          by_cases hne : i' = i
          · subst hne
            exact ⟨o, Nat.lt_succ_self r, by simpa [State.job, hscheduler] using hjob₂⟩
          · obtain ⟨o', ho', hjob'⟩ := hjobs i' (Finset.mem_of_mem_insert_of_ne hi' hne)
            exact ⟨o', Nat.lt_succ_of_lt ho', (hjob i' hne).trans hjob'⟩
        · intro i' hi'
          have hne : i' ≠ i := fun heq => hi' (by simp [heq])
          rw [hscheduler, hthreads₂, Function.update_of_ne hne]
          exact hstopped i' fun hmem => hi' (Finset.mem_insert_of_mem hmem)
      fresh := by
        intro o' k' hor
        have hne : ¬(o' = o ∧ k' = .streamDeleted) := by
          rintro ⟨rfl, rfl⟩
          rcases hor with hlt | hne
          · exact Nat.not_succ_le_self r hlt
          · exact hne rfl
        rw [htasks o' k' hne, htasks₂, htasks₁, if_neg hne]
        exact h.fresh o' k' (hor.imp_left fun hlt => Nat.le_of_succ_le hlt)
      stopping := by
        intro o' ho'
        by_cases hne : o' = o
        · subst hne
          exact ⟨hrunning, by rw [hstops, Function.update_self]⟩
        · have hlt : o'.val < r := by
            have : o'.val ≠ r := fun heq => hne (Fin.ext heq)
            omega
          rw [htasks o' _ (fun heq => hne heq.1), htasks₂, htasks₁, if_neg (fun heq => hne heq.1), hstops,
            Function.update_of_ne hne, hstops₂, hstops₁]
          exact h.stopping o' hlt }⟩

theorem exists_filling (hnm : n ≤ m) {r : ℕ} (hr : r ≤ n) :
    ∃ s : State m n, (machine owners n).Leads {} s ∧ Filling owners r s := by
  induction r with
  | zero => exact ⟨{}, .refl _, filling_init owners⟩
  | succ r ih =>
    obtain ⟨s, hlead, hs⟩ := ih (by omega)
    obtain ⟨t, hlead', ht⟩ := hs.succ owners hr hnm
    exact ⟨t, hlead.trans hlead', ht⟩

/-- While every worker is in a loop, `run_task` puts its task into the overflow. -/
theorem Inv.findAvailableThread_of_jobs {s : State m n} (h : Inv s) (hjobs : ∀ i, s.job i ≠ none) :
    s.scheduler.findAvailableThread = (none, false) := by
  have hfound := Scheduler.found_findAvailableThread s.scheduler
  generalize s.scheduler.findAvailableThread = found at hfound
  cases hfound with
  | idle i _ hnone =>
    obtain ⟨j, hj⟩ := Option.ne_none_iff_exists'.1 (hjobs i)
    exact absurd hnone (h.of_job hj).2
  | stopped i hrunning =>
    obtain ⟨j, hj⟩ := Option.ne_none_iff_exists'.1 (hjobs i)
    simp [(h.of_job hj).1] at hrunning
  | full _ => rfl

theorem stopStep_eq {s : State m n} {o : Fin m} {k : Kind} {kinds : List Kind}
    (hstops : s.stops o = k :: kinds) (hd : (s.tasks o k).destroys (s.call o) ≠ .returned) :
    s.stopStep o = s.destroyStep o k (s.call o) := by
  rw [State.stopStep, hstops]
  exact if_neg hd

/-- A task that has fired once, while call `d` of `destroy()` is on it. -/
def destroying (d : ℕ) (posts : List Invocations.Handler) (function : Bool)
    (pc : Invocations.DestroyPc) : Invocations.State :=
  { fired with posts, function, destroyed := true, destroys := Function.update (fun _ => .idle) d pc }

/-- The first task that `internal_stop` destroys has fired once, and its loop has not been executed:
the call of `destroy()` waits for it. -/
theorem exists_waiting {s : State m n} {o : Fin m} {k : Kind} {kinds : List Kind}
    (hk : (owners o).valid k = true) (hne : k ≠ .streamDeleted) (hstops : s.stops o = k :: kinds)
    (htask : s.tasks o k = fired) :
    ∃ t, (machine owners n).Leads s t ∧ (t.tasks o k).destroys (t.call o) = .waiting 0 ∧
      (∀ o' k', ¬(o' = o ∧ k' = k) → t.tasks o' k' = s.tasks o' k') ∧
      t.scheduler = s.scheduler ∧ t.stops = s.stops := by
  have hcall : ∀ {t : State m n}, t.tasks o .streamDeleted = s.tasks o .streamDeleted →
      t.call o = s.call o := fun heq => by rw [State.call, heq, State.call]
  generalize hd : s.call o = d at hcall
  have hdestroy : Invocations.step (s.tasks o k) (.destroy d) =
      some (destroying d [.destroy d] true .dispatched) := by
    rw [htask]
    rfl
  obtain ⟨s₁, hs₁, htasks₁, hscheduler₁, hstops₁⟩ := exists_advance hdestroy
  have hcall₁ : s₁.call o = d := hcall (by simp [htasks₁, Ne.symm hne])
  have hstrand : Invocations.step (s₁.tasks o k) .strand = some (destroying d [] false .released) := by
    rw [htasks₁, if_pos ⟨rfl, rfl⟩]
    simp [Invocations.step, destroying, fired, Invocations.State.handle, Invocations.State.setDestroy]
  obtain ⟨s₂, hs₂, htasks₂, hscheduler₂, hstops₂⟩ := exists_advance hstrand
  have hcall₂ : s₂.call o = d := hcall (by simp [htasks₁, htasks₂, Ne.symm hne])
  have hreleased : Invocations.step (s₂.tasks o k) (.released d) =
      some (destroying d [] false (.waiting 0)) := by
    rw [htasks₂, if_pos ⟨rfl, rfl⟩]
    simp [Invocations.step, destroying, fired, Invocations.State.afterRelease,
      Invocations.State.setDestroy]
  obtain ⟨s₃, hs₃, htasks₃, hscheduler₃, hstops₃⟩ := exists_advance hreleased
  have hcall₃ : s₃.call o = d := hcall (by simp [htasks₁, htasks₂, htasks₃, Ne.symm hne])
  have hstep₁ : step owners s (.internalStop o) = some s₁ := by
    have hidle : (s.tasks o k).destroys d = .idle := by rw [htask]; rfl
    refine (stopStep_eq hstops (by simp [hd, hidle])).trans ?_
    rw [hd, State.destroyStep, hidle]
    exact hs₁
  have hstep₃ : step owners s₂ (.internalStop o) = some s₃ := by
    have hpc : (s₂.tasks o k).destroys d = .released := by simp [htasks₂, destroying]
    refine (stopStep_eq (by rw [hstops₂, hstops₁, hstops]) (by simp [hcall₂, hpc])).trans ?_
    rw [hcall₂, State.destroyStep, hpc]
    exact hs₃
  refine ⟨s₃, ?_, ?_, ?_, ?_, ?_⟩
  · have houtside : isOutside k .strand = true := by cases k <;> rfl
    have hstep₂ : step owners s₁ (.task o k .strand) = some s₂ := (if_pos ⟨hk, houtside⟩).trans hs₂
    exact (((Machine.Leads.refl s).tail (a := .internalStop o) hstep₁).tail
      (a := .task o k .strand) hstep₂).tail (a := .internalStop o) hstep₃
  · simp [hcall₃, htasks₃, destroying]
  · intro o' k' hne'
    rw [htasks₃, if_neg hne', htasks₂, if_neg hne', htasks₁, if_neg hne']
  · rw [hscheduler₃, hscheduler₂, hscheduler₁, htasks₂, htasks₁, htask]
    simp [destroying]
  · rw [hstops₃, hstops₂, hstops₁]

/-- Every worker is in the `internal_stop` of one of the first `n` owners, and in those of the first
`r` of them it waits for an invocation in the overflow. -/
structure Blocking (r : ℕ) (s : State m n) : Prop where
  inv : Inv s
  busy : ∀ i, ∃ o : Fin m, o.val < n ∧ s.job i = some ⟨o, .streamDeleted, 0⟩
  stopping : ∀ o, o.val < n → (s.tasks o .streamDeleted).loops 0 = .running ∧
    s.stops o = (owners o).toDestroy
  fresh : ∀ o k, r ≤ o.val → k ≠ .streamDeleted → s.tasks o k = {}
  blocked : ∀ o, o.val < r → ∃ k kinds, (owners o).toDestroy = k :: kinds ∧
    (s.tasks o k).destroys (s.call o) = .waiting 0 ∧
    ∃ task ∈ s.scheduler.taskOverflow, task.function = ⟨o, k, 0⟩

theorem Filling.blocking {s : State m n} (h : Filling owners n s) : Blocking owners 0 s where
  inv := h.inv
  busy := by
    obtain ⟨workers, hcard, hjobs, -⟩ := h.busy
    have huniv : workers = Finset.univ := Finset.eq_univ_of_card workers (by simpa using hcard)
    exact fun i => hjobs i (by simp [huniv])
  stopping := h.stopping
  fresh o k _ hk := h.fresh o k (.inr hk)
  blocked := by simp

/-- There is always a task to destroy. -/
theorem exists_toDestroy (owner : Owner) :
    ∃ k kinds, owner.toDestroy = k :: kinds ∧ owner.valid k = true ∧ k ≠ .streamDeleted := by
  cases owner with
  | producer b c => cases b <;> cases c <;> exact ⟨_, _, rfl, rfl, by simp⟩
  | consumer p => cases p <;> exact ⟨_, _, rfl, rfl, by simp⟩

theorem Blocking.succ {r : ℕ} {s : State m n} (h : Blocking owners r s) (hr : r < n) (hnm : n ≤ m) :
    ∃ t, (machine owners n).Leads s t ∧ Blocking owners (r + 1) t := by
  let o : Fin m := ⟨r, by omega⟩
  obtain ⟨k, kinds, htodo, hvalid, hk⟩ := exists_toDestroy (owners o)
  obtain ⟨s₁, hlead₁, htasks₁, hscheduler₁, hstops₁⟩ := exists_fired owners (s := s) (o := o) (k := k)
    hvalid (h.fresh o k (Nat.le_refl r) hk)
  have hfull := h.inv.findAvailableThread_of_jobs fun i => by
    obtain ⟨o', -, hjob⟩ := h.busy i
    simp [hjob]
  rw [Scheduler.runTask_full hfull] at hscheduler₁
  obtain ⟨t, hlead₂, hwaiting, htasks, hscheduler, hstops⟩ := exists_waiting owners (s := s₁) (o := o)
    hvalid hk (by rw [hstops₁, (h.stopping o hr).2, htodo]) (by simp [htasks₁])
  have hlead := hlead₁.trans hlead₂
  have hother : ∀ o' k', ¬(o' = o ∧ k' = k) → t.tasks o' k' = s.tasks o' k' := by
    intro o' k' hne
    rw [htasks o' k' hne, htasks₁, if_neg hne]
  have hdeleted : ∀ o', t.tasks o' .streamDeleted = s.tasks o' .streamDeleted :=
    fun o' => hother o' _ fun heq => hk heq.2.symm
  have hjob : ∀ i, t.job i = s.job i := by
    intro i
    simp [State.job, hscheduler, hscheduler₁]
  exact ⟨t, hlead,
    { inv := hlead.keeps (inv_step owners) h.inv
      busy := by
        intro i
        rw [hjob]
        exact h.busy i
      stopping := by
        intro o' ho'
        rw [hdeleted, hstops, hstops₁]
        exact h.stopping o' ho'
      fresh := by
        intro o' k' ho' hk'
        have hne : o' ≠ o := by
          rintro rfl
          exact Nat.not_succ_le_self r ho'
        rw [hother o' k' fun heq => hne heq.1]
        exact h.fresh o' k' (Nat.le_of_succ_le ho') hk'
      blocked := by
        intro o' ho'
        by_cases hne : o' = o
        · subst hne
          refine ⟨k, kinds, htodo, hwaiting, s.scheduler.packaged ⟨o, k, 0⟩, ?_, rfl⟩
          simp [hscheduler, hscheduler₁]
        · have hlt : o'.val < r := by
            have : o'.val ≠ r := fun heq => hne (Fin.ext heq)
            omega
          obtain ⟨k', kinds', htodo', hwaiting', task, htask, hfunction⟩ := h.blocked o' hlt
          refine ⟨k', kinds', htodo', ?_, task, ?_, hfunction⟩
          · rw [State.call, hdeleted, hother o' k' fun heq => hne heq.1]
            exact hwaiting'
          · simp [hscheduler, hscheduler₁, htask] }⟩

theorem exists_blocking (hnm : n ≤ m) {r : ℕ} (hr : r ≤ n) :
    ∃ s : State m n, (machine owners n).Leads {} s ∧ Blocking owners r s := by
  induction r with
  | zero =>
    obtain ⟨s, hlead, hs⟩ := exists_filling owners hnm (Nat.le_refl n)
    exact ⟨s, hlead, hs.blocking⟩
  | succ r ih =>
    obtain ⟨s, hlead, hs⟩ := ih (by omega)
    obtain ⟨t, hlead', ht⟩ := hs.succ owners hr hnm
    exact ⟨t, hlead.trans hlead', ht⟩

theorem Blocking.starved {s : State m n} (h : Blocking owners n s) : Starved s := by
  intro i
  obtain ⟨o, ho, hjob⟩ := h.busy i
  obtain ⟨hrunning, hstops⟩ := h.stopping o ho
  obtain ⟨k, kinds, htodo, hwaiting, htask⟩ := h.blocked o ho
  exact ⟨o, 0, k, kinds, 0, hjob, hrunning, hstops.trans htodo, hwaiting, htask⟩

/-- **Stopping from the scheduler starves the scheduler exactly when there are no more workers than
owners.** No run leads to a state in which every worker is in a `destroy()` that waits for an
invocation in the overflow if, and only if, the pool has more workers than there are producers and
consumers. -/
theorem notStarved_iff (owners : Fin m → Owner) (n : ℕ) :
    (∀ as t, (machine owners n).run {} as = some t → ¬Starved t) ↔ m < n := by
  constructor
  · intro hnever
    by_contra hnm
    obtain ⟨t, ⟨as, has⟩, ht⟩ := exists_blocking owners (Nat.le_of_not_lt hnm) (Nat.le_refl n)
    exact hnever as t has ht.starved
  · intro hlt as t ht hstarved
    have hle := (inv_run owners ht).le_of_starved hstarved
    omega

/-- A producer that publishes in batches, and its stream is deleted: the reconnect task learns it on
worker `i` and schedules the stream-deleted task, which gets the worker when the reconnect task is
done. The batch timer expires, the loop goes to the overflow, and `internal_stop` destroys the
batch-publish task first. -/
def deletedWhileBatching (o : Fin m) (i : Fin n) : List (Act m n) :=
  [.task o .batchPublish .scheduleAfter, .task o .batchPublish .strand,
    .task o .reconnect .scheduleNow, .task o .reconnect .strand, .worker (.enter i),
    .head ⟨o, .reconnect, 0⟩, .task o .streamDeleted .scheduleNow, .task o .streamDeleted .strand,
    .functionReturns ⟨o, .reconnect, 0⟩, .head ⟨o, .reconnect, 0⟩, .worker (.done i),
    .worker (.takeNext i), .head ⟨o, .streamDeleted, 0⟩,
    .task o .batchPublish .expire, .task o .batchPublish .strand,
    .internalStop o, .task o .batchPublish .strand, .internalStop o]

theorem starved_of_deletedWhileBatching :
    ∃ t : State 1 1, (machine (fun _ => .producer true false) 1).run {} (deletedWhileBatching 0 0) =
      some t ∧ Starved t := by
  -- what the run makes of the worker, of `internal_stop` and of the overflow
  have hrun : ((machine (fun _ => .producer true false) 1).run ({} : State 1 1)
      (deletedWhileBatching 0 0)).any (fun t => decide (t.job 0 = some ⟨0, .streamDeleted, 0⟩ ∧
        (t.tasks 0 .streamDeleted).loops 0 = .running ∧
        t.stops 0 = [.batchPublish, .delayedReconnect, .reconnect] ∧
        (t.tasks 0 .batchPublish).destroys (t.call 0) = .waiting 0 ∧
        t.scheduler.taskOverflow = [⟨2, 0, .batchPublish, 0⟩])) = true := by
    decide +kernel
  obtain ⟨t, ht, hview⟩ := (Option.any_eq_true ..).1 hrun
  obtain ⟨hjob, hrunning, hstops, hwaiting, hoverflow⟩ := of_decide_eq_true hview
  refine ⟨t, ht, fun i => ?_⟩
  obtain rfl : i = 0 := Subsingleton.elim _ _
  exact ⟨0, 0, .batchPublish, _, 0, hjob, hrunning, hstops, hwaiting, ⟨2, 0, .batchPublish, 0⟩,
    by simp [hoverflow], rfl⟩

end Hareflow.SharedScheduler
