import Hareflow.Foundations.Monitor
import Hareflow.Task.Scheduler
import Mathlib.Algebra.Order.BigOperators.Group.Finset

/-!
# The end of a scheduler

`~BackgroundScheduler` sets `m_quitting` and then, worker by worker, notifies and joins. A worker that
finds `m_quitting` set leaves its loop at its next critical section, whatever task it has: the first
one if it was just started, the one after its task, or the one in `wait_for`. In the second it has
already moved the next task of the overflow to itself, which is then lost like the rest.

`Closing` is the scheduler with its destructor, and `workerWaits` the condition variables of the
workers, each with one waiter. The destructor notifies a worker only after it has joined the ones
before it, so until then it owes the notification.

What a run after `m_quitting` can do is in `QuittingMove`. Each of its steps lowers `stepsLeft`, and
`exists_step` says that there is one until the destructor has returned. So it returns as soon as the
tasks that are running do.
-/

namespace Hareflow.Scheduler

open Foundations

variable {α : Type*} {n : ℕ}

/-- Where `~BackgroundScheduler` is. -/
inductive DestructorPc (n : ℕ)
  /-- Not called. -/
  | idle
  /-- Before the notification of a worker. Past the last one it has returned. -/
  | notifying (i : ℕ)
  /-- In the `join` of a worker. -/
  | joining (i : Fin n)
  deriving DecidableEq, Repr

/-- A scheduler and its destructor. -/
structure Closing (α : Type*) (n : ℕ) where
  scheduler : State α n := {}
  destructor : DestructorPc n := .idle

/-- `m_quitting`. -/
def Closing.quitting (s : Closing α n) : Bool := s.destructor ≠ .idle

namespace State

/-- A worker drops its task and moves the next one of the overflow to itself, if there is one. -/
def dropTask (s : State α n) (i : Fin n) : State α n :=
  let s' := { s with finished := s.finished ++ (s.workThreads i).currentTask.toList }
  match s.taskOverflow with
  | task :: rest =>
    { s' with taskOverflow := rest }.setWorker i { s.workThreads i with currentTask := some task }
  | [] => s'.setWorker i { s.workThreads i with currentTask := none }

/-- A worker leaves its loop. -/
def leave (s : State α n) (i : Fin n) : State α n :=
  s.setWorker i { s.workThreads i with running := false, pc := .stopped }

end State

/-- The critical sections once `m_quitting` is set. -/
def stepQuitting (s : State α n) : Act α n → Option (State α n)
  | .runTask function => some (s.runTask function)
  | .enter i => if (s.workThreads i).pc = .starting then some (s.leave i) else none
  | .done i =>
    if (s.workThreads i).pc = .executing then
      some (s.setWorker i { s.workThreads i with pc := .returned })
    else none
  | .takeNext i =>
    if (s.workThreads i).pc = .returned then some ((s.dropTask i).leave i) else none
  | .wake i | .timeOut i =>
    if (s.workThreads i).pc = .waiting then some (s.leave i) else none

inductive ClosingAct (α : Type*) (n : ℕ)
  | scheduler (a : Act α n)
  /-- The destructor sets `m_quitting`. -/
  | quit
  | notify
  /-- `join` returns, or there is nothing to join. -/
  | join
  deriving DecidableEq, Repr

def Closing.step (s : Closing α n) : ClosingAct α n → Option (Closing α n)
  | .scheduler a =>
    if s.quitting then (stepQuitting s.scheduler a).map fun t => { s with scheduler := t }
    else (Scheduler.step s.scheduler a).map fun t => { s with scheduler := t }
  | .quit => if s.quitting then none else some { s with destructor := .notifying 0 }
  | .notify =>
    match s.destructor with
    | .notifying i => if h : i < n then some { s with destructor := .joining ⟨i, h⟩ } else none
    | _ => none
  | .join =>
    match s.destructor with
    | .joining i =>
      if (s.scheduler.workThreads i).pc = .stopped then
        some { s with destructor := .notifying (i + 1) }
      else none
    | _ => none

def closing (α : Type*) (n : ℕ) : Machine (Closing α n) (ClosingAct α n) where
  Init s := s = {}
  step := Closing.step

/-! ## The condition variables -/

/-- The worker that takes the step. -/
def Act.worker : Act α n → Option (Fin n)
  | .runTask _ => none
  | .enter i | .done i | .takeNext i | .wake i | .timeOut i => some i

def ClosingAct.worker : ClosingAct α n → Option (Fin n)
  | .scheduler a => a.worker
  | _ => none

/-- The destructor has not come to the notification of the worker. -/
def DestructorPc.owes (i : Fin n) : DestructorPc n → Bool
  | .idle => false
  | .notifying j => j ≤ i
  | .joining j => j < i

/-- The waits of the workers, each on its own `m_task_assigned`. -/
def workerWaits (α : Type*) (n : ℕ) : Monitor (Closing α n) (ClosingAct α n) (Fin n) (Fin n) where
  waits s i := if (s.scheduler.workThreads i).pc = .waiting then some i else none
  ready i s := s.quitting || (s.scheduler.workThreads i).currentTask.isSome
  thread := ClosingAct.worker
  notifies i s a _ :=
    match a with
    | .scheduler (.runTask _) => s.scheduler.findAvailableThread.1 = some i
    | .notify => s.destructor = .notifying i
    | _ => false
  owes i s := s.destructor.owes i

/-- The scheduler with its destructor and its condition variables. -/
def closingMachine (α : Type*) (n : ℕ) :
    Machine (Monitored (Closing α n) (Fin n) (Fin n)) (MonitorAct (ClosingAct α n) (Fin n) (Fin n)) :=
  (workerWaits α n).layer (closing α n)

/-! ## What the steps do to a worker -/

section

variable {s t : State α n}

theorem takeNext_eq (s : State α n) (i : Fin n) : s.takeNext i = (s.dropTask i).proceed i := by
  unfold State.takeNext State.dropTask
  cases s.taskOverflow <;> rfl

theorem proceed_workThreads_of_ne {i j : Fin n} (hij : i ≠ j) :
    (s.proceed j).workThreads i = s.workThreads i := by
  unfold State.proceed
  split <;> simp [State.setWorker, hij]

theorem dropTask_workThreads_of_ne {i j : Fin n} (hij : i ≠ j) :
    (s.dropTask j).workThreads i = s.workThreads i := by
  unfold State.dropTask
  split <;> simp [State.setWorker, hij]

theorem leave_workThreads_of_ne {i j : Fin n} (hij : i ≠ j) :
    (s.leave j).workThreads i = s.workThreads i := by
  simp [State.leave, State.setWorker, hij]

/-- What a call of `run_task` does to a worker: nothing, or it is given the task while it idles, or it
is started with it. -/
theorem runTask_worker (s : State α n) (function : α) (i : Fin n) :
    (s.runTask function).workThreads i = s.workThreads i ∨
    s.findAvailableThread.1 = some i ∧
      ((s.workThreads i).running = true ∧ (s.runTask function).workThreads i =
          { s.workThreads i with currentTask := some (s.packaged function) } ∨
        (s.workThreads i).running = false ∧ (s.runTask function).workThreads i =
          { running := true, pc := .starting, currentTask := some (s.packaged function) }) := by
  have hfound := found_findAvailableThread s
  generalize heq : s.findAvailableThread = found at hfound
  cases hfound with
  | idle j hrunning =>
    rw [runTask_idle heq]
    by_cases hij : i = j
    · subst hij
      exact .inr ⟨rfl, .inl ⟨hrunning, by simp [State.setWorker]⟩⟩
    · exact .inl (by simp [State.setWorker, hij])
  | stopped j hrunning =>
    rw [runTask_stopped heq]
    by_cases hij : i = j
    · subst hij
      exact .inr ⟨rfl, .inr ⟨hrunning, by simp [State.setWorker]⟩⟩
    · exact .inl (by simp [State.setWorker, hij])
  | full =>
    rw [runTask_full heq]
    exact .inl rfl

/-- What the critical sections do once `m_quitting` is set. -/
inductive QuittingMove (s : State α n) : Act α n → State α n → Prop
  | submit (function : α) : QuittingMove s (.runTask function) (s.runTask function)
  | done {i : Fin n} (hpc : (s.workThreads i).pc = .executing) :
      QuittingMove s (.done i) (s.setWorker i { s.workThreads i with pc := .returned })
  | drop {i : Fin n} (hpc : (s.workThreads i).pc = .returned) :
      QuittingMove s (.takeNext i) ((s.dropTask i).leave i)
  | leave {a : Act α n} {i : Fin n} (ha : a.worker = some i)
      (hpc : (s.workThreads i).pc = .starting ∨ (s.workThreads i).pc = .waiting) :
      QuittingMove s a (s.leave i)

theorem quittingMove_of_step {a : Act α n} (h : stepQuitting s a = some t) : QuittingMove s a t := by
  cases a with
  | runTask function =>
    obtain rfl := Option.some.inj h
    exact .submit function
  | enter i =>
    obtain ⟨hpc, h⟩ := Option.ite_none_right_eq_some.1 h
    obtain rfl := Option.some.inj h
    exact .leave rfl (.inl hpc)
  | done i =>
    obtain ⟨hpc, h⟩ := Option.ite_none_right_eq_some.1 h
    obtain rfl := Option.some.inj h
    exact .done hpc
  | takeNext i =>
    obtain ⟨hpc, h⟩ := Option.ite_none_right_eq_some.1 h
    obtain rfl := Option.some.inj h
    exact .drop hpc
  | wake i | timeOut i =>
    obtain ⟨hpc, h⟩ := Option.ite_none_right_eq_some.1 h
    obtain rfl := Option.some.inj h
    exact .leave rfl (.inr hpc)

theorem QuittingMove.eq_runTask {function : α} (h : QuittingMove s (.runTask function) t) :
    t = s.runTask function := by
  cases h with
  | submit => rfl
  | leave hworker => cases hworker

/-- Once `m_quitting` is set no task is called. -/
theorem QuittingMove.started_eq {a : Act α n} (h : QuittingMove s a t) : t.started = s.started := by
  cases h with
  | submit function =>
    rw [State.runTask]
    split <;> rfl
  | drop =>
    simp only [State.leave, State.setWorker, State.dropTask]
    split <;> rfl
  | done | leave => rfl

/-- A worker's step leaves the other workers alone. -/
theorem step_workThreads_of_ne {a : Act α n} (h : step s a = some t)
    (hrun : ∀ function, a ≠ .runTask function) {i : Fin n} (ha : a.worker ≠ some i) :
    t.workThreads i = s.workThreads i := by
  have hne : ∀ {j}, a.worker = some j → i ≠ j := by
    rintro j hj rfl
    exact ha hj
  cases a with
  | runTask function => exact absurd rfl (hrun function)
  | enter j | wake j =>
    obtain ⟨-, h⟩ := Option.ite_none_right_eq_some.1 h
    obtain rfl := Option.some.inj h
    exact proceed_workThreads_of_ne (hne rfl)
  | done j =>
    obtain ⟨-, h⟩ := Option.ite_none_right_eq_some.1 h
    obtain rfl := Option.some.inj h
    simp [State.setWorker, hne rfl]
  | takeNext j =>
    obtain ⟨-, h⟩ := Option.ite_none_right_eq_some.1 h
    obtain rfl := Option.some.inj h
    rw [takeNext_eq, proceed_workThreads_of_ne (hne rfl), dropTask_workThreads_of_ne (hne rfl)]
  | timeOut j =>
    obtain ⟨-, h⟩ := Option.ite_none_right_eq_some.1 h
    obtain rfl := Option.some.inj h
    rw [State.timeOut]
    split
    · exact proceed_workThreads_of_ne (hne rfl)
    · exact leave_workThreads_of_ne (hne rfl)

theorem QuittingMove.workThreads_of_ne {a : Act α n} (h : QuittingMove s a t)
    (hrun : ∀ function, a ≠ .runTask function) {i : Fin n} (ha : a.worker ≠ some i) :
    t.workThreads i = s.workThreads i := by
  have hne : ∀ {j}, a.worker = some j → i ≠ j := by
    rintro j hj rfl
    exact ha hj
  cases h with
  | submit function => exact absurd rfl (hrun function)
  | done => simp [State.setWorker, hne rfl]
  | drop => rw [leave_workThreads_of_ne (hne rfl), dropTask_workThreads_of_ne (hne rfl)]
  | leave hj => exact leave_workThreads_of_ne (hne hj)

/-! ## A worker that waits is marked as running -/

theorem proceed_running (s : State α n) (i : Fin n) :
    ((s.proceed i).workThreads i).running = (s.workThreads i).running := by
  unfold State.proceed
  split <;> simp [State.setWorker]

theorem dropTask_running (s : State α n) (i : Fin n) :
    ((s.dropTask i).workThreads i).running = (s.workThreads i).running := by
  unfold State.dropTask
  split <;> simp [State.setWorker]

@[simp] theorem leave_pc (s : State α n) (i : Fin n) : ((s.leave i).workThreads i).pc = .stopped := by
  simp [State.leave, State.setWorker]

/-- `m_running` is cleared by a worker that leaves. -/
def State.Marked (s : State α n) : Prop :=
  ∀ i, (s.workThreads i).running = false → (s.workThreads i).pc = .stopped

theorem State.Marked.running (hs : s.Marked) {i : Fin n} (hpc : (s.workThreads i).pc ≠ .stopped) :
    (s.workThreads i).running = true := by
  by_contra hr
  exact hpc (hs i (by simpa using hr))

theorem State.Marked.of_ne (hs : s.Marked) {i : Fin n}
    (hsame : ∀ j, j ≠ i → t.workThreads j = s.workThreads j)
    (hi : (t.workThreads i).running = false → (t.workThreads i).pc = .stopped) : t.Marked := by
  intro j hj
  by_cases hji : j = i
  · subst hji
    exact hi hj
  · rw [hsame j hji] at hj ⊢
    exact hs j hj

theorem State.Marked.runTask (hs : s.Marked) (function : α) : (s.runTask function).Marked := by
  intro i hi
  obtain hsame | ⟨-, ⟨hrunning, hgiven⟩ | ⟨-, hstarted⟩⟩ := runTask_worker s function i
  · rw [hsame] at hi ⊢
    exact hs i hi
  · rw [hgiven] at hi
    exact absurd hi (by simp [hrunning])
  · simp [hstarted] at hi

theorem State.Marked.step {a : Act α n} (hs : s.Marked) (h : step s a = some t) : t.Marked := by
  have hothers : ∀ {i}, a.worker = some i → ∀ j, j ≠ i → t.workThreads j = s.workThreads j := by
    intro i hi j hji
    refine step_workThreads_of_ne h ?_ (by simpa [hi] using Ne.symm hji)
    rintro function rfl
    cases hi
  cases a with
  | runTask function =>
    obtain rfl := Option.some.inj h
    exact hs.runTask function
  | enter i | wake i =>
    refine hs.of_ne (hothers rfl) ?_
    obtain ⟨hpc, h⟩ := Option.ite_none_right_eq_some.1 h
    obtain rfl := Option.some.inj h
    rw [proceed_running, hs.running (by simp [hpc])]
    simp
  | done i =>
    refine hs.of_ne (hothers rfl) ?_
    obtain ⟨hpc, h⟩ := Option.ite_none_right_eq_some.1 h
    obtain rfl := Option.some.inj h
    simp [State.setWorker, hs.running (i := i) (by simp [hpc])]
  | takeNext i =>
    refine hs.of_ne (hothers rfl) ?_
    obtain ⟨hpc, h⟩ := Option.ite_none_right_eq_some.1 h
    obtain rfl := Option.some.inj h
    rw [takeNext_eq, proceed_running, dropTask_running, hs.running (by simp [hpc])]
    simp
  | timeOut i =>
    refine hs.of_ne (hothers rfl) ?_
    obtain ⟨hpc, h⟩ := Option.ite_none_right_eq_some.1 h
    obtain rfl := Option.some.inj h
    rw [State.timeOut]
    split
    · rw [proceed_running, hs.running (by simp [hpc])]
      simp
    · simp [State.setWorker]

theorem State.Marked.quittingMove {a : Act α n} (hs : s.Marked) (h : QuittingMove s a t) :
    t.Marked := by
  have hothers : ∀ {i}, a.worker = some i → ∀ j, j ≠ i → t.workThreads j = s.workThreads j := by
    intro i hi j hji
    refine h.workThreads_of_ne ?_ (by simpa [hi] using Ne.symm hji)
    rintro function rfl
    cases hi
  cases h with
  | submit function => exact hs.runTask function
  | @done i hpc =>
    refine hs.of_ne (hothers rfl) ?_
    simp [State.setWorker, hs.running (i := i) (by simp [hpc])]
  | drop | leave hi => exact hs.of_ne (hothers (by first | rfl | exact hi)) fun _ => leave_pc _ _

end

/-! ## No worker is left asleep -/

section

variable {s t : Closing α n}

/-- What a step does, by kind. -/
theorem closing_step_cases {a : ClosingAct α n} (h : s.step a = some t) :
    (∃ b, a = .scheduler b ∧ t.destructor = s.destructor ∧
      (s.quitting = false ∧ step s.scheduler b = some t.scheduler ∨
        s.quitting = true ∧ QuittingMove s.scheduler b t.scheduler)) ∨
    a = .quit ∧ s.quitting = false ∧ t = { s with destructor := .notifying 0 } ∨
    (∃ i : Fin n, a = .notify ∧ s.destructor = .notifying i ∧
      t = { s with destructor := .joining i }) ∨
    ∃ i : Fin n, a = .join ∧ s.destructor = .joining i ∧
      (s.scheduler.workThreads i).pc = .stopped ∧
      t = { s with destructor := .notifying (i + 1) } := by
  cases a with
  | scheduler b =>
    refine .inl ⟨b, rfl, ?_⟩
    simp only [Closing.step] at h
    split at h
    · rename_i hq
      obtain ⟨u, hu, rfl⟩ := Option.map_eq_some_iff.1 h
      exact ⟨rfl, .inr ⟨hq, quittingMove_of_step hu⟩⟩
    · rename_i hq
      obtain ⟨u, hu, rfl⟩ := Option.map_eq_some_iff.1 h
      exact ⟨rfl, .inl ⟨by simpa using hq, hu⟩⟩
  | quit =>
    simp only [Closing.step] at h
    split at h <;> cases h
    rename_i hq
    exact .inr (.inl ⟨rfl, by simpa using hq, rfl⟩)
  | notify =>
    simp only [Closing.step] at h
    split at h
    · rename_i i hi
      split at h <;> cases h
      rename_i hlt
      exact .inr (.inr (.inl ⟨⟨i, hlt⟩, rfl, hi, rfl⟩))
    · cases h
  | join =>
    simp only [Closing.step] at h
    split at h
    · rename_i i hi
      split at h <;> cases h
      rename_i hpc
      exact .inr (.inr (.inr ⟨i, rfl, hi, hpc, rfl⟩))
    · cases h

theorem marked_closing {a : ClosingAct α n} (hs : s.scheduler.Marked) (h : s.step a = some t) :
    t.scheduler.Marked := by
  obtain ⟨b, -, -, ⟨-, hb⟩ | ⟨-, hb⟩⟩ | ⟨-, -, rfl⟩ | ⟨i, -, -, rfl⟩ | ⟨i, -, -, -, rfl⟩ :=
    closing_step_cases h
  · exact hs.step hb
  · exact hs.quittingMove hb
  all_goals exact hs

/-- What a step that is not its own does to a worker that waits: nothing, or a call of `run_task`
gives it a task. -/
theorem worker_of_waiting {a : ClosingAct α n} {i : Fin n} (hs : s.scheduler.Marked)
    (h : s.step a = some t) (ha : a.worker ≠ some i)
    (hi : (s.scheduler.workThreads i).pc = .waiting) :
    t.scheduler.workThreads i = s.scheduler.workThreads i ∨
    ∃ function, a = .scheduler (.runTask function) ∧
      s.scheduler.findAvailableThread.1 = some i ∧
      (t.scheduler.workThreads i).pc = .waiting := by
  have hsubmit : ∀ function, t.scheduler = s.scheduler.runTask function →
      t.scheduler.workThreads i = s.scheduler.workThreads i ∨
      s.scheduler.findAvailableThread.1 = some i ∧ (t.scheduler.workThreads i).pc = .waiting := by
    intro function ht
    rw [ht]
    refine (runTask_worker s.scheduler function i).imp_right ?_
    rintro ⟨hfound, ⟨-, hgiven⟩ | ⟨hstopped, -⟩⟩
    · exact ⟨hfound, by rw [hgiven]; exact hi⟩
    · simp [hs i hstopped] at hi
  obtain ⟨b, rfl, -, hb⟩ | ⟨-, -, rfl⟩ | ⟨j, -, -, rfl⟩ | ⟨j, -, -, -, rfl⟩ := closing_step_cases h
  · by_cases hrun : ∃ function, b = .runTask function
    · obtain ⟨function, rfl⟩ := hrun
      have ht : t.scheduler = s.scheduler.runTask function := by
        obtain ⟨-, hb⟩ | ⟨-, hb⟩ := hb
        · exact (Option.some.inj hb).symm
        · exact hb.eq_runTask
      exact (hsubmit function ht).imp_right fun hgiven => ⟨function, rfl, hgiven⟩
    · have hrun' : ∀ function, b ≠ .runTask function := fun function hf => hrun ⟨function, hf⟩
      obtain ⟨-, hb⟩ | ⟨-, hb⟩ := hb
      · exact .inl (step_workThreads_of_ne hb hrun' ha)
      · exact .inl (hb.workThreads_of_ne hrun' ha)
  all_goals exact .inl rfl

theorem workerWaits_eq_some {s : Closing α n} {i k : Fin n} :
    (workerWaits α n).waits s i = some k ↔ (s.scheduler.workThreads i).pc = .waiting ∧ i = k := by
  simp [workerWaits]

theorem workerWaits_disciplined (α : Type*) (n : ℕ) :
    (workerWaits α n).Disciplined (closing α n) (fun s => s.scheduler.Marked) where
  keeps hs h := marked_closing hs h
  stays {s t a i k} hs h ha hk := by
    obtain ⟨hpc, hik⟩ := workerWaits_eq_some.1 hk
    refine workerWaits_eq_some.2 ⟨?_, hik⟩
    obtain hsame | ⟨_, -, -, hpc'⟩ := worker_of_waiting hs h ha hpc
    · rw [hsame, hpc]
    · exact hpc'
  notifies {s t a i k} hs h ha hk hbefore hready := by
    obtain ⟨hpc, rfl⟩ := workerWaits_eq_some.1 hk
    obtain hsame | ⟨function, rfl, hfound, -⟩ := worker_of_waiting hs h ha hpc
    · obtain ⟨b, rfl, hdestructor, -⟩ | ⟨-, -, rfl⟩ | ⟨j, rfl, hj, rfl⟩ | ⟨j, rfl, hj, -, rfl⟩ :=
        closing_step_cases h
      · have hquitting : t.quitting = s.quitting := by simp [Closing.quitting, hdestructor]
        have hready' : (workerWaits α n).ready i s = true := by
          simpa [workerWaits, hquitting, hsame] using hready
        refine .inr ?_
        simpa [workerWaits, hdestructor] using hbefore.resolve_left (by simp [hready'])
      · exact .inr (by simp [workerWaits, DestructorPc.owes])
      · have hready' : (workerWaits α n).ready i s = true := by
          simp [workerWaits, Closing.quitting, hj]
        have howes : (j : ℕ) ≤ i := by
          simpa [workerWaits, hj, DestructorPc.owes] using hbefore.resolve_left (by simp [hready'])
        rcases Nat.eq_or_lt_of_le howes with heq | hlt
        · exact .inl (by simp [workerWaits, hj, heq])
        · exact .inr (by simpa [workerWaits, DestructorPc.owes] using hlt)
      · have hready' : (workerWaits α n).ready i s = true := by
          simp [workerWaits, Closing.quitting, hj]
        have howes : j < i := by
          simpa [workerWaits, hj, DestructorPc.owes] using hbefore.resolve_left (by simp [hready'])
        have hnext : (j : ℕ) + 1 ≤ i := howes
        exact .inr (by simpa [workerWaits, DestructorPc.owes] using hnext)
    · exact .inl (by simpa [workerWaits] using hfound)

end

/-! ## What becomes of the tasks -/

section

variable {s t : State α n}

/-- A worker drops its task and leaves: the next one of the overflow stays with it. -/
theorem dropTask_leave_eq (s : State α n) (i : Fin n) : ∃ next rest,
    s.taskOverflow = Option.toList next ++ rest ∧
      (s.dropTask i).leave i = { s.setWorker i ⟨false, next, .stopped⟩ with
        taskOverflow := rest
        finished := s.finished ++ (s.workThreads i).currentTask.toList } := by
  cases h : s.taskOverflow with
  | nil => exact ⟨none, [], rfl, by simp [State.dropTask, State.leave, State.setWorker, h]⟩
  | cons task rest =>
    exact ⟨some task, rest, rfl, by simp [State.dropTask, State.leave, State.setWorker, h]⟩

/-- The tasks that were given to the scheduler and are neither running nor finished. -/
def State.abandoned (s : State α n) : Multiset (PackagedTask α) := s.ledger.waiting

/-- The tasks that are lost, returned or still running are those that were submitted, and those that
have returned or are running are those that were called. -/
structure State.Accounted (s : State α n) : Prop where
  all : s.ledger.waiting + s.ledger.out + (s.finished : Multiset (PackagedTask α)) = s.submitted
  log : (s.started : Multiset (PackagedTask α)) = s.ledger.out + s.finished

theorem State.Accounted.of_inv [DecidableEq α] (h : Inv s) : s.Accounted := ⟨h.kept.all_eq, h.log⟩

theorem QuittingMove.accounted {a : Act α n} (h : QuittingMove s a t)
    (hrun : ∀ function, a ≠ .runTask function) (hs : s.Accounted) : t.Accounted := by
  have hsame : ∀ {i : Fin n} {w : WorkThread α}, w.currentTask = (s.workThreads i).currentTask →
      w.pc.hasCalled = (s.workThreads i).pc.hasCalled → (s.setWorker i w).Accounted := by
    intro i w htask hpc
    have hledger : (s.setWorker i w).ledger = s.ledger := by
      refine ledger_setWorker ?_ ?_
      · simp only [WorkThread.assigned, htask, hpc]
      · simp only [WorkThread.called, htask, hpc]
    exact ⟨by rw [hledger]; exact hs.all, by rw [hledger]; exact hs.log⟩
  cases h with
  | submit function => exact absurd rfl (hrun function)
  | done hpc => exact hsame rfl (by simp [hpc, WorkerPc.hasCalled])
  | leave ha hpc => exact hsame rfl (by rcases hpc with hpc | hpc <;> simp [hpc, WorkerPc.hasCalled])
  | @drop i hpc =>
    obtain ⟨next, rest, hrest, heq⟩ := dropTask_leave_eq s i
    rw [heq]
    have hold : (s.workThreads i).assigned = 0 ∧
        (s.workThreads i).called = (s.workThreads i).currentTask.toList := by
      simp [WorkThread.assigned, WorkThread.called, hpc, WorkerPc.hasCalled]
    have hnew : (⟨false, next, .stopped⟩ : WorkThread α).assigned = Option.toList next ∧
        (⟨false, next, .stopped⟩ : WorkThread α).called = 0 := by
      simp [WorkThread.assigned, WorkThread.called, WorkerPc.hasCalled]
    have hassigned := sum_update WorkThread.assigned s.workThreads i ⟨false, next, .stopped⟩
    have hcalled := sum_update WorkThread.called s.workThreads i ⟨false, next, .stopped⟩
    rw [hold.1, hnew.1, zero_add] at hassigned
    rw [hold.2, hnew.2, zero_add] at hcalled
    have hall := hs.all
    have hlog := hs.log
    simp only [State.ledger, hrest, ← hcalled, ← Multiset.coe_add] at hall hlog
    constructor
    · simp only [State.ledger, State.setWorker, hassigned, ← Multiset.coe_add, ← hall]
      ac_rfl
    · simp only [State.ledger, State.setWorker, ← Multiset.coe_add, hlog]
      ac_rfl

end

/-! ## The destructor returns -/

/-- Nobody hands a task to the scheduler while it is being destroyed. -/
def NoLateTask (s : Monitored (Closing α n) (Fin n) (Fin n)) :
    MonitorAct (ClosingAct α n) (Fin n) (Fin n) → Prop
  | .act (.scheduler (.runTask _)) => s.base.quitting = false
  | _ => True

instance (s : Monitored (Closing α n) (Fin n) (Fin n))
    (a : MonitorAct (ClosingAct α n) (Fin n) (Fin n)) : Decidable (NoLateTask s a) := by
  unfold NoLateTask
  split <;> infer_instance

/-- The destructor has joined the worker. -/
def DestructorPc.passed (i : Fin n) : DestructorPc n → Bool
  | .idle => false
  | .notifying j => i < j
  | .joining j => i < j

/-- Once `m_quitting` is set a worker that has left its loop stays there. -/
theorem stopped_of_quittingMove {s t : State α n} {a : Act α n} (h : QuittingMove s a t)
    (hrun : ∀ function, a ≠ .runTask function) {i : Fin n} (hi : (s.workThreads i).pc = .stopped) :
    (t.workThreads i).pc = .stopped := by
  by_cases ha : a.worker = some i
  · cases h with
    | submit function => exact absurd rfl (hrun function)
    | done hpc | drop hpc =>
      obtain rfl := Option.some.inj ha
      simp [hi] at hpc
    | leave ha' =>
      obtain rfl := Option.some.inj (ha'.symm.trans ha)
      exact leave_pc s _
  · rw [h.workThreads_of_ne hrun ha, hi]

namespace Closing

variable [DecidableEq α] {s t : Closing α n}

structure Inv (s : Closing α n) : Prop where
  before : s.quitting = false → Scheduler.Inv s.scheduler
  accounted : s.scheduler.Accounted
  bounded : ∀ j, s.destructor = .notifying j → j ≤ n
  joined : ∀ i, s.destructor.passed i = true → (s.scheduler.workThreads i).pc = .stopped

theorem inv_start : Inv ({} : Closing α n) :=
  ⟨fun _ => inv_init, .of_inv inv_init, nofun, nofun⟩

theorem Inv.step {a : ClosingAct α n} (hs : s.Inv) (h : s.step a = some t)
    (hlate : s.quitting = true → ∀ function, a ≠ .scheduler (.runTask function)) : t.Inv := by
  obtain ⟨b, rfl, hdestructor, ⟨hq, hb⟩ | ⟨hq, hb⟩⟩ | ⟨-, -, rfl⟩ | ⟨i, -, hi, rfl⟩ |
    ⟨i, -, hi, hpc, rfl⟩ := closing_step_cases h
  · have hinv := inv_step (hs.before hq) hb
    have hidle : s.destructor = .idle := by simpa [quitting] using hq
    refine ⟨fun _ => hinv, .of_inv hinv, ?_, ?_⟩ <;> rw [hdestructor, hidle] <;> simp [DestructorPc.passed]
  · have hrun : ∀ function, b ≠ .runTask function := by
      rintro function rfl
      exact hlate hq function rfl
    refine ⟨fun hq' => ?_, hb.accounted hrun hs.accounted, ?_, ?_⟩
    · rw [quitting, hdestructor] at hq'
      rw [quitting] at hq
      simp [hq] at hq'
    · rw [hdestructor]
      exact hs.bounded
    · rw [hdestructor]
      exact fun i hi => stopped_of_quittingMove hb hrun (hs.joined i hi)
  · exact ⟨by simp [quitting], hs.accounted, by simp, by simp [DestructorPc.passed]⟩
  · refine ⟨by simp [quitting], hs.accounted, by simp, fun j hj => hs.joined j ?_⟩
    simpa [hi, DestructorPc.passed] using hj
  · refine ⟨by simp [quitting], hs.accounted, ?_, fun j hj => ?_⟩
    · rintro j hj
      obtain rfl := DestructorPc.notifying.inj hj
      exact i.isLt
    · have hle : j ≤ i := Nat.le_of_lt_succ (by simpa [DestructorPc.passed] using hj)
      rcases hle.eq_or_lt with rfl | hlt
      · exact hpc
      · exact hs.joined j (by simpa [hi, DestructorPc.passed] using hlt)

end Closing

/-- How many steps a worker is from leaving, at most. -/
def WorkerPc.weight : WorkerPc → ℕ
  | .stopped => 0
  | .starting | .waiting | .returned => 1
  | .executing => 2

/-- How far the destructor is from returning; a notification wakes a worker up in a step of its own. -/
def DestructorPc.weight : DestructorPc n → ℕ
  | .idle => 0
  | .notifying i => 3 * (n - i)
  | .joining i => 3 * (n - i) - 2

/-- A bound on the steps that are left once `m_quitting` is set. -/
def stepsLeft (s : Monitored (Closing α n) (Fin n) (Fin n)) : ℕ :=
  ∑ i, ((s.base.scheduler.workThreads i).pc.weight + (s.asleep i).toNat + s.due i) +
    s.base.destructor.weight

section

variable {s t : Monitored (Closing α n) (Fin n) (Fin n)}

theorem stepsLeft_lt_of_worker {i : Fin n}
    (hother : ∀ j, j ≠ i →
      t.base.scheduler.workThreads j = s.base.scheduler.workThreads j ∧ t.due j = s.due j)
    (hle : ∀ j, (t.asleep j).toNat ≤ (s.asleep j).toNat)
    (hlt : (t.base.scheduler.workThreads i).pc.weight + (t.asleep i).toNat + t.due i <
      (s.base.scheduler.workThreads i).pc.weight + (s.asleep i).toNat + s.due i)
    (hdestructor : t.base.destructor = s.base.destructor) : stepsLeft t < stepsLeft s := by
  unfold stepsLeft
  rw [hdestructor]
  refine Nat.add_lt_add_right (Finset.sum_lt_sum (fun j _ => ?_) ⟨i, Finset.mem_univ i, hlt⟩) _
  by_cases hji : j = i
  · subst hji
    exact hlt.le
  · rw [(hother j hji).1, (hother j hji).2]
    have := hle j
    omega

/-- A worker that moves is closer to its end. -/
theorem weight_lt_of_quittingMove {s t : State α n} {a : Act α n} (h : QuittingMove s a t)
    {i : Fin n} (ha : a.worker = some i) :
    (t.workThreads i).pc.weight < (s.workThreads i).pc.weight := by
  cases h with
  | submit => cases ha
  | done hpc =>
    obtain rfl := Option.some.inj ha
    simp [State.setWorker, hpc, WorkerPc.weight]
  | drop hpc =>
    obtain rfl := Option.some.inj ha
    simp [hpc, WorkerPc.weight]
  | leave ha' hpc =>
    obtain rfl := Option.some.inj (ha'.symm.trans ha)
    rcases hpc with hpc | hpc <;> simp [hpc, WorkerPc.weight]

/-- Every step after `m_quitting` is set lowers `stepsLeft`. -/
theorem stepsLeft_lt_of_step {a : MonitorAct (ClosingAct α n) (Fin n) (Fin n)}
    (hq : s.base.quitting = true) (hlate : NoLateTask s a)
    (h : (closingMachine α n).step s a = some t) :
    t.base.quitting = true ∧ stepsLeft t < stepsLeft s := by
  cases a with
  | act a =>
    simp only [closingMachine, Monitor.layer, Monitor.step] at h
    split at h
    · cases h
    · obtain ⟨u, hu, rfl⟩ := Option.map_eq_some_iff.1 h
      obtain ⟨b, rfl, hdestructor, ⟨hq', -⟩ | ⟨-, hb⟩⟩ | ⟨-, hq', -⟩ | ⟨i, rfl, hi, rfl⟩ |
        ⟨i, rfl, hi, hpc, rfl⟩ := closing_step_cases hu
      · simp [hq] at hq'
      · have hrun : ∀ function, b ≠ .runTask function := by
          rintro function rfl
          have : s.base.quitting = false := hlate
          simp [hq] at this
        have hworker : ∃ i, b.worker = some i := by
          cases b with
          | runTask function => exact absurd rfl (hrun function)
          | _ => exact ⟨_, rfl⟩
        have hnone : ∀ k, (workerWaits α n).notifies k s.base (.scheduler b) u = false := by
          intro k
          cases b with
          | runTask function => exact absurd rfl (hrun function)
          | _ => rfl
        obtain ⟨i, hi⟩ := hworker
        refine ⟨by simpa [Closing.quitting, hdestructor] using hq, ?_⟩
        refine stepsLeft_lt_of_worker (i := i) (fun j hj => ?_) (fun j => Nat.le_refl _) ?_ hdestructor
        · refine ⟨hb.workThreads_of_ne hrun ?_, by simp [hnone]⟩
          rw [hi]
          exact fun hij => hj (Option.some.inj hij).symm
        · have hlt := weight_lt_of_quittingMove hb hi
          simp only [hnone, Bool.false_eq_true, if_false]
          omega
      · simp [hq] at hq'
      · refine ⟨by simp [Closing.quitting], ?_⟩
        have hlt := i.isLt
        have hone : ∑ k : Fin n, (if (workerWaits α n).notifies k s.base .notify
            { s.base with destructor := .joining i } then 1 else 0) = 1 := by
          simp [workerWaits, hi, Fin.val_inj]
        simp only [stepsLeft, hi, DestructorPc.weight, Finset.sum_add_distrib, hone]
        omega
      · refine ⟨by simp [Closing.quitting], ?_⟩
        have hlt := i.isLt
        simp only [stepsLeft, hi, DestructorPc.weight, workerWaits, Bool.false_eq_true, if_false,
          Nat.add_zero]
        omega
  | sleep i =>
    -- the predicate of every worker is true
    simp only [closingMachine, Monitor.layer, Monitor.step] at h
    split at h
    · simp [workerWaits, hq] at h
    · cases h
  | notify k =>
    simp only [closingMachine, Monitor.layer, Monitor.step] at h
    split at h <;> cases h
    rename_i hdue
    have hle : ∀ j, (s.asleep j && (workerWaits α n).waits s.base j != some k).toNat ≤
        (s.asleep j).toNat := by
      intro j
      cases s.asleep j <;> simp [Bool.toNat_le]
    refine ⟨hq, stepsLeft_lt_of_worker (i := k) (fun j hj => ⟨rfl, by simp [hj]⟩) hle ?_ rfl⟩
    have hlek := hle k
    simp only [Function.update_self]
    omega
  | wake i =>
    simp only [closingMachine, Monitor.layer, Monitor.step] at h
    split at h <;> cases h
    rename_i hasleep
    refine ⟨hq, stepsLeft_lt_of_worker (i := i) (fun j hj => ⟨rfl, rfl⟩) (fun j => ?_) ?_ rfl⟩
    · by_cases hji : j = i <;> simp [hji]
    · simp [hasleep]

/-- A step of the machine below, by a worker that does not sleep or by nobody's. -/
theorem exists_step_act {a : ClosingAct α n} {u : Closing α n} (h : s.base.step a = some u)
    (hawake : ∀ i, a.worker = some i → s.asleep i = false)
    (hrun : ∀ function, a ≠ .scheduler (.runTask function)) :
    ∃ a t, (closingMachine α n).step s a = some t ∧ NoLateTask s a := by
  obtain ⟨t, ht, -⟩ := Monitor.exists_act (W := workerWaits α n) (M := closing α n) h hawake
  refine ⟨.act a, t, ht, ?_⟩
  cases a with
  | scheduler b =>
    cases b with
    | runTask function => exact absurd rfl (hrun function)
    | _ => trivial
  | _ => trivial

/-- Until the destructor has returned, there is a step to take. -/
theorem exists_step [DecidableEq α] (hs : s.base.Inv) (hawake : (workerWaits α n).Awake s)
    (hq : s.base.quitting = true) (hreturned : s.base.destructor ≠ .notifying n) :
    ∃ a t, (closingMachine α n).step s a = some t ∧ NoLateTask s a := by
  cases hd : s.base.destructor with
  | idle => simp [Closing.quitting, hd] at hq
  | notifying j =>
    have hlt : j < n := by
      refine Nat.lt_of_le_of_ne (hs.bounded j hd) ?_
      rintro rfl
      exact hreturned hd
    have hstep : s.base.step .notify = some { s.base with destructor := .joining ⟨j, hlt⟩ } := by
      simp [Closing.step, hd, hlt]
    exact exists_step_act hstep (by simp [ClosingAct.worker]) (by simp)
  | joining i =>
    -- a worker sleeps in `wait_for` only
    have hup : (s.base.scheduler.workThreads i).pc ≠ .waiting → s.asleep i = false := by
      intro hne
      by_contra hasleep
      obtain ⟨k, hk, -⟩ := hawake i (by simpa using hasleep)
      exact hne (workerWaits_eq_some.1 hk).1
    have hworker : ∀ {b u}, stepQuitting s.base.scheduler b = some u → b.worker = some i →
        s.asleep i = false → ∃ a t, (closingMachine α n).step s a = some t ∧ NoLateTask s a := by
      intro b u hb hbi hi
      have hstep : s.base.step (.scheduler b) = some { s.base with scheduler := u } := by
        simp [Closing.step, hq, hb]
      refine exists_step_act hstep (fun j hj => ?_) ?_
      · obtain rfl := Option.some.inj (hbi.symm.trans hj)
        exact hi
      · rintro function heq
        obtain rfl := ClosingAct.scheduler.inj heq
        cases hbi
    cases hpc : (s.base.scheduler.workThreads i).pc with
    | stopped =>
      have hstep : s.base.step .join = some { s.base with destructor := .notifying (i + 1) } := by
        simp [Closing.step, hd, hpc]
      exact exists_step_act hstep (by simp [ClosingAct.worker]) (by simp)
    | starting => exact hworker (b := .enter i) (if_pos hpc) rfl (hup (by simp [hpc]))
    | executing => exact hworker (b := .done i) (if_pos hpc) rfl (hup (by simp [hpc]))
    | returned => exact hworker (b := .takeNext i) (if_pos hpc) rfl (hup (by simp [hpc]))
    | waiting =>
      cases hasleep : s.asleep i with
      | false => exact hworker (b := .wake i) (if_pos hpc) rfl hasleep
      | true =>
        obtain ⟨t, ht, -⟩ := hawake.exists_notify (M := closing α n) hasleep
          (workerWaits_eq_some.2 ⟨hpc, rfl⟩) (by simp [workerWaits, hq])
          (by simp [workerWaits, hd, DestructorPc.owes])
        exact ⟨.notify i, t, ht, trivial⟩

theorem inv_closing_run [DecidableEq α] {as : List (MonitorAct (ClosingAct α n) (Fin n) (Fin n))}
    (hs : s.base.Inv) (hok : (closingMachine α n).Along NoLateTask s as)
    (h : (closingMachine α n).run s as = some t) : t.base.Inv := by
  refine Machine.run_invariant (P := fun s => s.base.Inv) (fun {s a t} hs hlate hstep => ?_) hs hok h
  have hbase := Monitor.step_base hstep
  cases a with
  | act a =>
    obtain ⟨u, hu, hrest⟩ := Machine.run_cons.1 hbase
    obtain rfl := Option.some.inj hrest
    refine hs.step hu fun hq function heq => ?_
    subst heq
    have hearly : s.base.quitting = false := hlate
    simp [hq] at hearly
  | sleep | notify | wake =>
    have hsame : s.base = t.base := Option.some.inj hbase
    exact hsame ▸ hs

theorem quitting_of_step {a : MonitorAct (ClosingAct α n) (Fin n) (Fin n)}
    (hq : s.base.quitting = true) (h : (closingMachine α n).step s a = some t) :
    t.base.quitting = true ∧ t.base.scheduler.started = s.base.scheduler.started := by
  have hbase := Monitor.step_base h
  cases a with
  | act a =>
    obtain ⟨u, hu, hrest⟩ := Machine.run_cons.1 hbase
    obtain rfl := Option.some.inj hrest
    obtain ⟨b, -, hdestructor, ⟨hq', -⟩ | ⟨-, hb⟩⟩ | ⟨-, hq', -⟩ | ⟨i, -, -, heq⟩ |
      ⟨i, -, -, -, heq⟩ := closing_step_cases hu
    · simp [hq] at hq'
    · exact ⟨by simpa [Closing.quitting, hdestructor] using hq, hb.started_eq⟩
    · simp [hq] at hq'
    all_goals
      rw [heq]
      exact ⟨by simp [Closing.quitting], rfl⟩
  | sleep | notify | wake =>
    have hsame : s.base = t.base := Option.some.inj hbase
    rw [← hsame]
    exact ⟨hq, rfl⟩

/-- When every worker has left, no task is running. -/
theorem out_eq_zero {s : State α n} (h : ∀ i, (s.workThreads i).pc = .stopped) :
    s.ledger.out = 0 := by
  show ∑ i, (s.workThreads i).called = 0
  exact Finset.sum_eq_zero fun i _ => by simp [WorkThread.called, h i, WorkerPc.hasCalled]

/-- **The destructor returns, and no task is called once it has begun.** A worker that sleeps in
`wait_for` while it has a task, or while `m_quitting` is set, is about to be notified. From the moment
`m_quitting` is set the steps that are left are bounded, none of them calls a task, and there is a
next one until the destructor has returned. Then every worker has left its loop, the tasks that were
called have all returned, and the other ones that were submitted are lost. -/
theorem destructor_returns [DecidableEq α] (as : List (MonitorAct (ClosingAct α n) (Fin n) (Fin n)))
    (h : (closingMachine α n).run (.start {}) as = some s)
    (hok : (closingMachine α n).Along NoLateTask (.start {}) as) :
    (∀ i, s.asleep i = true → (s.base.scheduler.workThreads i).pc = .waiting ∧
      ((s.base.scheduler.workThreads i).currentTask ≠ none ∨ s.base.quitting = true →
        0 < s.due i ∨ s.base.destructor.owes i = true)) ∧
    (s.base.quitting = true →
      (∀ bs t, (closingMachine α n).run s bs = some t → (closingMachine α n).Along NoLateTask s bs →
        bs.length ≤ stepsLeft s ∧ t.base.scheduler.started = s.base.scheduler.started) ∧
      (s.base.destructor ≠ .notifying n →
        ∃ a t, (closingMachine α n).step s a = some t ∧ NoLateTask s a) ∧
      (s.base.destructor = .notifying n →
        (∀ i, (s.base.scheduler.workThreads i).pc = .stopped) ∧
        s.base.scheduler.started.Perm s.base.scheduler.finished ∧
        (s.base.scheduler.submitted : Multiset (PackagedTask α)) =
          s.base.scheduler.finished + s.base.scheduler.abandoned)) := by
  have hmarked : ({} : State α n).Marked := fun _ _ => rfl
  obtain ⟨-, hawake⟩ := Monitor.awake_run (workerWaits_disciplined α n) hmarked h
  have hinv : s.base.Inv := inv_closing_run Closing.inv_start hok h
  refine ⟨fun i hi => ?_, fun hq => ⟨fun bs t ht hlate => ?_, ?_, fun hreturned => ?_⟩⟩
  · obtain ⟨k, hk, hdue⟩ := hawake i hi
    obtain ⟨hpc, rfl⟩ := workerWaits_eq_some.1 hk
    refine ⟨hpc, fun hready => hdue ?_⟩
    rw [Option.ne_none_iff_isSome] at hready
    simpa [workerWaits, or_comm] using hready
  · have hlength := Machine.run_length_le (P := fun s => s.base.quitting = true) (μ := stepsLeft)
      (fun hq hlate hstep => stepsLeft_lt_of_step hq hlate hstep) hq hlate ht
    have hstarted := Machine.run_keeps (P := fun u => u.base.quitting = true ∧
        u.base.scheduler.started = s.base.scheduler.started)
      (fun hu hstep => ⟨(quitting_of_step hu.1 hstep).1, (quitting_of_step hu.1 hstep).2.trans hu.2⟩)
      ⟨hq, rfl⟩ ht
    exact ⟨by omega, hstarted.2⟩
  · exact exists_step hinv hawake hq
  · have hstopped : ∀ i, (s.base.scheduler.workThreads i).pc = .stopped := fun i =>
      hinv.joined i (by simp [hreturned, DestructorPc.passed])
    have hout := out_eq_zero hstopped
    refine ⟨hstopped, ?_, ?_⟩
    · rw [← Multiset.coe_eq_coe, hinv.accounted.log, hout, zero_add]
    · rw [← hinv.accounted.all, hout, add_zero, add_comm]
      rfl

end

/-- One worker is in a task when the destructor begins, and another task is in the overflow: the worker
moves it to itself and leaves. -/
def lostTask : List (MonitorAct (ClosingAct Bool 1) (Fin 1) (Fin 1)) :=
  [.act (.scheduler (.runTask true)), .act (.scheduler (.enter ⟨0, Nat.one_pos⟩)),
    .act (.scheduler (.runTask false)), .act .quit, .act .notify,
    .act (.scheduler (.done ⟨0, Nat.one_pos⟩)), .act (.scheduler (.takeNext ⟨0, Nat.one_pos⟩)),
    .act .join]

theorem destructor_returns_lostTask :
    ∃ s, (closingMachine Bool 1).run (.start {}) lostTask = some s ∧
      s.base.scheduler.started = [⟨0, true⟩] ∧
      s.base.scheduler.started.Perm s.base.scheduler.finished := by
  obtain ⟨s, hs, hstarted, hquitting, hdestructor⟩ : ∃ s,
      (closingMachine Bool 1).run (.start {}) lostTask = some s ∧
      s.base.scheduler.started = [⟨0, true⟩] ∧ s.base.quitting = true ∧
      s.base.destructor = .notifying 1 := ⟨_, rfl, rfl, rfl, rfl⟩
  have hok : (closingMachine Bool 1).Along NoLateTask (.start {}) lostTask :=
    Machine.along_of_check (by decide)
  obtain ⟨-, hend⟩ := destructor_returns lostTask hs hok
  obtain ⟨-, -, hreturned⟩ := hend hquitting
  exact ⟨s, hs, hstarted, (hreturned hdestructor).2.1⟩

end Hareflow.Scheduler
