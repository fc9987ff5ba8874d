import Hareflow.Foundations.Ledger
import Hareflow.Foundations.Machine
import Mathlib.Data.Fintype.Basic
import Mathlib.Data.List.FinRange

/-!
# The background scheduler

`BackgroundScheduler` runs tasks on at most `n` threads. `run_task` hands a task to a worker that
idles, or starts a stopped one, or queues the task in the overflow; a worker that is done with its
task takes the next one from the overflow, and one that has idled too long stops. Everything but the
tasks themselves happens under one mutex, so that the steps are the critical sections: the calls of
`run_task`, and for a worker its first one, the one after its task, and the ones in `wait_for`. This
is the scheduler before its destructor sets `m_quitting`.

* `Found` is what `find_available_thread` promises.
* `State.ledger` is the scheduler as a ledger: tasks wait in the overflow or with a worker that has
  not called them yet, are taken out when they are called, and are finished when the worker drops
  them. `Inv.kept` says that the ledger is kept.
* `Inv.busy` says that the overflow is used only when every worker has a task.
-/

namespace Hareflow.Scheduler

open Foundations

variable {α : Type*} {n : ℕ}

/-- A `std::packaged_task`, with the number of the call of `run_task` that made it. -/
structure PackagedTask (α : Type*) where
  number : ℕ
  function : α
  deriving DecidableEq, Repr

/-- Where a work thread is. -/
inductive WorkerPc
  /-- There is no thread, or it has left its loop. -/
  | stopped
  /-- Started, before it takes the mutex. -/
  | starting
  /-- In its current task, without the mutex. -/
  | executing
  /-- The task is done, returned or thrown into its future; before it takes the mutex again. -/
  | returned
  /-- In `wait_for`. -/
  | waiting
  deriving DecidableEq, Repr

/-- The worker has called its current task. -/
def WorkerPc.hasCalled : WorkerPc → Bool
  | executing | returned => true
  | _ => false

/-- `BackgroundScheduler::WorkThread`. -/
structure WorkThread (α : Type*) where
  running : Bool := false
  currentTask : Option (PackagedTask α) := none
  pc : WorkerPc := .stopped

/-- The state of a scheduler with `n` workers, and the records of what happened to the tasks. -/
structure State (α : Type*) (n : ℕ) where
  workThreads : Fin n → WorkThread α := fun _ => {}
  taskOverflow : List (PackagedTask α) := []
  /-- The tasks of all calls of `run_task`. -/
  submitted : List (PackagedTask α) := []
  /-- Those that were put into the overflow. -/
  overflowed : List (PackagedTask α) := []
  /-- The tasks that workers have called. -/
  started : List (PackagedTask α) := []
  /-- The tasks that workers have called and dropped. -/
  finished : List (PackagedTask α) := []

namespace State

def setWorker (s : State α n) (i : Fin n) (w : WorkThread α) : State α n :=
  { s with workThreads := Function.update s.workThreads i w }

/-- The loop of `find_available_thread` over the workers that are left. -/
def findFrom (s : State α n) : List (Fin n) → Option (Fin n) → Option (Fin n) × Bool
  | [], firstStopped => (firstStopped, false)
  | i :: is, firstStopped =>
    if (s.workThreads i).running = true ∧ (s.workThreads i).currentTask.isNone then (some i, true)
    else if (s.workThreads i).running = false ∧ firstStopped.isNone then s.findFrom is (some i)
    else s.findFrom is firstStopped

def findAvailableThread (s : State α n) : Option (Fin n) × Bool :=
  s.findFrom (List.finRange n) none

def startThread (s : State α n) (i : Fin n) : State α n :=
  s.setWorker i { s.workThreads i with running := true, pc := .starting }

def assignTask (s : State α n) (i : Fin n) (task : PackagedTask α) : State α n :=
  s.setWorker i { s.workThreads i with currentTask := some task }

/-- The task that the next call of `run_task` makes. -/
def packaged (s : State α n) (function : α) : PackagedTask α := ⟨s.submitted.length, function⟩

def runTask (s : State α n) (function : α) : State α n :=
  let task := s.packaged function
  let s' := { s with submitted := s.submitted ++ [task] }
  match s.findAvailableThread with
  | (some i, true) => s'.assignTask i task
  | (some i, false) => (s'.startThread i).assignTask i task
  | (none, _) =>
    { s' with taskOverflow := s.taskOverflow ++ [task], overflowed := s.overflowed ++ [task] }

/-- With the mutex held and the predicate of `wait_for` about to be evaluated: a worker that has a
task calls it, one that has none waits. -/
def proceed (s : State α n) (i : Fin n) : State α n :=
  match (s.workThreads i).currentTask with
  | some task =>
    { s.setWorker i { s.workThreads i with pc := .executing } with started := s.started ++ [task] }
  | none => s.setWorker i { s.workThreads i with pc := .waiting }

/-- A worker takes the mutex after its task: it takes the next one from the overflow, if any. -/
def takeNext (s : State α n) (i : Fin n) : State α n :=
  let s' := { s with finished := s.finished ++ (s.workThreads i).currentTask.toList }
  match s.taskOverflow with
  | task :: rest =>
    ({ s' with taskOverflow := rest }.setWorker i
      { s.workThreads i with currentTask := some task }).proceed i
  | [] => (s'.setWorker i { s.workThreads i with currentTask := none }).proceed i

/-- `wait_for` times out: the predicate decides once more, and a worker without a task stops. -/
def timeOut (s : State α n) (i : Fin n) : State α n :=
  match (s.workThreads i).currentTask with
  | some _ => s.proceed i
  | none => s.setWorker i { s.workThreads i with running := false, pc := .stopped }

end State

inductive Act (α : Type*) (n : ℕ)
  | runTask (function : α)
  /-- A worker that was started takes the mutex. -/
  | enter (i : Fin n)
  /-- The task of a worker returns, or throws into its future. -/
  | done (i : Fin n)
  /-- A worker takes the mutex after its task. -/
  | takeNext (i : Fin n)
  /-- A worker wakes up in `wait_for`, notified or not. -/
  | wake (i : Fin n)
  /-- The idle time of a worker is over. -/
  | timeOut (i : Fin n)
  deriving DecidableEq, Repr

def step (s : State α n) : Act α n → Option (State α n)
  | .runTask function => some (s.runTask function)
  | .enter i => if (s.workThreads i).pc = .starting then some (s.proceed i) else none
  | .done i =>
    if (s.workThreads i).pc = .executing then
      some (s.setWorker i { s.workThreads i with pc := .returned })
    else none
  | .takeNext i => if (s.workThreads i).pc = .returned then some (s.takeNext i) else none
  | .wake i => if (s.workThreads i).pc = .waiting then some (s.proceed i) else none
  | .timeOut i => if (s.workThreads i).pc = .waiting then some (s.timeOut i) else none

def machine (α : Type*) (n : ℕ) : Machine (State α n) (Act α n) where
  Init s := s = {}
  step := step

/-! ## The search for a worker -/

/-- What `find_available_thread` returns: a running worker without a task, or a stopped worker, or
nothing, and then every worker is running with a task. -/
inductive Found (s : State α n) : Option (Fin n) × Bool → Prop
  | idle (i : Fin n) (hrunning : (s.workThreads i).running = true)
    (htask : (s.workThreads i).currentTask = none) : Found s (some i, true)
  | stopped (i : Fin n) (hrunning : (s.workThreads i).running = false) : Found s (some i, false)
  | full (h : ∀ i, (s.workThreads i).running = true ∧ (s.workThreads i).currentTask ≠ none) :
    Found s (none, false)

/-- The workers that the loop has passed without keeping one have a task. -/
theorem found_findFrom {s : State α n} {is : List (Fin n)} {firstStopped : Option (Fin n)}
    (hfirst : ∀ i, firstStopped = some i → (s.workThreads i).running = false)
    (hpassed : firstStopped = none → ∀ i, i ∉ is →
      (s.workThreads i).running = true ∧ (s.workThreads i).currentTask ≠ none) :
    Found s (s.findFrom is firstStopped) := by
  induction is generalizing firstStopped with
  | nil =>
    cases firstStopped with
    | none => exact .full fun i => hpassed rfl i List.not_mem_nil
    | some i => exact .stopped i (hfirst i rfl)
  | cons i is ih =>
    rw [State.findFrom]
    split
    · rename_i hidle
      exact .idle i hidle.1 (Option.isNone_iff_eq_none.1 hidle.2)
    · rename_i hidle
      split
      · rename_i hstopped
        refine ih ?_ nofun
        rintro j ⟨⟩
        exact hstopped.1
      · rename_i hstopped
        refine ih hfirst fun hnone j hj => ?_
        by_cases hji : j = i
        · subst hji
          have hrunning : (s.workThreads j).running = true := by
            by_contra hr
            exact hstopped ⟨by simpa using hr, by simp [hnone]⟩
          exact ⟨hrunning, fun htask => hidle ⟨hrunning, by simp [htask]⟩⟩
        · exact hpassed hnone j (by simp [hji, hj])

theorem found_findAvailableThread (s : State α n) : Found s s.findAvailableThread :=
  found_findFrom nofun fun _ i hi => absurd (List.mem_finRange i) hi

theorem runTask_idle {s : State α n} {i : Fin n} (h : s.findAvailableThread = (some i, true))
    (function : α) :
    s.runTask function = { s with submitted := s.submitted ++ [s.packaged function] }.setWorker i
      { s.workThreads i with currentTask := some (s.packaged function) } := by
  rw [State.runTask, h]
  rfl

theorem runTask_stopped {s : State α n} {i : Fin n} (h : s.findAvailableThread = (some i, false))
    (function : α) :
    s.runTask function = { s with submitted := s.submitted ++ [s.packaged function] }.setWorker i
      { running := true, pc := .starting, currentTask := some (s.packaged function) } := by
  simp [State.runTask, h, State.assignTask, State.startThread, State.setWorker]

theorem runTask_full {s : State α n} {b : Bool} (h : s.findAvailableThread = (none, b))
    (function : α) :
    s.runTask function = { s with
      submitted := s.submitted ++ [s.packaged function]
      taskOverflow := s.taskOverflow ++ [s.packaged function]
      overflowed := s.overflowed ++ [s.packaged function] } := by
  rw [State.runTask, h]

/-! ## What is submitted -/

theorem submitted_runTask (s : State α n) (function : α) :
    (s.runTask function).submitted = s.submitted ++ [s.packaged function] := by
  rw [State.runTask]
  split <;> rfl

theorem submitted_proceed (s : State α n) (i : Fin n) : (s.proceed i).submitted = s.submitted := by
  rw [State.proceed]
  split <;> rfl

/-- The workers submit nothing. -/
theorem submitted_step {s t : State α n} {a : Act α n} (ha : ∀ function, a ≠ .runTask function)
    (hstep : step s a = some t) : t.submitted = s.submitted := by
  cases a with
  | runTask function => exact absurd rfl (ha function)
  | enter i =>
    obtain ⟨-, hstep⟩ := Option.ite_none_right_eq_some.1 hstep
    obtain rfl := Option.some.inj hstep
    exact submitted_proceed s i
  | done i =>
    obtain ⟨-, hstep⟩ := Option.ite_none_right_eq_some.1 hstep
    obtain rfl := Option.some.inj hstep
    rfl
  | takeNext i =>
    obtain ⟨-, hstep⟩ := Option.ite_none_right_eq_some.1 hstep
    obtain rfl := Option.some.inj hstep
    rw [State.takeNext]
    split <;> exact submitted_proceed _ i
  | wake i =>
    obtain ⟨-, hstep⟩ := Option.ite_none_right_eq_some.1 hstep
    obtain rfl := Option.some.inj hstep
    exact submitted_proceed s i
  | timeOut i =>
    obtain ⟨-, hstep⟩ := Option.ite_none_right_eq_some.1 hstep
    obtain rfl := Option.some.inj hstep
    rw [State.timeOut]
    split
    · exact submitted_proceed s i
    · rfl

/-! ## The scheduler as a ledger -/

/-- The task of a worker that has not called it yet. -/
def WorkThread.assigned (w : WorkThread α) : Multiset (PackagedTask α) :=
  if w.pc.hasCalled then 0 else w.currentTask.toList

/-- The task of a worker that has called it. -/
def WorkThread.called (w : WorkThread α) : Multiset (PackagedTask α) :=
  if w.pc.hasCalled then w.currentTask.toList else 0

theorem WorkThread.assigned_add_called (w : WorkThread α) :
    w.assigned + w.called = w.currentTask.toList := by
  cases h : w.pc.hasCalled <;> simp [assigned, called, h]

def State.ledger (s : State α n) : Ledger (PackagedTask α) where
  waiting := s.taskOverflow + ∑ i, (s.workThreads i).assigned
  out := ∑ i, (s.workThreads i).called
  called := s.finished

/-- What a sum over the workers becomes when one of them changes. -/
theorem sum_update (f : WorkThread α → Multiset (PackagedTask α)) (ws : Fin n → WorkThread α)
    (i : Fin n) (w : WorkThread α) :
    f (ws i) + ∑ j, f (Function.update ws i w j) = f w + ∑ j, f (ws j) :=
  add_sum_update ws (fun _ => f) (Finset.mem_univ i) w

/-- The ledger does not see a worker that changes without touching its task. -/
theorem ledger_setWorker {s : State α n} {i : Fin n} {w : WorkThread α}
    (hassigned : w.assigned = (s.workThreads i).assigned)
    (hcalled : w.called = (s.workThreads i).called) : (s.setWorker i w).ledger = s.ledger := by
  have hsum₁ := sum_update WorkThread.assigned s.workThreads i w
  have hsum₂ := sum_update WorkThread.called s.workThreads i w
  rw [hassigned] at hsum₁
  rw [hcalled] at hsum₂
  exact Ledger.ext (congrArg (_ + ·) (add_left_cancel hsum₁)) (add_left_cancel hsum₂) rfl

/-- A worker without a task is given one. -/
theorem ledger_assign {s : State α n} {i : Fin n} {w : WorkThread α} {task : PackagedTask α}
    (hnone : (s.workThreads i).currentTask = none) (htask : w.currentTask = some task)
    (hpc : w.pc.hasCalled = false) :
    (s.setWorker i w).ledger.waiting = task ::ₘ s.ledger.waiting ∧
      (s.setWorker i w).ledger.out = s.ledger.out := by
  have hold : (s.workThreads i).assigned = 0 ∧ (s.workThreads i).called = 0 := by
    simp [WorkThread.assigned, WorkThread.called, hnone]
  have hnew : w.assigned = {task} ∧ w.called = 0 := by
    simp [WorkThread.assigned, WorkThread.called, htask, hpc]
  have hsum₁ := sum_update WorkThread.assigned s.workThreads i w
  have hsum₂ := sum_update WorkThread.called s.workThreads i w
  rw [hold.1, hnew.1, zero_add] at hsum₁
  rw [hold.2, hnew.2, zero_add, zero_add] at hsum₂
  refine ⟨?_, hsum₂⟩
  calc (s.taskOverflow : Multiset (PackagedTask α)) + ∑ j, (Function.update s.workThreads i w j).assigned
    _ = s.taskOverflow + ({task} + ∑ j, (s.workThreads j).assigned) := by rw [hsum₁]
    _ = task ::ₘ (s.taskOverflow + ∑ j, (s.workThreads j).assigned) := by
      rw [add_left_comm, Multiset.singleton_add]

/-- A worker calls the task that it was given. -/
theorem ledger_call {s : State α n} {i : Fin n} {w : WorkThread α} {task : PackagedTask α}
    (hold : (s.workThreads i).currentTask = some task)
    (hpc : (s.workThreads i).pc.hasCalled = false) (htask : w.currentTask = some task)
    (hcalled : w.pc.hasCalled = true) :
    s.ledger.waiting = {task} + (s.setWorker i w).ledger.waiting ∧
      (s.setWorker i w).ledger.out = s.ledger.out + {task} := by
  have hold : (s.workThreads i).assigned = {task} ∧ (s.workThreads i).called = 0 := by
    simp [WorkThread.assigned, WorkThread.called, hold, hpc]
  have hnew : w.assigned = 0 ∧ w.called = {task} := by
    simp [WorkThread.assigned, WorkThread.called, htask, hcalled]
  have hsum₁ := sum_update WorkThread.assigned s.workThreads i w
  have hsum₂ := sum_update WorkThread.called s.workThreads i w
  rw [hold.1, hnew.1, zero_add] at hsum₁
  rw [hold.2, hnew.2, zero_add] at hsum₂
  refine ⟨?_, hsum₂.trans (add_comm _ _)⟩
  calc (s.taskOverflow : Multiset (PackagedTask α)) + ∑ j, (s.workThreads j).assigned
    _ = s.taskOverflow + ({task} + ∑ j, (Function.update s.workThreads i w j).assigned) := by
      rw [hsum₁]
    _ = {task} + (s.taskOverflow + ∑ j, (Function.update s.workThreads i w j).assigned) :=
      add_left_comm _ _ _

/-- A worker drops the task that it has called, and calls another one or none. -/
theorem ledger_drop {s : State α n} {i : Fin n} {w : WorkThread α} {task : PackagedTask α}
    (hold : (s.workThreads i).currentTask = some task)
    (hpc : (s.workThreads i).pc.hasCalled = true)
    (hcalled : w.pc.hasCalled = true ∨ w.currentTask = none) :
    (s.setWorker i w).ledger.waiting = s.ledger.waiting ∧
      ∃ out, s.ledger.out = task ::ₘ out ∧
        (s.setWorker i w).ledger.out = out + (w.currentTask.toList : Multiset (PackagedTask α)) := by
  have hold : (s.workThreads i).assigned = 0 ∧ (s.workThreads i).called = {task} := by
    simp [WorkThread.assigned, WorkThread.called, hold, hpc]
  have hnew : w.assigned = 0 ∧ w.called = w.currentTask.toList := by
    rcases hcalled with hcalled | hnone
    · simp [WorkThread.assigned, WorkThread.called, hcalled]
    · simp [WorkThread.assigned, WorkThread.called, hnone]
  have hsum₁ := sum_update WorkThread.assigned s.workThreads i w
  have hsum₂ := sum_update WorkThread.called s.workThreads i w
  -- the sum over the workers once this one has dropped its task
  have hsum₃ := sum_update WorkThread.called s.workThreads i {}
  rw [hold.1, hnew.1, zero_add, zero_add] at hsum₁
  rw [hold.2, hnew.2] at hsum₂
  rw [hold.2, show ({} : WorkThread α).called = 0 from rfl, zero_add] at hsum₃
  refine ⟨congrArg (_ + ·) hsum₁, ∑ j, (Function.update s.workThreads i {} j).called, ?_, ?_⟩
  · exact hsum₃.symm.trans (Multiset.singleton_add _ _)
  · refine add_left_cancel (a := {task}) (hsum₂.trans ?_)
    rw [← hsum₃, add_left_comm, add_comm (Multiset.ofList _)]

/-! ## The invariant -/

/-- How the fields of a worker go together, and with the overflow. -/
structure WorkThread.Coherent (overflow overflowed : List (PackagedTask α)) (w : WorkThread α) :
    Prop where
  stopped : w.running = false → w.pc = .stopped ∧ w.currentTask = none
  running : w.pc = .stopped → w.running = false
  task : w.currentTask = none → w.pc = .stopped ∨ w.pc = .waiting
  /-- The overflow is used only when every worker has a task. -/
  busy : overflow ≠ [] → w.currentTask ≠ none
  /-- A task that the worker was given by `run_task` has not been in the overflow. -/
  direct : ∀ task, w.pc.hasCalled = false → w.currentTask = some task → task ∉ overflowed

theorem WorkThread.Coherent.isRunning {overflow overflowed : List (PackagedTask α)}
    {w : WorkThread α} (h : w.Coherent overflow overflowed) (htask : w.currentTask ≠ none) :
    w.running = true := by
  by_contra hr
  exact htask (h.stopped (by simpa using hr)).2

variable [DecidableEq α]

structure Inv (s : State α n) : Prop where
  coherent : ∀ i, (s.workThreads i).Coherent s.taskOverflow s.overflowed
  numbered : ∀ task ∈ s.submitted, task.number < s.submitted.length
  kept : s.ledger.Kept s.submitted
  log : (s.started : Multiset (PackagedTask α)) = s.ledger.out + s.ledger.called
  overflowed : s.overflowed.Sublist s.submitted
  /-- The tasks of the overflow have been called in the order in which they were put there. -/
  queued : s.started.filter (· ∈ s.overflowed) ++ s.taskOverflow = s.overflowed

theorem inv_init : Inv ({} : State α n) where
  coherent _ := ⟨fun _ => ⟨rfl, rfl⟩, fun _ => rfl, fun _ => .inl rfl, nofun, nofun⟩
  numbered := nofun
  kept := ⟨by simp [Ledger.all, State.ledger, WorkThread.assigned, WorkThread.called], List.nodup_nil⟩
  log := by simp [State.ledger, WorkThread.called]
  overflowed := .slnil
  queued := rfl

namespace Inv

variable {s : State α n}

theorem packaged_not_mem (h : Inv s) (function : α) : s.packaged function ∉ s.submitted := by
  intro hmem
  exact Nat.lt_irrefl _ (h.numbered _ hmem)

/-- What is in the ledger has been submitted. -/
theorem mem_submitted (h : Inv s) {task : PackagedTask α} (hmem : task ∈ s.ledger.all) :
    task ∈ s.submitted := by
  rwa [h.kept.all_eq, Multiset.mem_coe] at hmem

theorem started_subset (h : Inv s) : s.started ⊆ s.submitted := by
  intro task htask
  have hmem : task ∈ s.ledger.out + s.ledger.called := h.log ▸ Multiset.mem_coe.2 htask
  refine h.mem_submitted ?_
  rw [Ledger.all, add_assoc]
  exact Multiset.mem_add.2 (.inr hmem)

theorem current_mem (h : Inv s) {i : Fin n} {task : PackagedTask α}
    (htask : (s.workThreads i).currentTask = some task) : task ∈ s.submitted := by
  refine h.mem_submitted ?_
  have hmem : task ∈ (s.workThreads i).assigned + (s.workThreads i).called := by
    simp [WorkThread.assigned_add_called, htask]
  rw [Ledger.all, Multiset.mem_add, Multiset.mem_add]
  rcases Multiset.mem_add.1 hmem with hmem | hmem
  · exact .inl (.inl (Multiset.mem_add.2 (.inr (Multiset.mem_sum.2 ⟨i, Finset.mem_univ i, hmem⟩))))
  · exact .inl (.inr (Multiset.mem_sum.2 ⟨i, Finset.mem_univ i, hmem⟩))

theorem numbered_append (h : Inv s) (function : α) :
    ∀ task ∈ s.submitted ++ [s.packaged function],
      task.number < (s.submitted ++ [s.packaged function]).length := by
  intro task htask
  rw [List.length_append, List.length_singleton]
  rcases List.mem_append.1 htask with htask | htask
  · exact Nat.lt_succ_of_lt (h.numbered task htask)
  · rw [List.mem_singleton.1 htask]
    exact Nat.lt_succ_self _

/-- One worker changes, and the others still fit. -/
theorem coherent_update (h : Inv s) {i : Fin n} {w : WorkThread α}
    (hw : w.Coherent s.taskOverflow s.overflowed) (j : Fin n) :
    (Function.update s.workThreads i w j).Coherent s.taskOverflow s.overflowed :=
  (Function.forall_update_iff s.workThreads
    fun _ w => w.Coherent s.taskOverflow s.overflowed).2 ⟨hw, fun j _ => h.coherent j⟩ j

/-- A worker changes without touching its task. -/
theorem setWorker (h : Inv s) {i : Fin n} {w : WorkThread α}
    (hw : w.Coherent s.taskOverflow s.overflowed)
    (htask : w.currentTask = (s.workThreads i).currentTask)
    (hcalled : w.pc.hasCalled = (s.workThreads i).pc.hasCalled ∨ w.currentTask = none) :
    Inv (s.setWorker i w) := by
  have hledger : (s.setWorker i w).ledger = s.ledger := by
    rcases hcalled with hcalled | hnone
    · exact ledger_setWorker (by simp [WorkThread.assigned, htask, hcalled])
        (by simp [WorkThread.called, htask, hcalled])
    · exact ledger_setWorker (by simp [WorkThread.assigned, ← htask, hnone])
        (by simp [WorkThread.called, ← htask, hnone])
  exact { h with
    coherent := h.coherent_update hw
    kept := hledger ▸ h.kept
    log := hledger ▸ h.log }

/-- `run_task` gives its task to a worker that has none. -/
theorem assign (h : Inv s) {i : Fin n} {w : WorkThread α} (function : α)
    (hw : w.Coherent s.taskOverflow s.overflowed)
    (hnone : (s.workThreads i).currentTask = none)
    (htask : w.currentTask = some (s.packaged function)) (hpc : w.pc.hasCalled = false) :
    Inv ({ s with submitted := s.submitted ++ [s.packaged function] }.setWorker i w) := by
  have hnew := h.packaged_not_mem function
  have hledger := ledger_assign (s := { s with submitted := s.submitted ++ [s.packaged function] })
    hnone htask hpc
  have hmove : s.ledger.Move _ (some (s.packaged function)) := .accept _ hledger.1 hledger.2 rfl
  exact
    { coherent := h.coherent_update hw
      numbered := h.numbered_append function
      kept := h.kept.move hmove (by rintro _ ⟨⟩; exact hnew)
      log := by rw [hledger.2]; exact h.log
      overflowed := h.overflowed.trans (List.sublist_append_left ..)
      queued := h.queued }

/-- `run_task` finds no worker and puts its task into the overflow. -/
theorem enqueue (h : Inv s) (function : α) (hfull : ∀ i, (s.workThreads i).currentTask ≠ none) :
    Inv { s with
      submitted := s.submitted ++ [s.packaged function]
      taskOverflow := s.taskOverflow ++ [s.packaged function]
      overflowed := s.overflowed ++ [s.packaged function] } := by
  have hnew := h.packaged_not_mem function
  have hmove : s.ledger.Move (State.ledger { s with
      submitted := s.submitted ++ [s.packaged function]
      taskOverflow := s.taskOverflow ++ [s.packaged function]
      overflowed := s.overflowed ++ [s.packaged function] }) (some (s.packaged function)) := by
    refine .accept _ ?_ rfl rfl
    simp only [State.ledger, ← Multiset.coe_add, Multiset.coe_singleton]
    rw [add_right_comm, add_comm, Multiset.singleton_add]
  -- the new task has not been called, so that what was called from the overflow is as before
  have hfilter : s.started.filter (· ∈ s.overflowed ++ [s.packaged function]) =
      s.started.filter (· ∈ s.overflowed) := by
    refine List.filter_congr fun task htask => ?_
    have hne : task ≠ s.packaged function := by
      rintro rfl
      exact hnew (h.started_subset htask)
    simp [hne]
  exact { h with
    coherent := fun i => { h.coherent i with
      busy := fun _ => hfull i
      direct := by
        intro task hpc htask hmem
        rcases List.mem_append.1 hmem with hmem | hmem
        · exact (h.coherent i).direct task hpc htask hmem
        · rw [List.mem_singleton.1 hmem] at htask
          exact hnew (h.current_mem htask) }
    numbered := h.numbered_append function
    kept := h.kept.move hmove (by rintro _ ⟨⟩; exact hnew)
    overflowed := h.overflowed.append (.refl _)
    queued := by
      show s.started.filter (· ∈ s.overflowed ++ [s.packaged function]) ++
        (s.taskOverflow ++ [s.packaged function]) = s.overflowed ++ [s.packaged function]
      rw [hfilter, ← List.append_assoc, h.queued] }

/-- A worker that has just been given its task. -/
theorem coherent_assigned (h : Inv s) {i : Fin n} (function : α) {w : WorkThread α}
    (hnone : (s.workThreads i).currentTask = none)
    (htask : w.currentTask = some (s.packaged function)) (hrunning : w.running = true)
    (hpc : w.pc ≠ .stopped) : w.Coherent s.taskOverflow s.overflowed where
  stopped := by simp [hrunning]
  running := fun hstopped => absurd hstopped hpc
  task := by simp [htask]
  busy := fun hne => absurd hnone ((h.coherent i).busy hne)
  direct := by
    intro task _ hsome hmem
    obtain rfl := Option.some.inj (htask.symm.trans hsome)
    exact h.packaged_not_mem function (h.overflowed.subset hmem)

theorem runTask (h : Inv s) (function : α) : Inv (s.runTask function) := by
  have hfound := found_findAvailableThread s
  generalize heq : s.findAvailableThread = found at hfound
  cases hfound with
  | idle i hrunning hnone =>
    have hcoherent := h.coherent i
    have hwaiting : (s.workThreads i).pc = .waiting := by
      refine (hcoherent.task hnone).resolve_left fun hstopped => ?_
      simp [hcoherent.running hstopped] at hrunning
    rw [runTask_idle heq]
    exact h.assign function (h.coherent_assigned function hnone rfl hrunning (by simp [hwaiting])) hnone
      rfl (by simp [hwaiting, WorkerPc.hasCalled])
  | stopped i hstopped =>
    have hnone := ((h.coherent i).stopped hstopped).2
    rw [runTask_stopped heq]
    exact h.assign function (h.coherent_assigned function hnone rfl rfl nofun) hnone rfl rfl
  | full hfull =>
    rw [runTask_full heq]
    exact h.enqueue function fun i => (hfull i).2

/-- A worker calls the task that `run_task` gave it. -/
theorem call (h : Inv s) {i : Fin n} {task : PackagedTask α}
    (htask : (s.workThreads i).currentTask = some task)
    (hpc : (s.workThreads i).pc.hasCalled = false) :
    Inv { s.setWorker i { s.workThreads i with pc := .executing } with
      started := s.started ++ [task] } := by
  have hcoherent := h.coherent i
  obtain ⟨hwaiting, hout⟩ := ledger_call (w := { s.workThreads i with pc := .executing }) htask hpc
    htask rfl
  have hmove : s.ledger.Move (s.setWorker i { s.workThreads i with pc := .executing }).ledger none :=
    .take {task} hwaiting hout rfl
  have hrunning := hcoherent.isRunning (by simp [htask])
  have hw : WorkThread.Coherent s.taskOverflow s.overflowed { s.workThreads i with pc := .executing } :=
    { hcoherent with
      stopped := by simp [hrunning]
      running := nofun
      task := by simp [htask]
      direct := nofun }
  exact { h with
    coherent := h.coherent_update hw
    kept := h.kept.move_none hmove
    log := by
      show (↑(s.started ++ [task]) : Multiset (PackagedTask α)) =
        (s.setWorker i { s.workThreads i with pc := .executing }).ledger.out + s.ledger.called
      rw [hout, ← Multiset.coe_add, h.log, Multiset.coe_singleton, add_right_comm]
    queued := by
      have hnot := hcoherent.direct task hpc htask
      show (s.started ++ [task]).filter (· ∈ s.overflowed) ++ s.taskOverflow = s.overflowed
      simpa [hnot] using h.queued }

theorem proceed (h : Inv s) {i : Fin n} (hpc : (s.workThreads i).pc.hasCalled = false)
    (hstopped : (s.workThreads i).pc ≠ .stopped) : Inv (s.proceed i) := by
  rw [State.proceed]
  split
  · rename_i task htask
    exact h.call htask hpc
  · rename_i hnone
    refine h.setWorker ?_ rfl (.inr hnone)
    exact { h.coherent i with
      stopped := fun hrunning => absurd ((h.coherent i).stopped hrunning).1 hstopped
      running := nofun
      task := fun _ => .inr rfl
      direct := by simp [hnone] }

theorem done (h : Inv s) {i : Fin n} (hpc : (s.workThreads i).pc = .executing) :
    Inv (s.setWorker i { s.workThreads i with pc := .returned }) := by
  refine h.setWorker ?_ rfl (.inl (by simp [hpc, WorkerPc.hasCalled]))
  have hcoherent := h.coherent i
  have htask : (s.workThreads i).currentTask ≠ none := by
    intro hnone
    rcases hcoherent.task hnone with h' | h' <;> simp [hpc] at h'
  exact { hcoherent with
    stopped := by simp [hcoherent.isRunning htask]
    running := nofun
    task := fun hnone => absurd hnone htask
    direct := nofun }

theorem timeOut (h : Inv s) {i : Fin n} (hpc : (s.workThreads i).pc = .waiting) :
    Inv (s.timeOut i) := by
  rw [State.timeOut]
  split
  · exact h.proceed (by simp [hpc, WorkerPc.hasCalled]) (by simp [hpc])
  · rename_i hnone
    refine h.setWorker ?_ rfl (.inr hnone)
    exact { h.coherent i with
      stopped := fun _ => ⟨rfl, hnone⟩
      running := fun _ => rfl
      task := fun _ => .inl rfl
      direct := by simp [hnone] }

/-- A worker that is done drops its task, and calls the first one of the overflow if there is one. -/
theorem drop (h : Inv s) {i : Fin n} {w : WorkThread α} {task : PackagedTask α}
    {rest : List (PackagedTask α)} (htask : (s.workThreads i).currentTask = some task)
    (hpc : (s.workThreads i).pc.hasCalled = true)
    (hcalled : w.pc.hasCalled = true ∨ w.currentTask = none)
    (hrest : s.taskOverflow = w.currentTask.toList ++ rest) (hw : w.Coherent rest s.overflowed) :
    Inv { s.setWorker i w with
      taskOverflow := rest
      finished := s.finished ++ [task]
      started := s.started ++ w.currentTask.toList } := by
  obtain ⟨hwaiting, out, hout, hout'⟩ := ledger_drop (w := w) htask hpc hcalled
  -- the task is called off the ledger, and then the next one is taken out
  have hmove₁ : s.ledger.Move ⟨s.ledger.waiting, out, task ::ₘ s.ledger.called⟩ none :=
    .call task rfl hout rfl
  have hmove₂ : Ledger.Move ⟨s.ledger.waiting, out, task ::ₘ s.ledger.called⟩
      (State.ledger { s.setWorker i w with
        taskOverflow := rest
        finished := s.finished ++ [task]
        started := s.started ++ w.currentTask.toList }) none := by
    refine .take w.currentTask.toList ?_ hout' ?_
    · have hsum : (s.taskOverflow : Multiset (PackagedTask α)) = w.currentTask.toList + rest := by
        rw [hrest, Multiset.coe_add]
      show s.ledger.waiting = _ + (rest + ∑ j, (Function.update s.workThreads i w j).assigned)
      rw [← hwaiting, ← add_assoc, ← hsum]
      rfl
    · show (↑(s.finished ++ [task]) : Multiset (PackagedTask α)) = task ::ₘ s.finished
      rw [← Multiset.coe_add, add_comm, Multiset.coe_singleton, Multiset.singleton_add]
  exact { h with
    coherent := (Function.forall_update_iff s.workThreads fun _ w => w.Coherent rest s.overflowed).2
      ⟨hw, fun j _ => { h.coherent j with
        busy := fun hne => (h.coherent j).busy (by simp [hrest, hne]) }⟩
    kept := (h.kept.move_none hmove₁).move_none hmove₂
    log := by
      show (↑(s.started ++ w.currentTask.toList) : Multiset (PackagedTask α)) =
        (s.setWorker i w).ledger.out + ↑(s.finished ++ [task])
      rw [hout', ← Multiset.coe_add, ← Multiset.coe_add, h.log, hout, Multiset.coe_singleton,
        ← Multiset.singleton_add]
      show {task} + out + (s.finished : Multiset (PackagedTask α)) + _ = _
      ac_rfl
    queued := by
      have hqueued := h.queued
      rw [hrest, ← List.append_assoc] at hqueued
      have hkept : w.currentTask.toList.filter (· ∈ s.overflowed) = w.currentTask.toList := by
        refine List.filter_eq_self.2 fun next hnext => ?_
        rw [← hqueued]
        simp [hnext]
      show (s.started ++ w.currentTask.toList).filter (· ∈ s.overflowed) ++ rest = s.overflowed
      rw [List.filter_append, hkept, hqueued] }

theorem takeNext (h : Inv s) {i : Fin n} (hpc : (s.workThreads i).pc = .returned) :
    Inv (s.takeNext i) := by
  have hcoherent := h.coherent i
  have hsome : (s.workThreads i).currentTask ≠ none := by
    intro hnone
    rcases hcoherent.task hnone with h' | h' <;> simp [hpc] at h'
  have hrunning := hcoherent.isRunning hsome
  obtain ⟨task, htask⟩ := Option.ne_none_iff_exists'.1 hsome
  cases hoverflow : s.taskOverflow with
  | nil =>
    have heq : s.takeNext i = { s.setWorker i
        { s.workThreads i with currentTask := none, pc := .waiting } with
        taskOverflow := []
        finished := s.finished ++ [task]
        started := s.started ++ [] } := by
      simp [State.takeNext, State.proceed, State.setWorker, hoverflow, htask]
    rw [heq]
    refine h.drop htask (by simp [hpc, WorkerPc.hasCalled]) (.inr rfl) (by simp [hoverflow]) ?_
    exact ⟨by simp [hrunning], nofun, fun _ => .inr rfl, nofun, nofun⟩
  | cons next rest =>
    have heq : s.takeNext i = { s.setWorker i
        { s.workThreads i with currentTask := some next, pc := .executing } with
        taskOverflow := rest
        finished := s.finished ++ [task]
        started := s.started ++ [next] } := by
      simp [State.takeNext, State.proceed, State.setWorker, hoverflow, htask]
    rw [heq]
    refine h.drop htask (by simp [hpc, WorkerPc.hasCalled]) (.inl rfl) (by simp [hoverflow]) ?_
    exact ⟨by simp [hrunning], nofun, nofun, nofun, nofun⟩

end Inv

theorem inv_step {s t : State α n} {a : Act α n} (h : Inv s) (hstep : step s a = some t) : Inv t := by
  cases a with
  | runTask function =>
    obtain rfl := Option.some.inj hstep
    exact h.runTask function
  | enter i =>
    obtain ⟨hpc, hstep⟩ := Option.ite_none_right_eq_some.1 hstep
    obtain rfl := Option.some.inj hstep
    exact h.proceed (by simp [hpc, WorkerPc.hasCalled]) (by simp [hpc])
  | done i =>
    obtain ⟨hpc, hstep⟩ := Option.ite_none_right_eq_some.1 hstep
    obtain rfl := Option.some.inj hstep
    exact h.done hpc
  | takeNext i =>
    obtain ⟨hpc, hstep⟩ := Option.ite_none_right_eq_some.1 hstep
    obtain rfl := Option.some.inj hstep
    exact h.takeNext hpc
  | wake i =>
    obtain ⟨hpc, hstep⟩ := Option.ite_none_right_eq_some.1 hstep
    obtain rfl := Option.some.inj hstep
    exact h.proceed (by simp [hpc, WorkerPc.hasCalled]) (by simp [hpc])
  | timeOut i =>
    obtain ⟨hpc, hstep⟩ := Option.ite_none_right_eq_some.1 hstep
    obtain rfl := Option.some.inj hstep
    exact h.timeOut hpc

theorem inv_run {t : State α n} {as : List (Act α n)} (h : (machine α n).run {} as = some t) :
    Inv t :=
  Machine.run_keeps (P := Inv) inv_step inv_init h

/-! ## Every task once, and no idling -/

/-- The workers whose current task it is. -/
def State.holders (s : State α n) (task : PackagedTask α) : Finset (Fin n) :=
  {i | (s.workThreads i).currentTask = some task}

theorem count_current (s : State α n) (task : PackagedTask α) :
    (∑ i, (s.workThreads i).assigned).count task + s.ledger.out.count task =
      (s.holders task).card := by
  have hcount : ∀ w : WorkThread α,
      (w.assigned + w.called).count task = if w.currentTask = some task then 1 else 0 := by
    intro w
    rw [w.assigned_add_called]
    cases w.currentTask with
    | none => simp
    | some other => simp [Multiset.count_singleton, eq_comm]
  rw [← Multiset.count_add, State.ledger, ← Finset.sum_add_distrib, Multiset.count_sum', State.holders,
    Finset.card_filter]
  exact Finset.sum_congr rfl fun i _ => hcount _

/-- A submitted task is in exactly one place. -/
theorem Inv.count_eq_one {s : State α n} (h : Inv s) {task : PackagedTask α}
    (htask : task ∈ s.submitted) :
    s.taskOverflow.count task + (s.holders task).card + s.finished.count task = 1 := by
  have hkept := h.kept.count_eq_one htask
  have hwaiting : s.ledger.waiting.count task =
      s.taskOverflow.count task + (∑ i, (s.workThreads i).assigned).count task := by
    rw [State.ledger, Multiset.count_add, Multiset.coe_count]
  have hcalled : s.ledger.called.count task = s.finished.count task := Multiset.coe_count ..
  have hcurrent := count_current s task
  omega

/-- No task is called twice. -/
theorem Inv.nodup_started {s : State α n} (h : Inv s) : s.started.Nodup := by
  have hall : s.ledger.all.Nodup := by rw [h.kept.all_eq]; exact Multiset.coe_nodup.2 h.kept.nodup
  rw [Ledger.all, add_assoc] at hall
  exact Multiset.coe_nodup.1 (h.log ▸ (Multiset.nodup_add.1 hall).2.1)

theorem Inv.finished_subset {s : State α n} (h : Inv s) : s.finished ⊆ s.started := by
  intro task htask
  rw [← Multiset.mem_coe, h.log]
  exact Multiset.mem_add.2 (.inr (Multiset.mem_coe.2 htask))

/-- `run_task` takes no worker its task. -/
theorem currentTask_runTask (s : State α n) (h : Inv s) (function : α) {i : Fin n}
    {task : PackagedTask α} (htask : (s.workThreads i).currentTask = some task) :
    ((s.runTask function).workThreads i).currentTask = some task := by
  have hfound := found_findAvailableThread s
  generalize heq : s.findAvailableThread = found at hfound
  cases hfound with
  | idle j _ hnone =>
    have hij : i ≠ j := by
      rintro rfl
      simp [hnone] at htask
    simpa [runTask_idle heq, State.setWorker, Function.update_of_ne hij] using htask
  | stopped j hstopped =>
    have hij : i ≠ j := by
      rintro rfl
      simp [((h.coherent i).stopped hstopped).2] at htask
    simpa [runTask_stopped heq, State.setWorker, Function.update_of_ne hij] using htask
  | full _ => simpa [runTask_full heq] using htask

/-- **The scheduler runs every task once and never idles while work waits.** In every state that a
run reaches, a submitted task is in the overflow, or the current task of one worker, or finished, and
in only one of these; no task has been called twice, and a finished one has been called; while there
is an overflow every worker is running with a task; a worker that is stopped has no task; the tasks
of the overflow have been called in the order in which they were submitted; and `run_task` does not
overwrite the task of a worker. -/
theorem scheduler_runsOnce (n : ℕ) (as : List (Act α n)) (t : State α n)
    (h : (machine α n).run {} as = some t) :
    (∀ task ∈ t.submitted,
      t.taskOverflow.count task + (t.holders task).card + t.finished.count task = 1) ∧
    t.started.Nodup ∧ t.finished ⊆ t.started ∧
    (t.taskOverflow ≠ [] →
      ∀ i, (t.workThreads i).running = true ∧ (t.workThreads i).currentTask ≠ none) ∧
    (∀ i, (t.workThreads i).running = false → (t.workThreads i).currentTask = none) ∧
    t.overflowed.Sublist t.submitted ∧
    t.started.filter (· ∈ t.overflowed) ++ t.taskOverflow = t.overflowed ∧
    ∀ function u, (machine α n).step t (.runTask function) = some u →
      ∀ i task, (t.workThreads i).currentTask = some task →
        (u.workThreads i).currentTask = some task := by
  have hinv := inv_run h
  refine ⟨fun task htask => hinv.count_eq_one htask, hinv.nodup_started, hinv.finished_subset, ?_, ?_,
    hinv.overflowed, hinv.queued, ?_⟩
  · intro hne i
    have hsome := (hinv.coherent i).busy hne
    exact ⟨(hinv.coherent i).isRunning hsome, hsome⟩
  · intro i hstopped
    exact ((hinv.coherent i).stopped hstopped).2
  · intro function u hu i task htask
    obtain rfl := Option.some.inj hu
    exact currentTask_runTask t hinv function htask

/-- One worker and three tasks: the second and the third wait in the overflow, and the worker calls
the second. -/
def threeTasks : List (Act Bool 1) :=
  [.runTask true, .enter 0, .runTask false, .runTask true, .done 0, .takeNext 0]

theorem scheduler_runsOnce_threeTasks :
    ∃ t, (machine Bool 1).run {} threeTasks = some t ∧ t.taskOverflow = [⟨2, true⟩] ∧
      (t.workThreads 0).running = true ∧
      t.started.filter (· ∈ t.overflowed) ++ t.taskOverflow = t.overflowed := by
  obtain ⟨t, ht, hoverflow⟩ : ∃ t, (machine Bool 1).run {} threeTasks = some t ∧
      t.taskOverflow = [⟨2, true⟩] := ⟨_, rfl, rfl⟩
  obtain ⟨-, -, -, hbusy, -, -, hqueued, -⟩ := scheduler_runsOnce 1 threeTasks t ht
  exact ⟨t, ht, hoverflow, (hbusy (by simp [hoverflow]) 0).1, hqueued⟩

end Hareflow.Scheduler
