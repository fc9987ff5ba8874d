import Mathlib.Data.Nat.Notation
import Mathlib.Tactic.Common

/-!
# Reschedulable tasks

A `ReschedulableTask` is a function that its owner schedules for now or after a delay. Scheduling
posts a handler to a strand; the handler fires the task or arms a timer whose expiry posts another
handler; a firing counts as a pending invocation and engages, unless one is engaged, a loop that a
background worker runs: it invokes the function while invocations are pending.

* `Task` is the state of one task. Its field `engaged` says that pending invocations have a loop.
* `scheduleNow`, `scheduleAfter`, `cancel` and `destroy` are what an owner calls; `tick`, `enter`,
  `returned` and `threw` are what the strand, the timer and the loop do on their own.
* `Task.Scheduled` says that an invocation is to come. It stays so until the loop enters the
  function (`Scheduled.tick`), whatever else happens to a task that is `Alive`.
-/

namespace Hareflow

/-- The handlers that wait on the strand of an `AsyncTask`. -/
inductive Post
  | now
  | after
  /-- The completion of a timer that was not cancelled in time. -/
  | expired
  | cancel
  | destroy
  deriving DecidableEq, Repr

/-- `current_invocation`, and where its loop is. -/
inductive Invocation
  | none
  /-- Queued on the scheduler, or between two invocations. -/
  | head
  /-- In the function. -/
  | running
  /-- The function threw: the future stays engaged and the loop is gone. -/
  | abandoned
  deriving DecidableEq, Repr

/-- The state of a `ReschedulableTask` and of its `AsyncTask`. -/
@[ext]
structure Task where
  /-- The handlers on the strand, first to run first. -/
  posts : List Post
  /-- The timer is armed. -/
  timed : Bool
  /-- `m_function` of the `AsyncTask` is set. -/
  function : Bool
  pending : ℕ
  invocation : Invocation
  destroyed : Bool
  /-- Pending invocations have an engaged loop, until the task is destroyed. -/
  engaged : destroyed = false → 0 < pending → invocation ≠ .none

/-- The steps that a task takes without its owner. -/
inductive Tick
  /-- The strand runs its next handler. -/
  | strand
  /-- The timer expires. -/
  | expire
  /-- The loop finds nothing to do and ends. -/
  | rest
  deriving DecidableEq, Repr

namespace Task

/-- A task as constructed. -/
def fresh : Task where
  posts := []
  timed := false
  function := true
  pending := 0
  invocation := .none
  destroyed := false
  engaged := fun _ => nofun

/-- Post a handler to the strand. -/
def post (t : Task) (p : Post) : Task := { t with posts := t.posts ++ [p] }

def scheduleNow (t : Task) : Task := if t.destroyed then t else t.post .now

def scheduleAfter (t : Task) : Task := if t.destroyed then t else t.post .after

def cancel (t : Task) : Task := t.post .cancel

/-- The first half of `destroy()`; the call then waits for the handler and for the loop. -/
def destroy (t : Task) : Task :=
  { t.post .destroy with destroyed := true, engaged := nofun }

/-- The function of the `AsyncTask`: count an invocation and engage a loop if there is none. -/
def fire (t : Task) : Task :=
  if t.destroyed then t
  else
    { t with
      pending := t.pending + 1
      invocation := if t.pending = 0 ∧ t.invocation = .none then .head else t.invocation
      engaged := by
        intro hd _ hnone
        split at hnone
        case isTrue => cases hnone
        case isFalse h =>
          rcases Nat.eq_zero_or_pos t.pending with h0 | h0
          · exact h ⟨h0, hnone⟩
          · exact t.engaged hd h0 hnone }

/-- Run a handler. -/
def handle (t : Task) : Post → Task
  | .now => if t.function then { t with timed := false }.fire else { t with timed := false }
  | .after => if t.function then { t with timed := true } else t
  | .expired => if t.function then t.fire else t
  | .cancel => { t with timed := false }
  | .destroy => { t with function := false, timed := false }

def tick (t : Task) : Tick → Option Task
  | .strand =>
    match t.posts with
    | [] => none
    | p :: posts => some ({ t with posts := posts }.handle p)
  | .expire => if t.timed then some ({ t with timed := false }.post .expired) else none
  | .rest =>
    if h : t.invocation = .head ∧ (t.destroyed ∨ t.pending = 0) then
      some { t with invocation := .none, engaged := by intro hd hp; grind }
    else none

/-- The loop takes an invocation and calls the function. -/
def enter (t : Task) : Option Task :=
  if t.invocation = .head ∧ t.destroyed = false ∧ 0 < t.pending then
    some { t with pending := t.pending - 1, invocation := .running, engaged := fun _ _ => nofun }
  else none

/-- The function returns to the loop. -/
def returned (t : Task) : Task :=
  if t.invocation = .running then { t with invocation := .head, engaged := fun _ _ => nofun } else t

/-- The function throws out of the loop. -/
def threw (t : Task) : Task :=
  if t.invocation = .running then { t with invocation := .abandoned, engaged := fun _ _ => nofun }
  else t

/-- The steps of a task: what its owner calls, and what it does on its own. -/
inductive Step (t : Task) : Task → Prop
  | scheduleNow : Step t t.scheduleNow
  | scheduleAfter : Step t t.scheduleAfter
  | cancel : Step t t.cancel
  | destroy : Step t t.destroy
  | tick (e : Tick) {t' : Task} (h : t.tick e = some t') : Step t t'
  | enter {t' : Task} (h : t.enter = some t') : Step t t'
  | returned : Step t t.returned
  | threw : Step t t.threw

/-! ## A scheduled task will run -/

/-- The task is neither destroyed nor cancelled, and its loop has not been lost. -/
structure Alive (t : Task) : Prop where
  destroyed : t.destroyed = false
  function : t.function = true
  posts : ∀ p ∈ t.posts, p ≠ .cancel ∧ p ≠ .destroy
  invocation : t.invocation ≠ .abandoned

/-- An invocation is to come: a handler or a timer is about to fire, or a firing is pending and the
loop has not taken it yet. -/
def Scheduled (t : Task) : Prop :=
  t.posts ≠ [] ∨ t.timed ∨ 0 < t.pending

instance (t : Task) : Decidable t.Scheduled :=
  inferInstanceAs (Decidable (t.posts ≠ [] ∨ t.timed ∨ 0 < t.pending))

theorem alive_fresh : fresh.Alive := ⟨rfl, rfl, nofun, nofun⟩

theorem Alive.post {t : Task} (h : t.Alive) {p : Post} (hp : p ≠ .cancel ∧ p ≠ .destroy) :
    (t.post p).Alive := by
  refine ⟨h.destroyed, h.function, fun q hq => ?_, h.invocation⟩
  rcases List.mem_append.1 hq with hq | hq
  · exact h.posts q hq
  · obtain rfl := List.mem_singleton.1 hq
    exact hp

theorem Alive.setTimed {t : Task} (h : t.Alive) (b : Bool) : Alive { t with timed := b } :=
  ⟨h.destroyed, h.function, h.posts, h.invocation⟩

/-- What is left on the strand once its first handler is taken off. -/
theorem Alive.tail {t : Task} (h : t.Alive) {p : Post} {posts : List Post}
    (hposts : t.posts = p :: posts) : Alive { t with posts := posts } :=
  ⟨h.destroyed, h.function, fun q hq => h.posts q (hposts ▸ List.mem_cons_of_mem p hq),
    h.invocation⟩

theorem Alive.scheduleNow {t : Task} (h : t.Alive) : t.scheduleNow.Alive := by
  simp only [Task.scheduleNow, h.destroyed]
  exact h.post ⟨nofun, nofun⟩

theorem Alive.scheduleAfter {t : Task} (h : t.Alive) : t.scheduleAfter.Alive := by
  simp only [Task.scheduleAfter, h.destroyed]
  exact h.post ⟨nofun, nofun⟩

theorem Alive.fire {t : Task} (h : t.Alive) : t.fire.Alive := by
  unfold Task.fire
  split
  · exact h
  · refine ⟨h.destroyed, h.function, h.posts, ?_⟩
    show (if t.pending = 0 ∧ t.invocation = .none then Invocation.head else t.invocation) ≠ _
    split
    · exact nofun
    · exact h.invocation

theorem Alive.scheduled_fire {t : Task} (h : t.Alive) : t.fire.Scheduled := by
  unfold Task.fire
  rw [if_neg (by simp [h.destroyed])]
  exact .inr (.inr (Nat.succ_pos _))

theorem Alive.scheduled_scheduleNow {t : Task} (h : t.Alive) : t.scheduleNow.Scheduled := by
  unfold Task.scheduleNow
  rw [if_neg (by simp [h.destroyed])]
  exact .inl (by simp [Task.post])

theorem Alive.scheduled_scheduleAfter {t : Task} (h : t.Alive) : t.scheduleAfter.Scheduled := by
  unfold Task.scheduleAfter
  rw [if_neg (by simp [h.destroyed])]
  exact .inl (by simp [Task.post])

/-- A handler of the strand keeps the task alive, and whether it fires or arms the timer, an
invocation is to come. -/
theorem Alive.handle {t : Task} (h : t.Alive) {p : Post} (hp : p ≠ .cancel ∧ p ≠ .destroy) :
    (t.handle p).Alive ∧ (t.handle p).Scheduled := by
  cases p with
  | now =>
    rw [Task.handle, if_pos h.function]
    exact ⟨(h.setTimed false).fire, (h.setTimed false).scheduled_fire⟩
  | after =>
    rw [Task.handle, if_pos h.function]
    exact ⟨h.setTimed true, .inr (.inl rfl)⟩
  | expired =>
    rw [Task.handle, if_pos h.function]
    exact ⟨h.fire, h.scheduled_fire⟩
  | cancel => exact absurd rfl hp.1
  | destroy => exact absurd rfl hp.2

theorem Alive.tick {t t' : Task} {e : Tick} (h : t.Alive) (he : t.tick e = some t') :
    t'.Alive := by
  cases e <;> simp only [Task.tick] at he
  case strand =>
    split at he <;> cases he
    rename_i p posts hposts
    exact ((h.tail hposts).handle (h.posts p (by simp [hposts]))).1
  case expire =>
    split at he <;> cases he
    exact (h.setTimed false).post ⟨nofun, nofun⟩
  case rest =>
    split at he <;> cases he
    exact ⟨h.destroyed, h.function, h.posts, nofun⟩

/-- **A scheduled task stays scheduled** through everything that the strand, the timer and the end
of the loop do. -/
theorem Scheduled.tick {t t' : Task} {e : Tick} (hs : t.Scheduled) (h : t.Alive)
    (he : t.tick e = some t') : t'.Scheduled := by
  cases e <;> simp only [Task.tick] at he
  case strand =>
    split at he <;> cases he
    rename_i p posts hposts
    exact ((h.tail hposts).handle (h.posts p (by simp [hposts]))).2
  case expire =>
    split at he <;> cases he
    exact .inl (by simp [Task.post])
  case rest =>
    split at he <;> cases he
    rename_i hrest
    obtain hp | ht | hn := hs
    · exact .inl hp
    · exact .inr (.inl ht)
    · obtain ⟨-, hd | h0⟩ := hrest
      · simp [h.destroyed] at hd
      · omega

theorem Alive.enter {t t' : Task} (h : t.Alive) (he : t.enter = some t') : t'.Alive := by
  unfold Task.enter at he
  split at he <;> cases he
  exact ⟨h.destroyed, h.function, h.posts, nofun⟩

theorem Alive.returned {t : Task} (h : t.Alive) : t.returned.Alive := by
  unfold Task.returned
  split
  · exact ⟨h.destroyed, h.function, h.posts, nofun⟩
  · exact h

theorem Scheduled.returned {t : Task} (h : t.Scheduled) : t.returned.Scheduled := by
  unfold Task.returned
  split
  · exact h
  · exact h

/-! ## The parts of a live task -/

theorem Alive.scheduleAfter_eq {t : Task} (h : t.Alive) : t.scheduleAfter = t.post .after := by
  simp [Task.scheduleAfter, h.destroyed]

/-- The strand arms the timer, or fires. -/
theorem Alive.strand {t t' : Task} (h : t.Alive) (ht : t.tick .strand = some t') :
    ∃ p posts, t.posts = p :: posts ∧ t'.posts = posts ∧
      (t'.invocation = .running ↔ t.invocation = .running) ∧
      (p ≠ .after → t'.timed = true → t.timed = true) := by
  simp only [Task.tick] at ht
  split at ht <;> cases ht
  rename_i p posts hposts
  refine ⟨p, posts, hposts, ?_⟩
  have hfun := h.function
  have hd := h.destroyed
  obtain ⟨hcancel, hdestroy⟩ := h.posts p (by simp [hposts])
  cases p with
  | cancel => exact absurd rfl hcancel
  | destroy => exact absurd rfl hdestroy
  | after => simp [Task.handle, hfun]
  | now | expired =>
    simp only [Task.handle, hfun, if_true, Task.fire, hd, Bool.false_eq_true, if_false]
    refine ⟨trivial, ?_, by simp⟩
    split
    · rename_i hnone
      simp [hnone.2]
    · rfl

theorem expire_eq {t t' : Task} (ht : t.tick .expire = some t') :
    t.timed = true ∧ t' = { t with timed := false }.post .expired := by
  simp only [Task.tick] at ht
  split at ht <;> cases ht
  rename_i htimed
  exact ⟨htimed, rfl⟩

theorem rest_fields {t t' : Task} (ht : t.tick .rest = some t') :
    t'.posts = t.posts ∧ t'.timed = t.timed ∧ t'.pending = t.pending ∧ t.invocation = .head ∧
      t'.invocation = .none := by
  simp only [Task.tick] at ht
  split at ht <;> cases ht
  rename_i hrest
  exact ⟨rfl, rfl, rfl, hrest.1, rfl⟩

theorem enter_fields {t t' : Task} (ht : t.enter = some t') :
    0 < t.pending ∧ t.invocation = .head ∧ t'.posts = t.posts ∧ t'.timed = t.timed ∧
      t'.invocation = .running := by
  unfold Task.enter at ht
  split at ht <;> cases ht
  rename_i hg
  exact ⟨hg.2.2, hg.1, rfl, rfl, rfl⟩

@[simp] theorem returned_fields (t : Task) : t.returned.posts = t.posts ∧
    t.returned.timed = t.timed ∧ t.returned.pending = t.pending ∧
    t.returned.invocation ≠ .running := by
  unfold Task.returned
  split
  · exact ⟨rfl, rfl, rfl, by simp⟩
  · rename_i h
    exact ⟨rfl, rfl, rfl, h⟩

end Task

end Hareflow
