import Hareflow.Foundations.Machine
import Hareflow.Task.Reschedulable
import Mathlib.Logic.Relation

/-!
# The invocations of a reschedulable task

`Task` keeps one invocation loop by construction. This module has the code below it: every firing
that finds no current invocation engages a new loop on the scheduler, the loops are numbered and
each has a state of its own, and `destroy()` is called by any number of threads, each of which sets
`destroyed`, waits for its handler on the strand, and waits for the current invocation if there is
one. Callers, strand, timer and workers interleave at the critical sections of the task's mutex.

* `Inv.current` is the invariant that carries the rest: the current invocation is the one loop that
  is queued, running or has thrown.
* `toTask` forgets the loops and the callers of `destroy()`, and `step_refines` and `run_refines` say
  that what is left is the `Task` that producers and consumers are modelled with.
-/

namespace Hareflow.Invocations

open Foundations

/-- The handlers that wait on the strand of an `AsyncTask`. -/
inductive Handler
  | now
  | after
  /-- The completion of a timer that was not cancelled in time. -/
  | expired
  | cancel
  /-- Dispatched by the call `d` of `destroy()`, which waits for it. -/
  | destroy (d : ℕ)
  deriving DecidableEq, Repr

/-- Where an invocation loop is. -/
inductive LoopPc
  /-- Not engaged yet. -/
  | idle
  /-- Queued on the scheduler, or between two invocations: about to take the mutex. -/
  | head
  /-- In the function. -/
  | running
  | ended
  /-- The function threw out of the loop. -/
  | threw
  deriving DecidableEq, Repr

/-- The loop is queued or running. -/
def LoopPc.isActive : LoopPc → Bool
  | head | running => true
  | _ => false

/-- The loop is queued, running or was left by an exception. -/
def LoopPc.isEngaged : LoopPc → Bool
  | head | running | threw => true
  | _ => false

theorem isEngaged_of_isActive {pc : LoopPc} (h : pc.isActive = true) : pc.isEngaged = true := by
  cases pc <;> first | rfl | cases h

theorem isActive_of_isEngaged {pc : LoopPc} (h : pc.isEngaged = true) (hthrew : pc ≠ .threw) :
    pc.isActive = true := by
  cases pc <;> first | rfl | exact absurd rfl hthrew | cases h

/-- Where a call of `ReschedulableTask::destroy` is. -/
inductive DestroyPc
  | idle
  /-- Waits for its handler on the strand. -/
  | dispatched
  /-- The handler has run. -/
  | released
  /-- Waits for the future of loop `k`. -/
  | waiting (k : ℕ)
  | returned
  /-- The future had an exception. -/
  | threw
  deriving DecidableEq, Repr

/-- The state of a `ReschedulableTask`, with the callers of `destroy()` and a count of the firings
and of the invocations. -/
structure State where
  /-- The handlers on the strand, first to run first. -/
  posts : List Handler := []
  /-- The timer is armed. -/
  timed : Bool := false
  /-- `m_function` of the `AsyncTask` is set. -/
  function : Bool := true
  /-- `async_task` is not null. -/
  asyncTask : Bool := true
  destroyed : Bool := false
  /-- `pending_invocations`. -/
  pending : ℕ := 0
  /-- `current_invocation`: the loop whose future it is. -/
  current : Option ℕ := none
  /-- The number of loops engaged so far. -/
  nextLoop : ℕ := 0
  loops : ℕ → LoopPc := fun _ => .idle
  destroys : ℕ → DestroyPc := fun _ => .idle
  /-- The calls of the function of the `AsyncTask`. -/
  firings : ℕ := 0
  /-- The calls of the task's function. -/
  started : ℕ := 0

namespace State

def post (s : State) (h : Handler) : State := { s with posts := s.posts ++ [h] }

def setLoop (s : State) (k : ℕ) (pc : LoopPc) : State :=
  { s with loops := Function.update s.loops k pc }

def setDestroy (s : State) (d : ℕ) (pc : DestroyPc) : State :=
  { s with destroys := Function.update s.destroys d pc }

def scheduleNow (s : State) : State :=
  if s.asyncTask ∧ s.destroyed = false then s.post .now else s

def scheduleAfter (s : State) : State :=
  if s.asyncTask ∧ s.destroyed = false then s.post .after else s

def cancel (s : State) : State := if s.asyncTask then s.post .cancel else s

/-- `destroy()` up to the call of `AsyncTask::destroy`. -/
def destroy (s : State) (d : ℕ) : State :=
  if s.asyncTask then ({ s with destroyed := true }.post (.destroy d)).setDestroy d .dispatched
  else s.setDestroy d .returned

/-- The function of the `AsyncTask`: count an invocation and engage a loop if there is none. -/
def fire (s : State) : State :=
  if s.destroyed then { s with firings := s.firings + 1 }
  else if s.pending + 1 = 1 ∧ s.current = none then
    { s.setLoop s.nextLoop .head with
      firings := s.firings + 1
      pending := s.pending + 1
      current := some s.nextLoop
      nextLoop := s.nextLoop + 1 }
  else { s with firings := s.firings + 1, pending := s.pending + 1 }

/-- Run a handler of the strand. -/
def handle (s : State) : Handler → State
  | .now => if s.function then { s with timed := false }.fire else { s with timed := false }
  | .after => if s.function then { s with timed := true } else s
  | .expired => if s.function then s.fire else s
  | .cancel => { s with timed := false }
  | .destroy d => { s with function := false, timed := false }.setDestroy d .released

/-- Loop `k` takes the mutex at its head: it takes an invocation and calls the function, or it
clears `current_invocation` and ends. -/
def loopHead (s : State) (k : ℕ) : State :=
  if s.destroyed = false ∧ 0 < s.pending then
    { s.setLoop k .running with pending := s.pending - 1, started := s.started + 1 }
  else { s.setLoop k .ended with current := none }

/-- `destroy()` takes the mutex again: it waits for the current invocation or is done. -/
def afterRelease (s : State) (d : ℕ) : State :=
  match s.current with
  | some k => s.setDestroy d (.waiting k)
  | none => { s.setDestroy d .returned with asyncTask := false }

/-- The future of a loop, once it is ready. -/
def afterWait (s : State) (d k : ℕ) : Option State :=
  match s.loops k with
  | .ended => some { s.setDestroy d .returned with asyncTask := false }
  | .threw => some (s.setDestroy d .threw)
  | _ => none

end State

inductive Act
  | scheduleNow
  | scheduleAfter
  | cancel
  /-- A call of `destroy()` by a thread, up to its first wait. -/
  | destroy (d : ℕ)
  /-- The strand runs its next handler. -/
  | strand
  /-- The timer expires. -/
  | expire
  /-- Loop `k` takes the mutex. -/
  | head (k : ℕ)
  /-- The function returns to loop `k`. -/
  | functionReturns (k : ℕ)
  /-- The function throws out of loop `k`. -/
  | functionThrows (k : ℕ)
  /-- Call `d` of `destroy()` goes on after its handler has run. -/
  | released (d : ℕ)
  /-- Call `d` of `destroy()` goes on after the future it waits for is ready. -/
  | joined (d : ℕ)
  deriving DecidableEq, Repr

def step (s : State) : Act → Option State
  | .scheduleNow => some s.scheduleNow
  | .scheduleAfter => some s.scheduleAfter
  | .cancel => some s.cancel
  | .destroy d => if s.destroys d = .idle then some (s.destroy d) else none
  | .strand =>
    match s.posts with
    | [] => none
    | h :: posts => some ({ s with posts }.handle h)
  | .expire => if s.timed then some ({ s with timed := false }.post .expired) else none
  | .head k => if s.loops k = .head then some (s.loopHead k) else none
  | .functionReturns k => if s.loops k = .running then some (s.setLoop k .head) else none
  | .functionThrows k => if s.loops k = .running then some (s.setLoop k .threw) else none
  | .released d => if s.destroys d = .released then some (s.afterRelease d) else none
  | .joined d =>
    match s.destroys d with
    | .waiting k => s.afterWait d k
    | _ => none

def machine : Machine State Act where
  Init s := s = {}
  step := step

/-- What a handler can do: set the timer, fire, or run for a call of `destroy()`. -/
theorem handle_cases (s : State) (handler : Handler) :
    (∃ timed, s.handle handler = { s with timed }) ∨
      (∃ timed, s.handle handler = { s with timed }.fire) ∨
      ∃ d, handler = .destroy d ∧
        s.handle handler = { s with function := false, timed := false }.setDestroy d .released := by
  cases handler with
  | now =>
    rw [State.handle]
    split
    · exact .inr (.inl ⟨false, rfl⟩)
    · exact .inl ⟨false, rfl⟩
  | after =>
    rw [State.handle]
    split
    · exact .inl ⟨true, rfl⟩
    · exact .inl ⟨s.timed, rfl⟩
  | expired =>
    rw [State.handle]
    split
    · exact .inr (.inl ⟨s.timed, rfl⟩)
    · exact .inl ⟨s.timed, rfl⟩
  | cancel => exact .inl ⟨false, rfl⟩
  | destroy d => exact .inr (.inr ⟨d, rfl, rfl⟩)

/-- What a step can do. -/
inductive Change (s : State) : Act → State → Prop
  /-- A call of the owner that does nothing: the task is destroyed. -/
  | ignored {a : Act} (ha : a = .scheduleNow ∨ a = .scheduleAfter ∨ a = .cancel) : Change s a s
  | scheduleNow (hd : s.destroyed = false) : Change s .scheduleNow (s.post .now)
  | scheduleAfter (hd : s.destroyed = false) : Change s .scheduleAfter (s.post .after)
  | cancel : Change s .cancel (s.post .cancel)
  | destroy (d : ℕ) : Change s (.destroy d) (s.destroy d)
  | strand {handler : Handler} {posts : List Handler} (hposts : s.posts = handler :: posts) :
    Change s .strand ({ s with posts }.handle handler)
  | expire (htimed : s.timed = true) : Change s .expire ({ s with timed := false }.post .expired)
  | head {k : ℕ} (hk : s.loops k = .head) : Change s (.head k) (s.loopHead k)
  | functionReturns {k : ℕ} (hk : s.loops k = .running) :
    Change s (.functionReturns k) (s.setLoop k .head)
  | functionThrows {k : ℕ} (hk : s.loops k = .running) :
    Change s (.functionThrows k) (s.setLoop k .threw)
  | released {d : ℕ} (hd : s.destroys d = .released) : Change s (.released d) (s.afterRelease d)
  | joined {d k : ℕ} (hd : s.destroys d = .waiting k) (hk : s.loops k = .ended) :
    Change s (.joined d) { s.setDestroy d .returned with asyncTask := false }
  | rethrown {d k : ℕ} (hd : s.destroys d = .waiting k) (hk : s.loops k = .threw) :
    Change s (.joined d) (s.setDestroy d .threw)

theorem change_of_step {s t : State} {a : Act} (hstep : step s a = some t) : Change s a t := by
  cases a with
  | scheduleNow =>
    obtain rfl := Option.some.inj hstep
    rw [State.scheduleNow]
    split
    · rename_i hpost
      exact .scheduleNow hpost.2
    · exact .ignored (by simp)
  | scheduleAfter =>
    obtain rfl := Option.some.inj hstep
    rw [State.scheduleAfter]
    split
    · rename_i hpost
      exact .scheduleAfter hpost.2
    · exact .ignored (by simp)
  | cancel =>
    obtain rfl := Option.some.inj hstep
    rw [State.cancel]
    split
    · exact .cancel
    · exact .ignored (by simp)
  | destroy d =>
    obtain ⟨-, hstep⟩ := Option.ite_none_right_eq_some.1 hstep
    obtain rfl := Option.some.inj hstep
    exact .destroy d
  | strand =>
    simp only [step] at hstep
    split at hstep
    · cases hstep
    · rename_i handler posts hposts
      obtain rfl := Option.some.inj hstep
      exact .strand hposts
  | expire =>
    obtain ⟨htimed, hstep⟩ := Option.ite_none_right_eq_some.1 hstep
    obtain rfl := Option.some.inj hstep
    exact .expire htimed
  | head k =>
    obtain ⟨hk, hstep⟩ := Option.ite_none_right_eq_some.1 hstep
    obtain rfl := Option.some.inj hstep
    exact .head hk
  | functionReturns k =>
    obtain ⟨hk, hstep⟩ := Option.ite_none_right_eq_some.1 hstep
    obtain rfl := Option.some.inj hstep
    exact .functionReturns hk
  | functionThrows k =>
    obtain ⟨hk, hstep⟩ := Option.ite_none_right_eq_some.1 hstep
    obtain rfl := Option.some.inj hstep
    exact .functionThrows hk
  | released d =>
    obtain ⟨hd, hstep⟩ := Option.ite_none_right_eq_some.1 hstep
    obtain rfl := Option.some.inj hstep
    exact .released hd
  | joined d =>
    simp only [step] at hstep
    split at hstep
    · rename_i k hd
      rw [State.afterWait] at hstep
      split at hstep
      · rename_i hk
        obtain rfl := Option.some.inj hstep
        exact .joined hd hk
      · rename_i hk
        obtain rfl := Option.some.inj hstep
        exact .rethrown hd hk
      · cases hstep
    · cases hstep

/-! ## The invariant -/

/-- The invariant of a task, whether or not its function throws. -/
structure Inv (s : State) : Prop where
  fresh : ∀ k, s.nextLoop ≤ k → s.loops k = .idle
  /-- The current invocation is the one loop that is queued, running or has thrown. -/
  current : ∀ k, s.current = some k ↔ (s.loops k).isEngaged = true
  counted : s.started + s.pending ≤ s.firings
  /-- Until the task is destroyed every firing is an invocation, started or pending. -/
  exact : s.destroyed = false → s.firings = s.started + s.pending
  engaged : s.destroyed = false → 0 < s.pending → s.current ≠ none
  posted : ∀ d, .destroy d ∈ s.posts → s.destroyed = true
  destroying : ∀ d, s.destroys d ≠ .idle → s.destroyed = true
  /-- A call that waits for a loop waits for the last one. -/
  waiting : ∀ d k, s.destroys d = .waiting k → s.current = none ∨ s.current = some k
  returned : ∀ d, s.destroys d = .returned → s.current = none
  detached : s.asyncTask = false → s.destroyed = true ∧ s.current = none

theorem inv_init : Inv {} where
  fresh := by simp
  current := by simp [LoopPc.isEngaged]
  counted := by simp
  exact := by simp
  engaged := by simp
  posted := by simp
  destroying := by simp
  waiting := by simp
  returned := by simp
  detached := by simp

namespace Inv

variable {s : State}

/-- Two loops that are queued or running are the same. -/
theorem eq_of_engaged (h : Inv s) {k l : ℕ} (hk : (s.loops k).isEngaged = true)
    (hl : (s.loops l).isEngaged = true) : k = l :=
  Option.some.inj (((h.current k).2 hk).symm.trans ((h.current l).2 hl))

theorem not_engaged_of_none (h : Inv s) (hnone : s.current = none) (k : ℕ) :
    (s.loops k).isEngaged = false := by
  by_contra hk
  have := (h.current k).2 (by simpa using hk)
  rw [hnone] at this
  cases this

/-- The strand, its timer and its function have no part in the invariant, apart from the handlers
of `destroy()`. -/
theorem setStrand (h : Inv s) {posts : List Handler} (timed function : Bool)
    (hposts : ∀ d, .destroy d ∈ posts → s.destroyed = true) :
    Inv { s with posts, timed, function } :=
  { h with posted := hposts }

theorem post (h : Inv s) {handler : Handler} (hnew : ∀ d, handler ≠ .destroy d) :
    Inv (s.post handler) :=
  h.setStrand s.timed s.function fun d hd => by
    rcases List.mem_append.1 hd with hd | hd
    · exact h.posted d hd
    · exact absurd (List.mem_singleton.1 hd).symm (hnew d)

/-- A call of `destroy()` moves on, while the task is destroyed. -/
theorem setDestroy (h : Inv s) (d : ℕ) {pc : DestroyPc} (hdestroyed : s.destroyed = true)
    (hwaiting : ∀ k, pc = .waiting k → s.current = none ∨ s.current = some k)
    (hreturned : pc = .returned → s.current = none) : Inv (s.setDestroy d pc) :=
  { h with
    destroying := fun _ _ => hdestroyed
    waiting := by
      intro d' k hd'
      by_cases hdd : d' = d
      · subst hdd
        exact hwaiting k (by simpa [State.setDestroy] using hd')
      · exact h.waiting d' k (by simpa [State.setDestroy, Function.update_of_ne hdd] using hd')
    returned := by
      intro d' hd'
      by_cases hdd : d' = d
      · subst hdd
        exact hreturned (by simpa [State.setDestroy] using hd')
      · exact h.returned d' (by simpa [State.setDestroy, Function.update_of_ne hdd] using hd') }

/-- A loop moves on, and stays the current invocation. -/
theorem setLoop (h : Inv s) {k : ℕ} {pc : LoopPc} (hk : (s.loops k).isEngaged = true)
    (hpc : pc.isEngaged = true) : Inv (s.setLoop k pc) :=
  { h with
    fresh := by
      intro l hl
      have hidle := h.fresh l hl
      have hne : l ≠ k := by
        rintro rfl
        rw [hidle] at hk
        cases hk
      simpa [State.setLoop, Function.update_of_ne hne] using hidle
    current := by
      intro l
      by_cases hlk : l = k
      · subst hlk
        simpa [State.setLoop, hpc] using (h.current l).2 hk
      · simpa [State.setLoop, Function.update_of_ne hlk] using h.current l }

/-- A firing engages a loop when there is no current invocation. -/
theorem fire (h : Inv s) : Inv s.fire := by
  rw [State.fire]
  split
  · rename_i hdestroyed
    exact { h with
      counted := Nat.le_succ_of_le h.counted
      exact := by simp [hdestroyed]
      engaged := by simp [hdestroyed] }
  · rename_i hdestroyed
    have hdestroyed : s.destroyed = false := by simpa using hdestroyed
    have hexact := h.exact hdestroyed
    split
    · rename_i hengage
      obtain ⟨-, hnone⟩ := hengage
      have hidle := h.not_engaged_of_none hnone
      exact
        { fresh := by
            intro k hk
            have hlt : s.nextLoop + 1 ≤ k := hk
            simpa [State.setLoop, Function.update_of_ne (show k ≠ s.nextLoop by omega)] using
              h.fresh k (by omega)
          current := by
            intro k
            by_cases hk : k = s.nextLoop
            · subst hk
              simp [State.setLoop, LoopPc.isEngaged]
            · simpa [State.setLoop, Function.update_of_ne hk, hidle k] using Ne.symm hk
          counted := Nat.succ_le_succ h.counted
          exact := fun _ => congrArg Nat.succ hexact
          engaged := by simp
          posted := h.posted
          destroying := h.destroying
          waiting := by
            intro d k hd
            have := h.destroying d (by rw [show s.destroys d = .waiting k from hd]; simp)
            simp [hdestroyed] at this
          returned := by
            intro d hd
            have := h.destroying d (by rw [show s.destroys d = .returned from hd]; simp)
            simp [hdestroyed] at this
          detached := by
            intro ha
            have := (h.detached ha).1
            simp [hdestroyed] at this }
    · rename_i hbusy
      exact { h with
        counted := Nat.succ_le_succ h.counted
        exact := fun _ => congrArg Nat.succ hexact
        engaged := by
          intro _ _ hnone
          rcases Nat.eq_zero_or_pos s.pending with h0 | h0
          · exact hbusy ⟨by omega, hnone⟩
          · exact h.engaged hdestroyed h0 hnone }

/-- A handler of the strand. -/
theorem handle (h : Inv s) {handler : Handler} (hd : ∀ d, handler = .destroy d → s.destroyed = true) :
    Inv (s.handle handler) := by
  have htimed : ∀ timed, Inv { s with timed } := fun timed => h.setStrand timed s.function h.posted
  rcases handle_cases s handler with ⟨timed, heq⟩ | ⟨timed, heq⟩ | ⟨d, hdestroy, heq⟩
  · exact heq ▸ htimed timed
  · exact heq ▸ (htimed timed).fire
  · rw [heq]
    exact (h.setStrand false false h.posted).setDestroy d (hd d hdestroy) nofun nofun

/-- A loop at its head takes an invocation, or ends and clears the current invocation. -/
theorem loopHead (h : Inv s) {k : ℕ} (hk : s.loops k = .head) : Inv (s.loopHead k) := by
  have hengaged : (s.loops k).isEngaged = true := by rw [hk]; rfl
  have hcurrent : s.current = some k := (h.current k).2 hengaged
  rw [State.loopHead]
  split
  · rename_i hmore
    have hset : Inv (s.setLoop k .running) := h.setLoop hengaged rfl
    have hcounted := h.counted
    exact { hset with
      counted := by show s.started + 1 + (s.pending - 1) ≤ s.firings; omega
      exact := by
        intro hd
        have := h.exact hd
        show s.firings = s.started + 1 + (s.pending - 1)
        omega
      engaged := by
        intro _ _ hnone
        rw [show s.current = none from hnone] at hcurrent
        cases hcurrent }
  · rename_i hdone
    exact { h with
      fresh := by
        intro l hl
        have hidle := h.fresh l hl
        have hne : l ≠ k := by
          rintro rfl
          rw [hidle] at hk
          cases hk
        simpa [State.setLoop, Function.update_of_ne hne] using hidle
      current := by
        intro l
        by_cases hlk : l = k
        · subst hlk
          simp [State.setLoop, LoopPc.isEngaged]
        · have hother : (s.loops l).isEngaged ≠ true := fun hl => hlk (h.eq_of_engaged hl hengaged)
          simp [State.setLoop, Function.update_of_ne hlk, hother]
      engaged := fun hd hp => absurd ⟨hd, hp⟩ hdone
      waiting := fun _ _ _ => .inl rfl
      returned := fun _ _ => rfl
      detached := fun ha => ⟨(h.detached ha).1, rfl⟩ }

/-- A call of `destroy()` up to its first wait. -/
theorem destroy (h : Inv s) (d : ℕ) : Inv (s.destroy d) := by
  rw [State.destroy]
  split
  · rename_i hasync
    have hdestroyed : Inv ({ s with destroyed := true }.post (.destroy d)) :=
      { h with
        exact := by intro hd; cases hd
        engaged := by intro hd; cases hd
        posted := fun _ _ => rfl
        destroying := fun _ _ => rfl
        detached := by
          intro ha
          rw [show s.asyncTask = false from ha] at hasync
          cases hasync }
    exact hdestroyed.setDestroy d rfl nofun nofun
  · rename_i hasync
    obtain ⟨hdestroyed, hnone⟩ := h.detached (by simpa using hasync)
    exact h.setDestroy d hdestroyed nofun fun _ => hnone

/-- The end of a call of `destroy()`. -/
theorem detach (h : Inv s) (d : ℕ) (hdestroyed : s.destroyed = true) (hnone : s.current = none) :
    Inv { s.setDestroy d .returned with asyncTask := false } := by
  have hset : Inv (s.setDestroy d .returned) := h.setDestroy d hdestroyed nofun fun _ => hnone
  exact { hset with detached := fun _ => ⟨hdestroyed, hnone⟩ }

theorem afterRelease (h : Inv s) {d : ℕ} (hd : s.destroys d = .released) :
    Inv (s.afterRelease d) := by
  have hdestroyed : s.destroyed = true := h.destroying d (by simp [hd])
  rw [State.afterRelease]
  split
  · rename_i k hcurrent
    refine h.setDestroy d hdestroyed ?_ nofun
    intro k' hk'
    obtain rfl := DestroyPc.waiting.inj hk'
    exact .inr hcurrent
  · rename_i hnone
    exact h.detach d hdestroyed hnone

/-- A call that has waited for the end of a loop: the loop is not the current invocation any more. -/
theorem joined (h : Inv s) {d k : ℕ} (hd : s.destroys d = .waiting k) (hk : s.loops k = .ended) :
    Inv { s.setDestroy d .returned with asyncTask := false } := by
  have hdestroyed : s.destroyed = true := h.destroying d (by simp [hd])
  have hnone : s.current = none := by
    refine (h.waiting d k hd).resolve_right fun hcurrent => ?_
    have := (h.current k).1 hcurrent
    rw [hk] at this
    cases this
  exact h.detach d hdestroyed hnone

theorem rethrown (h : Inv s) {d k : ℕ} (hd : s.destroys d = .waiting k) :
    Inv (s.setDestroy d .threw) :=
  h.setDestroy d (h.destroying d (by simp [hd])) nofun nofun

end Inv

theorem inv_step {s t : State} {a : Act} (h : Inv s) (hstep : step s a = some t) : Inv t := by
  cases change_of_step hstep with
  | ignored => exact h
  | scheduleNow => exact h.post (by simp)
  | scheduleAfter => exact h.post (by simp)
  | cancel => exact h.post (by simp)
  | destroy d => exact h.destroy d
  | @strand handler posts hposts =>
    have hrest : Inv { s with posts } := h.setStrand s.timed s.function fun d hd =>
      h.posted d (hposts ▸ List.mem_cons_of_mem handler hd)
    exact hrest.handle fun d hd => h.posted d (by simp [hposts, hd])
  | expire => exact (h.setStrand false s.function h.posted).post (by simp)
  | head hk => exact h.loopHead hk
  | functionReturns hk => exact h.setLoop (by rw [hk]; rfl) rfl
  | functionThrows hk => exact h.setLoop (by rw [hk]; rfl) rfl
  | released hd => exact h.afterRelease hd
  | joined hd hk => exact h.joined hd hk
  | rethrown hd _ => exact h.rethrown hd

theorem inv_run {t : State} {as : List Act} (h : machine.run {} as = some t) : Inv t :=
  Machine.run_keeps (P := Inv) inv_step inv_init h

/-! ## After `destroy()` -/

theorem fire_of_destroyed {s : State} (hd : s.destroyed = true) :
    s.fire = { s with firings := s.firings + 1 } := by
  rw [State.fire, if_pos hd]

/-- A task that is destroyed stays so, starts no invocation and engages no loop. -/
structure Closed (s t : State) : Prop where
  destroyed : t.destroyed = true
  started : t.started = s.started
  current : s.current = none → t.current = none

theorem closed_handle {s : State} (hd : s.destroyed = true) (handler : Handler) :
    Closed s (s.handle handler) := by
  rcases handle_cases s handler with ⟨timed, heq⟩ | ⟨timed, heq⟩ | ⟨d, -, heq⟩
  · rw [heq]
    exact ⟨hd, rfl, id⟩
  · rw [heq, fire_of_destroyed (s := { s with timed }) hd]
    exact ⟨hd, rfl, id⟩
  · rw [heq]
    exact ⟨hd, rfl, id⟩

theorem closed_step {s t : State} {a : Act} (hd : s.destroyed = true)
    (hstep : step s a = some t) : Closed s t := by
  cases change_of_step hstep with
  | @strand handler posts _ =>
    obtain ⟨hd', hstarted, hcurrent⟩ := closed_handle (s := { s with posts }) hd handler
    exact ⟨hd', hstarted, hcurrent⟩
  | destroy d =>
    rw [State.destroy]
    split
    · exact ⟨rfl, rfl, id⟩
    · exact ⟨hd, rfl, id⟩
  | head _ =>
    rw [State.loopHead, if_neg (by simp [hd])]
    exact ⟨hd, rfl, fun _ => rfl⟩
  | released _ =>
    rw [State.afterRelease]
    split <;> exact ⟨hd, rfl, id⟩
  | _ => exact ⟨hd, rfl, id⟩

theorem closed_run {s t : State} {as : List Act} (hd : s.destroyed = true)
    (h : machine.run s as = some t) : Closed s t :=
  Machine.run_keeps (M := machine) (P := Closed s)
    (fun hs hstep =>
      have ht := closed_step hs.destroyed hstep
      ⟨ht.destroyed, ht.started.trans hs.started, fun hnone => ht.current (hs.current hnone)⟩)
    ⟨hd, rfl, id⟩ h

/-- **A task runs its function one invocation at a time, and never after `destroy()`.** In every
state that a run reaches, at most one loop is in the function, and no more invocations have been
started than there were firings. Once a call of `destroy()` has returned, no invocation is running
and none is started, whatever happens afterwards. -/
theorem invocations_exclusive (as : List Act) (t : State) (h : machine.run {} as = some t) :
    (∀ k l, t.loops k = .running → t.loops l = .running → k = l) ∧
    t.started ≤ t.firings ∧
    ∀ d, t.destroys d = .returned → (∀ k, t.loops k ≠ .running) ∧
      ∀ bs u, machine.run t bs = some u → (∀ k, u.loops k ≠ .running) ∧ u.started = t.started := by
  have hinv := inv_run h
  have hcounted := hinv.counted
  refine ⟨?_, by omega, ?_⟩
  · intro k l hk hl
    exact hinv.eq_of_engaged (by rw [hk]; rfl) (by rw [hl]; rfl)
  · intro d hd
    have hnone := hinv.returned d hd
    have hdestroyed : t.destroyed = true := hinv.destroying d (by simp [hd])
    have hquiet : ∀ {u : State}, Inv u → u.current = none → ∀ k, u.loops k ≠ .running := by
      intro u hu hnone k hk
      have := hu.not_engaged_of_none hnone k
      simp [hk, LoopPc.isEngaged] at this
    refine ⟨hquiet hinv hnone, fun bs u hu => ?_⟩
    have hclosed := closed_run hdestroyed hu
    have hinv' : Inv u := Machine.run_keeps (P := Inv) inv_step hinv hu
    exact ⟨hquiet hinv' (hclosed.current hnone), hclosed.started⟩

/-- Two firings, of which `destroy()` lets the first finish and drops the second. -/
def backlogDropped : List Act :=
  [.scheduleNow, .scheduleNow, .strand, .strand, .head 0, .destroy 0, .strand, .released 0,
    .functionReturns 0, .head 0, .joined 0]

theorem invocations_exclusive_backlogDropped :
    ∃ t, machine.run {} backlogDropped = some t ∧ t.destroys 0 = .returned ∧ t.pending = 1 ∧
      ∀ k, t.loops k ≠ .running := by
  obtain ⟨t, ht, hreturned, hpending⟩ : ∃ t, machine.run {} backlogDropped = some t ∧
      t.destroys 0 = .returned ∧ t.pending = 1 := ⟨_, rfl, rfl, rfl⟩
  exact ⟨t, ht, hreturned, hpending,
    ((invocations_exclusive backlogDropped t ht).2.2 0 hreturned).1⟩

/-! ## A function that throws -/

theorem loops_fire (s : State) :
    s.fire.loops = s.loops ∨ s.fire.loops = Function.update s.loops s.nextLoop .head := by
  rw [State.fire]
  split
  · exact .inl rfl
  · split
    · exact .inr rfl
    · exact .inl rfl

theorem loops_handle (s : State) (handler : Handler) :
    (s.handle handler).loops = s.loops ∨
      (s.handle handler).loops = Function.update s.loops s.nextLoop .head := by
  rcases handle_cases s handler with ⟨timed, heq⟩ | ⟨timed, heq⟩ | ⟨d, -, heq⟩
  · exact .inl (by rw [heq])
  · rw [heq]
    exact loops_fire { s with timed }
  · exact .inl (by rw [heq]; rfl)

/-- A step moves at most one loop, and never one that has thrown. -/
theorem loops_step {s t : State} {a : Act} (h : Inv s) (hstep : step s a = some t) :
    (t.loops = s.loops ∧ ∀ k, a ≠ .functionThrows k) ∨
      ∃ k pc, t.loops = Function.update s.loops k pc ∧ s.loops k ≠ .threw ∧
        (pc = .threw ∧ a = .functionThrows k ∨ pc ≠ .threw ∧ ∀ l, a ≠ .functionThrows l) := by
  cases change_of_step hstep with
  | ignored ha =>
    refine .inl ⟨rfl, fun k => ?_⟩
    rcases ha with rfl | rfl | rfl <;> simp
  | destroy d =>
    rw [State.destroy]
    split <;> exact .inl ⟨rfl, by simp⟩
  | @strand handler posts hposts =>
    rcases loops_handle { s with posts } handler with hsame | hnew
    · exact .inl ⟨hsame, by simp⟩
    · refine .inr ⟨s.nextLoop, .head, hnew, ?_, .inr ⟨by simp, by simp⟩⟩
      simp [h.fresh s.nextLoop (Nat.le_refl _)]
  | @head k hk =>
    rw [State.loopHead]
    split
    · exact .inr ⟨k, .running, rfl, by simp [hk], .inr ⟨by simp, by simp⟩⟩
    · exact .inr ⟨k, .ended, rfl, by simp [hk], .inr ⟨by simp, by simp⟩⟩
  | @functionReturns k hk => exact .inr ⟨k, .head, rfl, by simp [hk], .inr ⟨by simp, by simp⟩⟩
  | @functionThrows k hk => exact .inr ⟨k, .threw, rfl, by simp [hk], .inl ⟨rfl, rfl⟩⟩
  | released _ =>
    rw [State.afterRelease]
    split <;> exact .inl ⟨rfl, by simp⟩
  | _ => exact .inl ⟨rfl, by simp⟩

/-- The loops that have thrown are those that threw before and the one that throws now. -/
theorem threw_step {s t : State} {a : Act} (h : Inv s) (hstep : step s a = some t) (k : ℕ) :
    t.loops k = .threw ↔ s.loops k = .threw ∨ a = .functionThrows k := by
  rcases loops_step h hstep with ⟨hloops, ha⟩ | ⟨l, pc, hloops, hl, ⟨rfl, rfl⟩ | ⟨hpc, ha⟩⟩
  · simp [hloops, ha k]
  · by_cases hkl : k = l
    · simp [hloops, hkl]
    · simp [hloops, Function.update_of_ne hkl, Ne.symm hkl]
  · by_cases hkl : k = l
    · simp [hloops, hkl, hpc, hl, ha l]
    · simp [hloops, Function.update_of_ne hkl, ha k]

theorem threw_run {s t : State} {as : List Act} (h : Inv s) (hrun : machine.run s as = some t)
    (k : ℕ) : t.loops k = .threw ↔ s.loops k = .threw ∨ .functionThrows k ∈ as := by
  induction as generalizing s with
  | nil =>
    obtain rfl := Option.some.inj hrun
    simp
  | cons a as ih =>
    obtain ⟨u, hu, hrun⟩ := Machine.run_cons.1 hrun
    rw [ih (inv_step h hu) hrun, threw_step h hu]
    simp [or_assoc, eq_comm]

/-- **No firing is lost, exactly as long as the function does not throw.** In a state that is not
destroyed, every firing is an invocation, started or pending, pending invocations have a loop that is
queued or running, and the current invocation is engaged exactly when such a loop exists, if and only
if no invocation has thrown. -/
theorem firings_kept_iff (as : List Act) (t : State) (h : machine.run {} as = some t)
    (hd : t.destroyed = false) :
    (t.firings = t.started + t.pending ∧
      (0 < t.pending → ∃ k, (t.loops k).isActive = true) ∧
      (t.current ≠ none ↔ ∃ k, (t.loops k).isActive = true)) ↔
    ∀ k, .functionThrows k ∉ as := by
  have hinv := inv_run h
  have hthrew := fun k => threw_run inv_init h k
  constructor
  · rintro ⟨-, -, hcurrent⟩ k hk
    have hk' : t.loops k = .threw := (hthrew k).2 (.inr hk)
    have hsome : t.current = some k := (hinv.current k).2 (by rw [hk']; rfl)
    obtain ⟨l, hl⟩ := hcurrent.1 (by simp [hsome])
    -- a loop that is queued or running is the current invocation, and that one has thrown
    obtain rfl := hinv.eq_of_engaged (isEngaged_of_isActive hl) (by rw [hk']; rfl)
    rw [hk'] at hl
    cases hl
  · intro hnone
    have hactive : ∀ k, t.current = some k → (t.loops k).isActive = true := by
      intro k hk
      have hnot : t.loops k ≠ .threw := fun hthrown =>
        ((hthrew k).1 hthrown).elim nofun (hnone k)
      exact isActive_of_isEngaged ((hinv.current k).1 hk) hnot
    have hcurrent : t.current ≠ none ↔ ∃ k, (t.loops k).isActive = true := by
      constructor
      · intro hne
        obtain ⟨k, hk⟩ := Option.ne_none_iff_exists'.1 hne
        exact ⟨k, hactive k hk⟩
      · rintro ⟨k, hk⟩
        rw [(hinv.current k).2 (isEngaged_of_isActive hk)]
        exact Option.some_ne_none k
    exact ⟨hinv.exact hd, fun hpending => hcurrent.1 (hinv.engaged hd hpending), hcurrent⟩

/-- Two firings and an invocation that throws in between. -/
def thrown : List Act :=
  [.scheduleNow, .strand, .head 0, .functionThrows 0, .scheduleNow, .strand]

theorem firings_kept_iff_twoFirings :
    ∃ t, machine.run {} [.scheduleNow, .scheduleNow, .strand, .strand, .head 0] = some t ∧
      t.destroyed = false ∧ t.firings = t.started + t.pending ∧
      ∃ k, (t.loops k).isActive = true := by
  obtain ⟨t, ht, hd, hpending⟩ : ∃ t, machine.run {} [.scheduleNow, .scheduleNow, .strand, .strand,
      .head 0] = some t ∧ t.destroyed = false ∧ t.pending = 1 := ⟨_, rfl, rfl, rfl⟩
  have h := (firings_kept_iff _ t ht hd).2 (by simp)
  exact ⟨t, ht, hd, h.1, h.2.1 (by omega)⟩

/-- The second firing is lost: it is pending, the current invocation is engaged, and there is no loop
that is queued or running. -/
theorem firing_lost_of_thrown :
    ∃ t, machine.run {} thrown = some t ∧ t.destroyed = false ∧ t.pending = 1 ∧
      t.current ≠ none ∧ ¬∃ k, (t.loops k).isActive = true := by
  obtain ⟨t, ht, hd, hpending, hcurrent, hloop⟩ : ∃ t, machine.run {} thrown = some t ∧
      t.destroyed = false ∧ t.pending = 1 ∧ t.current = some 0 ∧ t.loops 0 = .threw :=
    ⟨_, rfl, rfl, rfl, rfl, rfl⟩
  refine ⟨t, ht, hd, hpending, by simp [hcurrent], ?_⟩
  rintro ⟨k, hk⟩
  obtain rfl := (inv_run ht).eq_of_engaged (isEngaged_of_isActive hk) (l := 0) (by rw [hloop]; rfl)
  rw [hloop] at hk
  cases hk

/-! ## The numbers of the loops -/

theorem nextLoop_fire (s : State) : s.nextLoop ≤ s.fire.nextLoop := by
  rw [State.fire]
  split
  · exact Nat.le_refl _
  · split
    · exact Nat.le_succ _
    · exact Nat.le_refl _

theorem nextLoop_handle (s : State) (handler : Handler) : s.nextLoop ≤ (s.handle handler).nextLoop := by
  rcases handle_cases s handler with ⟨timed, heq⟩ | ⟨timed, heq⟩ | ⟨d, -, heq⟩
  · have hnext := congrArg State.nextLoop heq
    exact Nat.le_of_eq hnext.symm
  · rw [heq]
    exact nextLoop_fire { s with timed }
  · have hnext := congrArg State.nextLoop heq
    exact Nat.le_of_eq hnext.symm

/-- The loops are numbered upwards. -/
theorem nextLoop_step {s t : State} {a : Act} (hstep : step s a = some t) :
    s.nextLoop ≤ t.nextLoop := by
  cases change_of_step hstep with
  | @strand handler posts _ => exact nextLoop_handle { s with posts } handler
  | destroy d =>
    rw [State.destroy]
    split <;> exact Nat.le_refl _
  | @head k _ =>
    rw [State.loopHead]
    split <;> exact Nat.le_refl _
  | released _ =>
    rw [State.afterRelease]
    split <;> exact Nat.le_refl _
  | _ => exact Nat.le_refl _

theorem nextLoop_run {s t : State} {as : List Act} (h : machine.run s as = some t) :
    s.nextLoop ≤ t.nextLoop :=
  Machine.run_keeps (M := machine) (P := fun u => s.nextLoop ≤ u.nextLoop)
    (fun hs hstep => Nat.le_trans hs (nextLoop_step hstep)) (Nat.le_refl _) h

/-! ## The task that owners see -/

def Handler.toPost : Handler → Post
  | now => .now
  | after => .after
  | expired => .expired
  | cancel => .cancel
  | destroy _ => .destroy

def LoopPc.toInvocation : LoopPc → Invocation
  | head => .head
  | running => .running
  | threw => .abandoned
  | idle | ended => .none

/-- The current invocation, without its number. -/
def State.invocation (s : State) : Invocation :=
  match s.current with
  | none => .none
  | some k => (s.loops k).toInvocation

theorem Inv.invocation_eq_none {s : State} (h : Inv s) : s.invocation = .none ↔ s.current = none := by
  cases hcurrent : s.current with
  | none => simp [State.invocation, hcurrent]
  | some k =>
    have hk := (h.current k).1 hcurrent
    cases hloop : s.loops k <;> simp [hloop, LoopPc.isEngaged] at hk <;>
      simp [State.invocation, hcurrent, hloop, LoopPc.toInvocation]

/-- Forget the loops and the callers of `destroy()`. -/
def toTask (s : State) (h : Inv s) : Task where
  posts := s.posts.map Handler.toPost
  timed := s.timed
  function := s.function
  pending := s.pending
  invocation := s.invocation
  destroyed := s.destroyed
  engaged := fun hd hp hnone => h.engaged hd hp (h.invocation_eq_none.1 hnone)

theorem toTask_fire {s : State} (h : Inv s) : toTask s.fire h.fire = (toTask s h).fire := by
  have hnone := h.invocation_eq_none
  cases hd : s.destroyed with
  | true =>
    have hfire := fire_of_destroyed hd
    apply Task.ext <;> simp [toTask, Task.fire, hfire, hd, State.invocation]
  | false =>
    by_cases hengage : s.pending + 1 = 1 ∧ s.current = none
    · have hfire : s.fire = { s.setLoop s.nextLoop .head with
          firings := s.firings + 1
          pending := s.pending + 1
          current := some s.nextLoop
          nextLoop := s.nextLoop + 1 } := by
        simp [State.fire, hd, hengage.1, hengage.2]
      have h0 : s.pending = 0 := by omega
      apply Task.ext <;> simp [toTask, Task.fire, hfire, hd, h0, hnone.2 hengage.2, State.setLoop]
      simp [State.invocation, LoopPc.toInvocation]
    · have hfire : s.fire = { s with firings := s.firings + 1, pending := s.pending + 1 } := by
        rw [State.fire, if_neg (by simp [hd]), if_neg hengage]
      have hkeep : ¬(s.pending = 0 ∧ s.invocation = .none) := by
        rintro ⟨h0, hno⟩
        exact hengage ⟨by omega, hnone.1 hno⟩
      apply Task.ext <;> simp [toTask, Task.fire, hfire, hd]
      rw [if_neg hkeep]
      rfl

theorem toTask_congr {s t : State} (hst : s = t) (hs : Inv s) (ht : Inv t) :
    toTask s hs = toTask t ht := by
  subst hst
  rfl

theorem toTask_handle {s : State} (h : Inv s) {handler : Handler}
    (hd : ∀ d, handler = .destroy d → s.destroyed = true) :
    toTask (s.handle handler) (h.handle hd) = (toTask s h).handle handler.toPost := by
  cases handler with
  | now =>
    have htimed : Inv { s with timed := false } := h.setStrand false s.function h.posted
    by_cases hf : s.function = true
    · have hfire : s.handle .now = { s with timed := false }.fire := if_pos hf
      calc toTask (s.handle .now) _
        _ = toTask { s with timed := false }.fire htimed.fire := toTask_congr hfire _ _
        _ = { toTask s h with timed := false }.fire := toTask_fire htimed
        _ = (toTask s h).handle .now := (if_pos hf).symm
    · have hnone : s.handle .now = { s with timed := false } := if_neg hf
      exact (toTask_congr hnone _ htimed).trans (if_neg hf).symm
  | after =>
    by_cases hf : s.function = true
    · have htimed : s.handle .after = { s with timed := true } := if_pos hf
      exact (toTask_congr htimed _ (h.setStrand true s.function h.posted)).trans (if_pos hf).symm
    · have hnone : s.handle .after = s := if_neg hf
      exact (toTask_congr hnone _ h).trans (if_neg hf).symm
  | expired =>
    by_cases hf : s.function = true
    · have hfire : s.handle .expired = s.fire := if_pos hf
      calc toTask (s.handle .expired) _
        _ = toTask s.fire h.fire := toTask_congr hfire _ _
        _ = (toTask s h).fire := toTask_fire h
        _ = (toTask s h).handle .expired := (if_pos hf).symm
    · have hnone : s.handle .expired = s := if_neg hf
      exact (toTask_congr hnone _ h).trans (if_neg hf).symm
  | cancel => rfl
  | destroy d => rfl

theorem toTask_post {s : State} (h : Inv s) {handler : Handler} (hs : Inv (s.post handler)) :
    toTask (s.post handler) hs = (toTask s h).post handler.toPost := by
  apply Task.ext <;> simp [toTask, State.post, Task.post, State.invocation]

/-- **The code refines the task.** A step of the code is a step of the task that owners see, or is
not visible to them. -/
theorem step_refines {s t : State} {a : Act} (h : Inv s) (hstep : step s a = some t) :
    toTask t (inv_step h hstep) = toTask s h ∨
      Task.Step (toTask s h) (toTask t (inv_step h hstep)) := by
  cases change_of_step hstep with
  | ignored => exact .inl rfl
  | scheduleNow hd =>
    have hto : toTask (s.post .now) (inv_step h hstep) = (toTask s h).scheduleNow :=
      (toTask_post h _).trans (if_neg (by simp [toTask, hd])).symm
    exact .inr (hto ▸ .scheduleNow)
  | scheduleAfter hd =>
    have hto : toTask (s.post .after) (inv_step h hstep) = (toTask s h).scheduleAfter :=
      (toTask_post h _).trans (if_neg (by simp [toTask, hd])).symm
    exact .inr (hto ▸ .scheduleAfter)
  | cancel =>
    have hto : toTask (s.post .cancel) (inv_step h hstep) = (toTask s h).cancel := toTask_post h _
    exact .inr (hto ▸ .cancel)
  | destroy d =>
    by_cases hasync : s.asyncTask = true
    · have hto : toTask (s.destroy d) (inv_step h hstep) = (toTask s h).destroy := by
        apply Task.ext <;>
          simp [toTask, State.destroy, hasync, State.post, State.setDestroy, Task.destroy,
            Task.post, State.invocation, Handler.toPost]
      exact .inr (hto ▸ .destroy)
    · have heq : s.destroy d = s.setDestroy d .returned := if_neg hasync
      refine .inl ?_
      apply Task.ext <;> simp [toTask, heq, State.setDestroy, State.invocation]
  | @strand handler posts hposts =>
    have hrest : Inv { s with posts } := h.setStrand s.timed s.function fun d hd =>
      h.posted d (hposts ▸ List.mem_cons_of_mem handler hd)
    have hto := toTask_handle hrest fun d (hd : handler = .destroy d) =>
      h.posted d (by simp [hposts, hd])
    refine .inr (.tick .strand ?_)
    rw [hto]
    simp [Task.tick, toTask, hposts]
    rfl
  | expire htimed =>
    refine .inr (.tick .expire ?_)
    rw [toTask_post (h.setStrand false s.function h.posted)]
    exact if_pos htimed
  | @head k hk =>
    have hcurrent : s.current = some k := (h.current k).2 (by rw [hk]; rfl)
    by_cases hmore : s.destroyed = false ∧ 0 < s.pending
    · have heq : s.loopHead k =
          { s.setLoop k .running with pending := s.pending - 1, started := s.started + 1 } :=
        if_pos hmore
      refine .inr (.enter ?_)
      simp [Task.enter, toTask, heq, hk, hmore, State.setLoop, State.invocation, hcurrent,
        LoopPc.toInvocation]
    · have heq : s.loopHead k = { s.setLoop k .ended with current := none } := if_neg hmore
      have hdone : s.destroyed = true ∨ s.pending = 0 := by
        rcases Nat.eq_zero_or_pos s.pending with h0 | hp
        · exact .inr h0
        · exact .inl (Bool.not_eq_false _ ▸ fun hd => hmore ⟨hd, hp⟩)
      refine .inr (.tick .rest ?_)
      simp [Task.tick, toTask, heq, hk, hdone, State.setLoop, State.invocation, hcurrent,
        LoopPc.toInvocation]
  | @functionReturns k hk =>
    have hcurrent : s.current = some k := (h.current k).2 (by rw [hk]; rfl)
    have hto : toTask (s.setLoop k .head) (inv_step h hstep) = (toTask s h).returned := by
      simp [Task.returned, toTask, State.setLoop, State.invocation, hcurrent, hk, LoopPc.toInvocation]
    exact .inr (hto ▸ .returned)
  | @functionThrows k hk =>
    have hcurrent : s.current = some k := (h.current k).2 (by rw [hk]; rfl)
    have hto : toTask (s.setLoop k .threw) (inv_step h hstep) = (toTask s h).threw := by
      simp [Task.threw, toTask, State.setLoop, State.invocation, hcurrent, hk, LoopPc.toInvocation]
    exact .inr (hto ▸ .threw)
  | released _ =>
    refine .inl ?_
    cases hcurrent : s.current <;>
      simp [toTask, State.afterRelease, hcurrent, State.setDestroy, State.invocation]
  | joined _ _ => exact .inl rfl
  | rethrown _ _ => exact .inl rfl

/-- What a run of the code makes of the task is reached by steps of the task. -/
theorem run_refines {t : State} {as : List Act} (h : machine.run {} as = some t) :
    ∃ ht : Inv t, Relation.ReflTransGen Task.Step Task.fresh (toTask t ht) := by
  refine Machine.run_keeps (M := machine)
    (P := fun u => ∃ hu : Inv u, Relation.ReflTransGen Task.Step Task.fresh (toTask u hu)) ?_
    ⟨inv_init, .refl⟩ h
  rintro u a v ⟨hu, hreach⟩ hstep
  refine ⟨inv_step hu hstep, ?_⟩
  rcases step_refines hu hstep with hsame | hmoved
  · exact hsame ▸ hreach
  · exact hreach.tail hmoved

end Hareflow.Invocations
