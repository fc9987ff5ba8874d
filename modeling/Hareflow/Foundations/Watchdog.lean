import Mathlib.Data.List.Basic
import Mathlib.Data.Nat.Notation
import Mathlib.Tactic.Common

/-!
# Watchdogs

A watchdog is a timer that every sign of life starts over and that calls a handler when there was none
for its timeout. The timer is asynchronous: when its deadline has passed the call of the handler is
only queued, and made later. A new start cancels the wait that is pending, and does nothing to a call
that is queued already. So the handler may be called although there has been a sign of life meanwhile.

* `Watchdog.Sound` is what can be relied on all the same: each call of the handler has a silence of its
  own (`Silence`), which lasted for the timeout, and the silences do not overlap.
* `Watchdog.Prompt` is for a clock that waits for the timer and for the calls that are queued: the
  handler is called on the deadline, and every silence is answered.
-/

namespace Foundations

/-- A time without a sign of life: the last one before it, the timeout of the moment, and the time at
which the timer expired. -/
structure Silence where
  since : ℕ
  timeout : ℕ
  ended : ℕ
  deriving DecidableEq, Repr

/-- No sign of life came between the two ends of the silence, which is as long as the timeout. -/
structure Silence.Holds (signs : List ℕ) (p : Silence) : Prop where
  since : p.since ∈ signs
  long : p.since + p.timeout ≤ p.ended
  silent : ∀ r ∈ signs, r ≤ p.since ∨ p.ended ≤ r

theorem Silence.Holds.append {signs : List ℕ} {p : Silence} {now : ℕ} (h : p.Holds signs)
    (hended : p.ended ≤ now) : p.Holds (signs ++ [now]) where
  since := List.mem_append_left _ h.since
  long := h.long
  silent r hr := by
    rcases List.mem_append.1 hr with hr | hr
    · exact h.silent r hr
    · exact .inr (List.mem_singleton.1 hr ▸ hended)

structure Watchdog where
  /-- A handler is set. -/
  armed : Bool := false
  timeout : ℕ := 0
  /-- The start of the wait that is pending, and its timeout. -/
  pending : Option (ℕ × ℕ) := none
  /-- The calls of the handler that are queued. -/
  queued : List Silence := []
  /-- The record of the signs of life; to set a handler is one. -/
  signs : List ℕ := []
  /-- The record of the calls of the handler, with their times. -/
  fired : List (Silence × ℕ) := []
  deriving DecidableEq, Repr

namespace Watchdog

/-- A sign of life. -/
def start (w : Watchdog) (now : ℕ) : Watchdog :=
  { w with
    pending := if w.armed then some (now, w.timeout) else w.pending
    signs := w.signs ++ [now] }

/-- Set a handler. -/
def arm (w : Watchdog) (now timeout : ℕ) : Watchdog :=
  { w with armed := true, timeout := timeout }.start now

/-- Take the handler away and cancel the wait. -/
def disarm (w : Watchdog) : Watchdog := { w with armed := false, pending := none }

/-- The deadline has passed. -/
def expire (w : Watchdog) (now : ℕ) : Option Watchdog :=
  match w.pending with
  | some (since, timeout) =>
    if since + timeout ≤ now then
      some { w with pending := none, queued := w.queued ++ [⟨since, timeout, now⟩] }
    else none
  | none => none

/-- The call that is queued first is made, unless there is no handler any more. -/
def run (w : Watchdog) (now : ℕ) : Option Watchdog :=
  match w.queued with
  | [] => none
  | p :: queued =>
    some { w with queued := queued, fired := if w.armed then w.fired ++ [(p, now)] else w.fired }

/-- The silences that have been noticed and not been dropped. -/
def silences (w : Watchdog) : List Silence := w.fired.map Prod.fst ++ w.queued

variable {w v : Watchdog} {now later : ℕ}

theorem arm_eq (w : Watchdog) (now timeout : ℕ) : w.arm now timeout =
    { w with
      armed := true, timeout := timeout, pending := some (now, timeout), signs := w.signs ++ [now] } :=
  rfl

theorem expire_eq_some (h : w.expire now = some v) : ∃ since timeout,
    w.pending = some (since, timeout) ∧ since + timeout ≤ now ∧
      v = { w with pending := none, queued := w.queued ++ [⟨since, timeout, now⟩] } := by
  unfold expire at h
  split at h
  · rename_i since timeout hpending
    split at h <;> cases h
    rename_i hle
    exact ⟨since, timeout, hpending, hle, rfl⟩
  · cases h

theorem run_eq_some (h : w.run now = some v) : ∃ p queued, w.queued = p :: queued ∧
    v = { w with queued := queued, fired := if w.armed then w.fired ++ [(p, now)] else w.fired } := by
  unfold run at h
  split at h
  · cases h
  · rename_i p queued hqueued
    exact ⟨p, queued, hqueued, (Option.some.inj h).symm⟩

/-! ## Every call has its silence -/

/-- What can be relied on at a time. -/
structure Sound (now : ℕ) (w : Watchdog) : Prop where
  signs : ∀ r ∈ w.signs, r ≤ now
  pending : ∀ x, w.pending = some x → x.1 ∈ w.signs ∧ ∀ r ∈ w.signs, r ≤ x.1
  disarmed : w.armed = false → w.pending = none
  silences : ∀ p ∈ w.silences, p.Holds w.signs ∧ p.ended ≤ now
  /-- A wait begins after the silences that have been noticed. -/
  after : ∀ x, w.pending = some x → ∀ p ∈ w.silences, p.ended ≤ x.1
  apart : w.silences.Pairwise fun p q => p.ended ≤ q.since
  fired : ∀ f ∈ w.fired, f.1.ended ≤ f.2 ∧ f.2 ≤ now

namespace Sound

theorem init (now : ℕ) : Sound now {} := by
  constructor <;> simp [Watchdog.silences]

/-- Time passes. -/
theorem tick (h : Sound now w) (hle : now ≤ later) : Sound later w where
  signs r hr := Nat.le_trans (h.signs r hr) hle
  pending := h.pending
  disarmed := h.disarmed
  silences p hp := ⟨(h.silences p hp).1, Nat.le_trans (h.silences p hp).2 hle⟩
  after := h.after
  apart := h.apart
  fired f hf := ⟨(h.fired f hf).1, Nat.le_trans (h.fired f hf).2 hle⟩

theorem start (h : Sound now w) : Sound now (w.start now) := by
  have hsigns : ∀ r ∈ w.signs ++ [now], r ≤ now := by
    simpa [or_imp, forall_and] using h.signs
  -- while no handler is set no wait is pending
  have hpending : ∀ x, (if w.armed then some (now, w.timeout) else w.pending) = some x → x.1 = now := by
    intro x hx
    cases harmed : w.armed with
    | true =>
      rw [harmed, if_pos rfl] at hx
      rw [← Option.some.inj hx]
    | false =>
      rw [harmed, if_neg (by simp), h.disarmed harmed] at hx
      cases hx
  refine ⟨hsigns, fun x hx => ?_, fun harmed => ?_, fun p hp => ?_, fun x hx p hp => ?_, h.apart,
    h.fired⟩
  · rw [hpending x hx]
    exact ⟨by simp [Watchdog.start], hsigns⟩
  · have harmed : w.armed = false := harmed
    simp [Watchdog.start, harmed, h.disarmed harmed]
  · obtain ⟨hholds, hended⟩ := h.silences p hp
    exact ⟨hholds.append hended, hended⟩
  · rw [hpending x hx]
    exact (h.silences p hp).2

theorem arm (h : Sound now w) (timeout : ℕ) : Sound now (w.arm now timeout) := by
  have hset : Sound now { w with armed := true, timeout := timeout } :=
    { h with disarmed := by simp }
  exact hset.start

theorem disarm (h : Sound now w) : Sound now w.disarm :=
  { h with
    pending := by simp [Watchdog.disarm]
    disarmed := fun _ => rfl
    after := by simp [Watchdog.disarm] }

theorem expire (h : Sound now w) (hv : w.expire now = some v) : Sound now v := by
  obtain ⟨since, timeout, hpending, hle, rfl⟩ := expire_eq_some hv
  obtain ⟨hmem, hlast⟩ := h.pending _ hpending
  have hsilences : ∀ p, p ∈ w.fired.map Prod.fst ++ (w.queued ++ [⟨since, timeout, now⟩]) →
      p ∈ w.silences ∨ p = ⟨since, timeout, now⟩ := by
    intro p hp
    rw [← List.append_assoc] at hp
    exact (List.mem_append.1 hp).imp_right List.mem_singleton.1
  refine ⟨h.signs, by simp, fun _ => rfl, fun p hp => ?_, by simp, ?_, h.fired⟩
  · rcases hsilences p hp with hp | rfl
    · exact h.silences p hp
    · exact ⟨⟨hmem, hle, fun r hr => .inl (hlast r hr)⟩, Nat.le_refl _⟩
  · rw [Watchdog.silences, ← List.append_assoc]
    refine List.pairwise_append.2 ⟨h.apart, by simp, fun p hp q hq => ?_⟩
    obtain rfl := List.mem_singleton.1 hq
    exact h.after _ hpending p hp

/-- The calls that are queued and made change, and there is no new silence. -/
theorem requeue (h : Sound now w) {queued : List Silence} {fired : List (Silence × ℕ)}
    (hsub : (fired.map Prod.fst ++ queued).Sublist w.silences)
    (hfired : ∀ f ∈ fired, f.1.ended ≤ f.2 ∧ f.2 ≤ now) :
    Sound now { w with queued := queued, fired := fired } where
  signs := h.signs
  pending := h.pending
  disarmed := h.disarmed
  silences p hp := h.silences p (hsub.subset hp)
  after x hx p hp := h.after x hx p (hsub.subset hp)
  apart := h.apart.sublist hsub
  fired := hfired

theorem run (h : Sound now w) (hv : w.run now = some v) : Sound now v := by
  obtain ⟨p, queued, hqueued, rfl⟩ := run_eq_some hv
  have hp := h.silences p (by simp [Watchdog.silences, hqueued])
  split
  · refine h.requeue (by simp [Watchdog.silences, hqueued]) fun f hf => ?_
    rcases List.mem_append.1 hf with hf | hf
    · exact h.fired f hf
    · obtain rfl := List.mem_singleton.1 hf
      exact ⟨hp.2, Nat.le_refl _⟩
  · refine h.requeue ?_ h.fired
    rw [Watchdog.silences, hqueued]
    exact (List.sublist_cons_self p queued).append_left _

end Sound

/-! ## Every silence is answered -/

/-- The clock may go on: nothing is queued, and no deadline is passed over. -/
def Waits (w : Watchdog) (later : ℕ) : Prop :=
  w.queued = [] ∧ ∀ x, w.pending = some x → later ≤ x.1 + x.2

instance (w : Watchdog) (later : ℕ) : Decidable (w.Waits later) :=
  inferInstanceAs (Decidable (w.queued = [] ∧ ∀ x, w.pending = some x → later ≤ x.1 + x.2))

/-- What holds if the clock never goes on unless it may. -/
structure Prompt (now : ℕ) (w : Watchdog) : Prop where
  pending : ∀ x, w.pending = some x → now ≤ x.1 + x.2
  timeout : ∀ x, w.pending = some x → x.2 = w.timeout
  queued : ∀ p ∈ w.queued, p.ended = now
  timely : ∀ p ∈ w.silences, p.ended = p.since + p.timeout
  fired : ∀ f ∈ w.fired, f.2 = f.1.ended
  /-- A wait is pending, or the silence since the last sign of life has been noticed. -/
  watched : w.armed = true → w.pending = none →
    ∃ p ∈ w.silences, p.timeout = w.timeout ∧ ∀ r ∈ w.signs, r ≤ p.since

namespace Prompt

theorem init (now : ℕ) : Prompt now {} := by
  constructor <;> simp [Watchdog.silences]

theorem tick (h : Prompt now w) (hwaits : w.Waits later) : Prompt later w :=
  { h with
    pending := hwaits.2
    queued := by simp [hwaits.1] }

theorem arm (h : Prompt now w) (timeout : ℕ) : Prompt now (w.arm now timeout) := by
  rw [arm_eq]
  refine ⟨?_, ?_, h.queued, h.timely, h.fired, by simp⟩ <;>
    intro x hx <;> obtain rfl := Option.some.inj hx
  · exact Nat.le_add_right _ _
  · rfl

theorem start (h : Prompt now w) (hs : Sound now w) : Prompt now (w.start now) := by
  cases harmed : w.armed with
  | true =>
    have heq : w.start now = w.arm now w.timeout := by simp [Watchdog.start, arm_eq, harmed]
    rw [heq]
    exact h.arm _
  | false =>
    have hnone : (w.start now).pending = none := by
      simp [Watchdog.start, harmed, hs.disarmed harmed]
    have harmed' : (w.start now).armed = false := harmed
    exact ⟨by simp [hnone], by simp [hnone], h.queued, h.timely, h.fired, by simp [harmed']⟩

theorem disarm (h : Prompt now w) : Prompt now w.disarm :=
  { h with
    pending := by simp [Watchdog.disarm]
    timeout := by simp [Watchdog.disarm]
    watched := by simp [Watchdog.disarm] }

theorem expire (h : Prompt now w) (hs : Sound now w) (hv : w.expire now = some v) :
    Prompt now v := by
  obtain ⟨since, timeout, hpending, hle, rfl⟩ := expire_eq_some hv
  have hnow : now = since + timeout := Nat.le_antisymm (h.pending _ hpending) hle
  refine ⟨by simp, by simp, fun p hp => ?_, fun p hp => ?_, h.fired, fun _ _ => ?_⟩
  · rcases List.mem_append.1 hp with hp | hp
    · exact h.queued p hp
    · rw [List.mem_singleton.1 hp]
  · rw [Watchdog.silences, ← List.append_assoc] at hp
    rcases List.mem_append.1 hp with hp | hp
    · exact h.timely p hp
    · obtain rfl := List.mem_singleton.1 hp
      exact hnow
  · exact ⟨⟨since, timeout, now⟩, by simp [Watchdog.silences], h.timeout _ hpending,
      (hs.pending _ hpending).2⟩

theorem run (h : Prompt now w) (hv : w.run now = some v) : Prompt now v := by
  obtain ⟨p, queued, hqueued, rfl⟩ := run_eq_some hv
  have hrest : ∀ q ∈ queued, q.ended = now := fun q hq => h.queued q (by simp [hqueued, hq])
  split
  · have hsame : (w.fired ++ [(p, now)]).map Prod.fst ++ queued = w.silences := by
      simp [Watchdog.silences, hqueued]
    refine ⟨h.pending, h.timeout, hrest, ?_, fun f hf => ?_, ?_⟩
    · rw [Watchdog.silences, hsame]
      exact h.timely
    · rcases List.mem_append.1 hf with hf | hf
      · exact h.fired f hf
      · obtain rfl := List.mem_singleton.1 hf
        exact (h.queued p (by simp [hqueued])).symm
    · rw [Watchdog.silences, hsame]
      exact h.watched
  · rename_i harmed
    refine ⟨h.pending, h.timeout, hrest, fun q hq => h.timely q ?_, h.fired,
      fun harmed' => absurd harmed' harmed⟩
    rw [Watchdog.silences, hqueued]
    exact ((List.sublist_cons_self p queued).append_left _).subset hq

/-- A silence that is longer than the timeout has been answered, on the deadline. -/
theorem answered (h : Prompt now w) (hs : Sound now w) (harmed : w.armed = true)
    (hlate : ∀ r ∈ w.signs, r + w.timeout < now) :
    ∃ f ∈ w.fired, f.1.timeout = w.timeout ∧ f.2 = f.1.since + w.timeout ∧
      ∀ r ∈ w.signs, r ≤ f.1.since := by
  have hnone : w.pending = none := by
    by_contra hsome
    obtain ⟨x, hx⟩ := Option.ne_none_iff_exists'.1 hsome
    have hlt := hlate x.1 (hs.pending x hx).1
    have hle := h.pending x hx
    rw [h.timeout x hx] at hle
    omega
  obtain ⟨p, hp, htimeout, hlast⟩ := h.watched harmed hnone
  have hended := h.timely p hp
  have hlt := hlate p.since (hs.silences p hp).1.since
  rcases List.mem_append.1 hp with hfired | hqueued
  · obtain ⟨f, hf, rfl⟩ := List.mem_map.1 hfired
    exact ⟨f, hf, htimeout, by rw [h.fired f hf, hended, htimeout], hlast⟩
  · have hnow := h.queued p hqueued
    omega

end Prompt

end Watchdog

end Foundations
