import Hareflow.Foundations.Machine
import Mathlib.Logic.Function.Basic

/-!
# Condition variables

In a machine whose actions are critical sections, a call that waits for a condition is one whose
next action is not enabled yet. Nothing in such a machine says that the call is woken up when the
condition comes to hold. `Monitor` adds what is missing: which condition variable a thread waits on,
with which predicate, and which critical sections are followed by a `notify_all`.

`Monitor.layer` is the machine with the condition variables. A thread that finds its predicate false
goes to sleep; a critical section that notifies leaves a call of `notify_all` due, which comes later,
since it is made without the mutex; a thread may also wake up by itself.

* `Monitor.run_base` says that the layer does nothing new to the machine below it: its runs are those
  of the machine, with the sleeping and the waking in between.
* `Monitor.Disciplined` is the discipline: what makes a predicate true notifies. Then no wake-up is
  lost (`Monitor.awake_run`): while a thread sleeps its predicate is false or a call of `notify_all`
  is due, and that call wakes it up (`Monitor.Awake.exists_notify`). The call may also be one that
  somebody owes, who makes it at a later step of the machine.
-/

namespace Foundations

variable {σ α ι κ : Type*}

/-- How the actions of a machine use condition variables. -/
structure Monitor (σ α ι κ : Type*) where
  /-- The condition variable of the wait that a thread is at. -/
  waits : σ → ι → Option κ
  /-- The predicate of the waits on a condition variable. -/
  ready : κ → σ → Bool
  /-- The thread that takes an action, if it is one of those that may wait. -/
  thread : α → Option ι
  /-- Whether a critical section is followed by a `notify_all`. -/
  notifies : κ → σ → α → σ → Bool
  /-- Somebody is on the way to a `notify_all`. -/
  owes : κ → σ → Bool := fun _ _ => false

/-- A state of the machine with its condition variables. -/
structure Monitored (σ ι κ : Type*) where
  base : σ
  asleep : ι → Bool
  /-- How many calls of `notify_all` are due. -/
  due : κ → ℕ

/-- The actions of the machine, and those of the condition variables. -/
inductive MonitorAct (α ι κ : Type*)
  | act (a : α)
  /-- The thread finds its predicate false. -/
  | sleep (i : ι)
  /-- A call of `notify_all` that is due is made. -/
  | notify (k : κ)
  /-- The thread wakes up although nobody has notified it, or since its time is over. -/
  | wake (i : ι)
  deriving DecidableEq, Repr

/-- Nobody sleeps, and nothing is due. -/
def Monitored.start (s : σ) : Monitored σ ι κ := ⟨s, fun _ => false, fun _ => 0⟩

/-- The actions of the machine among those of the layer. -/
def MonitorAct.base : MonitorAct α ι κ → Option α
  | act a => some a
  | _ => none

namespace Monitor

variable [DecidableEq ι] [DecidableEq κ] (W : Monitor σ α ι κ) (M : Machine σ α)

def step (s : Monitored σ ι κ) : MonitorAct α ι κ → Option (Monitored σ ι κ)
  | .act a =>
    if (W.thread a).any s.asleep then none
    else (M.step s.base a).map fun t =>
      { s with base := t, due := fun k => s.due k + if W.notifies k s.base a t then 1 else 0 }
  | .sleep i =>
    match W.waits s.base i with
    | some k =>
      if W.ready k s.base || s.asleep i then none
      else some { s with asleep := Function.update s.asleep i true }
    | none => none
  | .notify k =>
    if 0 < s.due k then
      some { s with
        asleep := fun i => s.asleep i && W.waits s.base i != some k
        due := Function.update s.due k (s.due k - 1) }
    else none
  | .wake i =>
    if s.asleep i then some { s with asleep := Function.update s.asleep i false } else none

/-- The machine with its condition variables. -/
def layer : Machine (Monitored σ ι κ) (MonitorAct α ι κ) where
  Init s := ∃ u, M.Init u ∧ s = .start u
  step := W.step M

variable {W M} {s t : Monitored σ ι κ}

/-! ## The layer does nothing new -/

theorem step_base {a : MonitorAct α ι κ} (h : W.step M s a = some t) :
    M.run s.base a.base.toList = some t.base := by
  cases a with
  | act a =>
    rw [step] at h
    split at h
    · cases h
    · obtain ⟨u, hu, rfl⟩ := Option.map_eq_some_iff.1 h
      exact Machine.run_cons.2 ⟨u, hu, rfl⟩
  | sleep i =>
    rw [step] at h
    split at h
    · split at h <;> cases h
      rfl
    · cases h
  | notify k =>
    rw [step] at h
    split at h <;> cases h
    rfl
  | wake i =>
    rw [step] at h
    split at h <;> cases h
    rfl

/-- **A run of the layer is a run of the machine** with sleeping and waking in between. -/
theorem run_base {as : List (MonitorAct α ι κ)} (h : (W.layer M).run s as = some t) :
    M.run s.base (as.filterMap MonitorAct.base) = some t.base := by
  induction as generalizing s with
  | nil =>
    obtain rfl := Option.some.inj h
    rfl
  | cons a as ih =>
    obtain ⟨u, hu, h⟩ := Machine.run_cons.1 h
    have hrun := Machine.run_append.2 ⟨u.base, step_base hu, ih h⟩
    cases a <;> exact hrun

/-- An action of the machine can be taken unless its own thread sleeps. -/
theorem exists_act {a : α} {u : σ} (h : M.step s.base a = some u)
    (hawake : ∀ i, W.thread a = some i → s.asleep i = false) :
    ∃ t, (W.layer M).step s (.act a) = some t ∧ t.base = u ∧ t.asleep = s.asleep := by
  have hany : ¬(W.thread a).any s.asleep = true := by
    cases hthread : W.thread a with
    | none => simp
    | some i => simp [hawake i hthread]
  refine ⟨⟨u, s.asleep, fun k => s.due k + if W.notifies k s.base a u then 1 else 0⟩, ?_, rfl, rfl⟩
  exact (if_neg hany).trans (congrArg _ h)

/-! ## No wake-up is lost -/

variable (W M) in
/-- The discipline, for the states of an invariant: a step of somebody else leaves a thread where it
waits, and if it makes its predicate true then it notifies, or it owes that. -/
structure Disciplined (P : σ → Prop) : Prop where
  keeps : ∀ {s t a}, P s → M.step s a = some t → P t
  stays : ∀ {s t a i k}, P s → M.step s a = some t → W.thread a ≠ some i → W.waits s i = some k →
    W.waits t i = some k
  notifies : ∀ {s t a i k}, P s → M.step s a = some t → W.thread a ≠ some i →
    W.waits s i = some k → W.ready k s = false ∨ W.owes k s = true → W.ready k t = true →
    W.notifies k s a t = true ∨ W.owes k t = true

variable (W) in
/-- While a thread sleeps, its predicate is false or a call of `notify_all` is due or owed. -/
def Awake (s : Monitored σ ι κ) : Prop :=
  ∀ i, s.asleep i = true → ∃ k, W.waits s.base i = some k ∧
    (W.ready k s.base = true → 0 < s.due k ∨ W.owes k s.base = true)

omit [DecidableEq ι] [DecidableEq κ] in
theorem awake_start (u : σ) : W.Awake (.start u) := nofun

variable {P : σ → Prop}

theorem awake_step (hd : W.Disciplined M P) (hP : P s.base) (hs : W.Awake s)
    {a : MonitorAct α ι κ} (h : W.step M s a = some t) : P t.base ∧ W.Awake t := by
  cases a with
  | act a =>
    rw [step] at h
    split at h
    · cases h
    · rename_i hawake
      obtain ⟨u, hu, rfl⟩ := Option.map_eq_some_iff.1 h
      refine ⟨hd.keeps hP hu, fun i hi => ?_⟩
      obtain ⟨k, hk, hdue⟩ := hs i hi
      -- the step is not that of the sleeping thread
      have hne : W.thread a ≠ some i := fun hthread => hawake (hthread ▸ hi)
      refine ⟨k, hd.stays hP hu hne hk, fun hready => ?_⟩
      by_cases hbefore : 0 < s.due k
      · exact .inl (Nat.add_pos_left hbefore _)
      · have howes : W.ready k s.base = false ∨ W.owes k s.base = true := by
          by_contra hnot
          obtain ⟨hr, ho⟩ := not_or.1 hnot
          exact ho ((hdue (by simpa using hr)).resolve_left hbefore)
        refine (hd.notifies hP hu hne hk howes hready).imp_left fun hnotifies => ?_
        simp [hnotifies]
  | sleep i =>
    rw [step] at h
    split at h
    · rename_i k hk
      split at h <;> cases h
      rename_i hready
      refine ⟨hP, fun j hj => ?_⟩
      by_cases hji : j = i
      · subst hji
        exact ⟨k, hk, fun hr => by simp [hr] at hready⟩
      · exact hs j (by simpa [hji] using hj)
    · cases h
  | notify k =>
    rw [step] at h
    split at h <;> cases h
    refine ⟨hP, fun i hi => ?_⟩
    obtain ⟨hi, hwaits⟩ := Bool.and_eq_true_iff.1 hi
    obtain ⟨k', hk', hdue⟩ := hs i hi
    have hkk : k' ≠ k := by
      rintro rfl
      simp [hk'] at hwaits
    exact ⟨k', hk', by simpa [hkk] using hdue⟩
  | wake i =>
    rw [step] at h
    split at h <;> cases h
    refine ⟨hP, fun j hj => ?_⟩
    by_cases hji : j = i
    · simp [hji] at hj
    · exact hs j (by simpa [hji] using hj)

/-- **No wake-up is lost**: the rule of condition variables for whole runs. -/
theorem awake_run (hd : W.Disciplined M P) {u : σ} (hu : P u) {as : List (MonitorAct α ι κ)}
    (h : (W.layer M).run (.start u) as = some t) : P t.base ∧ W.Awake t := by
  refine Machine.run_keeps (P := fun s => P s.base ∧ W.Awake s) (fun hs hstep => ?_)
    ⟨hu, awake_start u⟩ h
  exact awake_step hd hs.1 hs.2 hstep

/-- The call of `notify_all` that is due wakes the thread up and changes nothing else. -/
theorem Awake.exists_notify (hs : W.Awake s) {i : ι} {k : κ} (hi : s.asleep i = true)
    (hk : W.waits s.base i = some k) (hready : W.ready k s.base = true)
    (howes : W.owes k s.base = false) :
    ∃ t, (W.layer M).step s (.notify k) = some t ∧ t.base = s.base ∧ t.asleep i = false := by
  obtain ⟨k', hk', hdue⟩ := hs i hi
  obtain rfl : k' = k := Option.some.inj (hk'.symm.trans hk)
  have hpos : 0 < s.due k' := (hdue hready).resolve_right (by simp [howes])
  refine ⟨_, if_pos hpos, rfl, ?_⟩
  simp [hk]

end Monitor

end Foundations
