import Mathlib.Logic.Function.Basic
import Hareflow.Foundations.Machine

/-!
# Double-checked initialization

An object is made on demand, once for all threads. A call tests an atomic flag. If it is not set, the
call takes a mutex, tests the pointer to the object under it, makes the object if the pointer is null,
sets the pointer and then the flag. Some of the calls then read the pointer, without the mutex. Making
the object may fail by an exception, and then a later call tries again, or it may abort the process.

* `Inv` is the invariant of all runs (`Inv.run`). The mutex is held by the one call between its two
  ends, the pointer is null while an object is being made, and a call that is past the initialization
  has an object.
* `Inv.race_free` says that nobody reads the pointer while another call may write it.
* `Inv.exists_step` and `goes_le` say that the calls do not block each other, and that each is over
  after a few steps of its own.
-/

namespace Foundations

/-- How the construction of an object ends. -/
inductive Outcome (ι : Type*)
  | made (i : ι)
  | threw
  | aborted
  deriving DecidableEq, Repr

/-- The calls `κ`, the objects `ι`, and what the environment `ω` answers to a construction. -/
structure Once (κ ω ι : Type*) where
  build : κ → ω → Outcome ι
  /-- Whether the call reads the pointer after the initialization. -/
  reads : κ → Bool

namespace Once

variable {τ κ ω ι : Type*}

/-- Where the call of a thread is. -/
inductive Pc (κ : Type*)
  /-- There is no call. -/
  | idle
  /-- Before the test of the flag. -/
  | testing (k : κ)
  /-- The flag was not set. -/
  | locking (k : κ)
  /-- Under the mutex, before the test of the pointer. -/
  | rechecking (k : κ)
  /-- Under the mutex: the pointer was null. -/
  | making (k : κ)
  /-- Under the mutex: the pointer is set, the flag not yet. -/
  | publishing (k : κ)
  | releasing (k : κ)
  /-- After the initialization. -/
  | returning (k : κ)
  /-- The pointer that the call read was null. -/
  | crashed
  deriving DecidableEq, Repr

namespace Pc

/-- The call holds the mutex. -/
@[simp] def locked : Pc κ → Bool
  | rechecking _ | making _ | publishing _ | releasing _ => true
  | _ => false

/-- The call writes the pointer next, unless the construction fails. -/
@[simp] def writes : Pc κ → Bool
  | making _ => true
  | _ => false

/-- The call relies on the object. -/
@[simp] def relies : Pc κ → Bool
  | publishing _ | releasing _ | returning _ => true
  | _ => false

end Pc

structure State (τ κ ι : Type*) where
  flag : Bool := false
  /-- What the pointer points to. -/
  object : Option ι := none
  mutex : Option τ := none
  pc : τ → Pc κ := fun _ => .idle
  aborted : Bool := false
  /-- The record of the objects that were made, with the calls that made them. -/
  made : List (κ × ι) := []
  /-- The record of the objects that calls have read. -/
  results : List ι := []

/-- A thread makes a call, or its call goes on; `w` matters if that constructs an object. -/
inductive Act (τ κ ω : Type*)
  | call (t : τ) (k : κ)
  | go (t : τ) (w : ω)
  deriving DecidableEq, Repr

/-! ## The invariant -/

structure Inv (O : Once κ ω ι) (s : State τ κ ι) : Prop where
  mutex : ∀ t, s.mutex = some t ↔ (s.pc t).locked = true
  object : ∀ t, (s.pc t).relies = true → s.object.isSome = true
  writes : ∀ t, (s.pc t).writes = true → s.object = none
  flag : s.flag = true → s.object.isSome = true
  made : s.made.map Prod.snd = s.object.toList
  built : ∀ p ∈ s.made, ∃ w, O.build p.1 w = .made p.2
  results : ∀ i ∈ s.results, s.object = some i
  crashed : ∀ t, s.pc t ≠ .crashed

namespace Inv

variable {O : Once κ ω ι} {s : State τ κ ι} {t : τ}

theorem init : Inv O ({} : State τ κ ι) where
  mutex t := by simp
  object t h := by cases h
  writes t h := by cases h
  flag h := by cases h
  made := rfl
  built p h := by cases h
  results i h := by cases h
  crashed t := by simp

/-- Only one call is under the mutex. -/
theorem eq_of_locked (h : Inv O s) {t' : τ} (ht : (s.pc t).locked = true)
    (ht' : (s.pc t').locked = true) : t = t' :=
  Option.some.inj (((h.mutex t).2 ht).symm.trans ((h.mutex t').2 ht'))

/-- A call that reads the pointer without the mutex does not meet one that writes it. -/
theorem race_free (h : Inv O s) {t' : τ} (ht : (s.pc t).relies = true) :
    (s.pc t').writes = false := by
  rw [Bool.eq_false_iff]
  intro hwrites
  have hobject := h.object t ht
  rw [h.writes t' hwrites] at hobject
  cases hobject

/-- What a call has read is the only object that was made. -/
theorem made_of_mem (h : Inv O s) {i : ι} (hi : i ∈ s.results) : ∃ k, s.made = [(k, i)] := by
  have hmade := h.made
  rw [h.results i hi] at hmade
  obtain ⟨⟨k, j⟩, hp, hj⟩ := List.map_eq_singleton_iff.1 hmade
  exact ⟨k, by rw [hp, ← hj]⟩

theorem length_made (h : Inv O s) : s.made.length ≤ 1 := by
  rw [← List.length_map Prod.snd, h.made]
  cases s.object <;> simp

end Inv

/-! ## The machine -/

variable [DecidableEq τ]

def State.goto (s : State τ κ ι) (t : τ) (c : Pc κ) : State τ κ ι :=
  { s with pc := Function.update s.pc t c }

variable (O : Once κ ω ι)

/-- What the next step of the call of a thread does. -/
def go (s : State τ κ ι) (t : τ) (w : ω) : Option (State τ κ ι) :=
  match s.pc t with
  | .idle => none
  | .testing k => some (s.goto t (if s.flag then .returning k else .locking k))
  | .locking k =>
    if s.mutex = none then some { s.goto t (.rechecking k) with mutex := some t } else none
  | .rechecking k => some (s.goto t (if s.object.isSome then .releasing k else .making k))
  | .making k =>
    match O.build k w with
    | .made i =>
      some { s.goto t (.publishing k) with object := some i, made := s.made ++ [(k, i)] }
    -- the exception releases the mutex and leaves the call
    | .threw => some { s.goto t .idle with mutex := none }
    | .aborted => some { s with aborted := true }
  | .publishing k => some { s.goto t (.releasing k) with flag := true }
  | .releasing k => some { s.goto t (.returning k) with mutex := none }
  | .returning k =>
    if O.reads k then
      match s.object with
      | some i => some { s.goto t .idle with results := s.results ++ [i] }
      | none => some (s.goto t .crashed)
    else some (s.goto t .idle)
  | .crashed => none

def step (s : State τ κ ι) (a : Act τ κ ω) : Option (State τ κ ι) :=
  if s.aborted then none
  else
    match a with
    | .call t k => match s.pc t with
      | .idle => some (s.goto t (.testing k))
      | _ => none
    | .go t w => O.go s t w

def machine : Machine (State τ κ ι) (Act τ κ ω) where
  Init s := s = {}
  step := O.step

/-- What a step does: the call goes on, takes or releases the mutex, or writes the pointer. -/
inductive Moves (s : State τ κ ι) : State τ κ ι → Prop
  /-- The mutex and the pointer are left alone. -/
  | goto (t : τ) (c : Pc κ) (flag : Bool) (read : List ι) (hlocked : c.locked = (s.pc t).locked)
      (hrelies : c.relies = true →
        (s.pc t).relies = true ∨ s.flag = true ∨ s.object.isSome = true)
      (hwrites : c.writes = true → s.object = none)
      (hcrashed : c = .crashed → (s.pc t).relies = true ∧ s.object = none)
      (hflag : flag = true → s.flag = true ∨ (s.pc t).relies = true)
      (hread : ∀ i ∈ read, s.object = some i) :
      Moves s { s.goto t c with flag := flag, results := s.results ++ read }
  | lock (t : τ) (k : κ) (hfree : s.mutex = none) :
      Moves s { s.goto t (.rechecking k) with mutex := some t }
  | release (t : τ) (c : Pc κ) (hpc : (s.pc t).locked = true) (hlocked : c.locked = false)
      (hrelies : c.relies = true → (s.pc t).relies = true) (hcrashed : c ≠ .crashed) :
      Moves s { s.goto t c with mutex := none }
  | make (t : τ) (k : κ) (w : ω) (i : ι) (hpc : s.pc t = .making k)
      (hbuild : O.build k w = .made i) :
      Moves s { s.goto t (.publishing k) with object := some i, made := s.made ++ [(k, i)] }
  | abort : Moves s { s with aborted := true }

variable {O} {s u : State τ κ ι} {t : τ}

/-- A call goes on without a change of the flag, and reads nothing. -/
theorem moves_goto {c : Pc κ} (hlocked : c.locked = (s.pc t).locked)
    (hrelies : c.relies = true → (s.pc t).relies = true ∨ s.flag = true ∨ s.object.isSome = true)
    (hwrites : c.writes = true → s.object = none)
    (hcrashed : c = .crashed → (s.pc t).relies = true ∧ s.object = none) :
    Moves O s (s.goto t c) := by
  have hmove := Moves.goto (O := O) t c s.flag [] hlocked hrelies hwrites hcrashed .inl (by simp)
  rwa [List.append_nil] at hmove

/-- The steps of a call are moves. -/
theorem moves_go {w : ω} (h : O.go s t w = some u) : Moves O s u := by
  cases hpc : s.pc t with
  | idle => simp [go, hpc] at h
  | testing k =>
    simp only [go, hpc, Option.some.injEq] at h
    subst h
    split
    · rename_i hflag
      exact moves_goto (by simp [hpc]) (fun _ => .inr (.inl hflag)) (by simp)
        (by simp)
    · exact moves_goto (by simp [hpc]) (by simp) (by simp)
        (by simp)
  | locking k =>
    simp only [go, hpc] at h
    split at h
    · rename_i hfree
      cases h
      exact .lock t k hfree
    · cases h
  | rechecking k =>
    simp only [go, hpc, Option.some.injEq] at h
    subst h
    split
    · rename_i hobject
      exact moves_goto (by simp [hpc]) (fun _ => .inr (.inr hobject)) (by simp)
        (by simp)
    · rename_i hobject
      exact moves_goto (by simp [hpc]) (by simp)
        (fun _ => by simpa using hobject) (by simp)
  | making k =>
    simp only [go, hpc] at h
    split at h
    · rename_i i hbuild
      cases h
      exact .make t k w i hpc hbuild
    · cases h
      exact .release t .idle (by simp [hpc]) rfl (by simp) (by simp)
    · cases h
      exact .abort
  | publishing k =>
    simp only [go, hpc, Option.some.injEq] at h
    subst h
    have hrelies : (s.pc t).relies = true := by simp [hpc]
    have hmove := Moves.goto (O := O) t (.releasing k) true [] (by simp [hpc])
      (fun _ => .inl hrelies) (by simp) (by simp) (fun _ => .inr hrelies) (by simp)
    rwa [List.append_nil] at hmove
  | releasing k =>
    simp only [go, hpc, Option.some.injEq] at h
    subst h
    exact .release t (.returning k) (by simp [hpc]) rfl (fun _ => by simp [hpc]) (by simp)
  | returning k =>
    simp only [go, hpc] at h
    split at h
    · cases hobject : s.object with
      | some i =>
        simp only [hobject, Option.some.injEq] at h
        subst h
        exact .goto t .idle s.flag [i] (by simp [hpc]) (by simp)
          (by simp) (by simp) .inl (by simp [hobject])
      | none =>
        simp only [hobject, Option.some.injEq] at h
        subst h
        exact moves_goto (by simp [hpc]) (by simp) (by simp)
          fun _ => ⟨by simp [hpc], hobject⟩
    · cases h
      exact moves_goto (by simp [hpc]) (by simp) (by simp)
        (by simp)
  | crashed => simp [go, hpc] at h

theorem step_go {w : ω} (h : O.step s (.go t w) = some u) :
    s.aborted = false ∧ O.go s t w = some u := by
  simp only [step] at h
  split at h
  · cases h
  · rename_i habort
    exact ⟨by simpa using habort, h⟩

theorem step_call {k : κ} (h : O.step s (.call t k) = some u) :
    s.aborted = false ∧ s.pc t = .idle ∧ u = s.goto t (.testing k) := by
  simp only [step] at h
  split at h
  · cases h
  · rename_i habort
    split at h
    · rename_i hpc
      cases h
      exact ⟨by simpa using habort, hpc, rfl⟩
    · cases h

theorem moves_step {a : Act τ κ ω} (h : O.step s a = some u) : Moves O s u := by
  cases a with
  | go t w => exact moves_go (step_go h).2
  | call t k =>
    obtain ⟨-, hpc, rfl⟩ := step_call h
    exact moves_goto (by simp [hpc]) (by simp) (by simp) (by simp)

/-! ## Every run keeps the invariant -/

/-- What holds of every call holds after one of them has gone on. -/
theorem forall_goto {P : Pc κ → Prop} {c : Pc κ} (h : ∀ t, P (s.pc t)) (hc : P c) (t' : τ) :
    P ((s.goto t c).pc t') := by
  by_cases ht : t' = t
  · subst ht
    simpa only [State.goto, Function.update_self] using hc
  · simpa only [State.goto, Function.update_of_ne ht] using h t'

namespace Inv

/-- The mutex is still where the calls say it is if only `t` has taken or released it. -/
theorem mutex_goto (h : Inv O s) {c : Pc κ} {m : Option τ} (hself : m = some t ↔ c.locked = true)
    (hother : ∀ t', t' ≠ t → (m = some t' ↔ s.mutex = some t')) (t' : τ) :
    m = some t' ↔ ((s.goto t c).pc t').locked = true := by
  by_cases ht : t' = t
  · subst ht
    simpa only [State.goto, Function.update_self] using hself
  · rw [hother t' ht]
    simpa only [State.goto, Function.update_of_ne ht] using h.mutex t'

/-- A call goes on and leaves the mutex as `m`. -/
theorem goto (h : Inv O s) {c : Pc κ} {m : Option τ} (hself : m = some t ↔ c.locked = true)
    (hother : ∀ t', t' ≠ t → (m = some t' ↔ s.mutex = some t'))
    (hrelies : c.relies = true → s.object.isSome = true) (hwrites : c.writes = true → s.object = none)
    (hcrashed : c ≠ .crashed) : Inv O { s.goto t c with mutex := m } where
  mutex := h.mutex_goto hself hother
  object := forall_goto (P := fun c => c.relies = true → s.object.isSome = true) h.object hrelies
  writes := forall_goto (P := fun c => c.writes = true → s.object = none) h.writes hwrites
  flag := h.flag
  made := h.made
  built := h.built
  results := h.results
  crashed := forall_goto (P := fun c => c ≠ .crashed) h.crashed hcrashed

/-- **Every move keeps the invariant.** -/
theorem moves (h : Inv O s) (hmove : Moves O s u) : Inv O u := by
  cases hmove with
  | goto t c flag read hlocked hrelies hwrites hcrashed hflag hread =>
    have hobject : (s.pc t).relies = true ∨ s.flag = true ∨ s.object.isSome = true →
        s.object.isSome = true := by
      rintro (h' | h' | h')
      · exact h.object t h'
      · exact h.flag h'
      · exact h'
    -- a call that relies on the object finds one
    have hne : c ≠ .crashed := by
      intro hc
      obtain ⟨hpc, hnone⟩ := hcrashed hc
      have hsome := h.object t hpc
      rw [hnone] at hsome
      cases hsome
    have hself : s.mutex = some t ↔ c.locked = true := by
      rw [hlocked]
      exact h.mutex t
    have hgoto := h.goto hself (fun _ _ => Iff.rfl) (fun hc => hobject (hrelies hc)) hwrites hne
    refine { hgoto with
      flag := fun hf => hobject ((hflag hf).elim (fun h' => .inr (.inl h')) .inl)
      results := fun i hi => ?_ }
    exact (List.mem_append.1 hi).elim (h.results i) (hread i)
  | lock t k hfree =>
    exact h.goto (by simp) (fun t' ht => by simp [hfree, Ne.symm ht])
      (by simp) (by simp) (by simp)
  | release t c hpc hlocked hrelies hcrashed =>
    have hmutex := (h.mutex t).2 hpc
    have hwrites : c.writes = false := by cases c <;> simp at hlocked ⊢
    exact h.goto (by rw [hlocked]; simp) (fun t' ht => by simp [hmutex, Ne.symm ht])
      (fun hc => h.object t (hrelies hc)) (by rw [hwrites]; simp) hcrashed
  | make t k w i hpc hbuild =>
    have hnone := h.writes t (by simp [hpc])
    have hlocked : (s.pc t).locked = true := by simp [hpc]
    refine ⟨h.mutex_goto (iff_of_true ((h.mutex t).2 hlocked) rfl) fun _ _ => Iff.rfl,
      fun _ _ => rfl, fun t' ht' => ?_, fun _ => rfl, ?_, fun p hp => ?_, fun j hj => ?_,
      forall_goto (P := fun c => c ≠ .crashed) h.crashed (by simp)⟩
    · -- another call that is making an object would hold the mutex too
      by_cases ht : t' = t
      · subst ht
        simp [State.goto] at ht'
      · have hwrites : (s.pc t').writes = true := by simpa [State.goto, ht] using ht'
        refine absurd (h.eq_of_locked ?_ hlocked) ht
        cases hpc' : s.pc t' <;> simp [hpc'] at hwrites ⊢
    · rw [List.map_append, h.made, hnone]
      rfl
    · rcases List.mem_append.1 hp with hp | hp
      · exact h.built p hp
      · rw [List.mem_singleton.1 hp]
        exact ⟨w, hbuild⟩
    · have hobject := h.results j hj
      rw [hnone] at hobject
      cases hobject
  | abort => exact ⟨h.mutex, h.object, h.writes, h.flag, h.made, h.built, h.results, h.crashed⟩

theorem run {as : List (Act τ κ ω)} (hrun : (machine O).run ({} : State τ κ ι) as = some s) :
    Inv O s :=
  Machine.run_keeps (P := Inv O) (fun hs hstep => hs.moves (moves_step hstep)) init hrun

/-- The call that holds the mutex can go on. -/
theorem isSome_go_of_locked {w : ω} (ht : (s.pc t).locked = true) :
    (O.go s t w).isSome = true := by
  cases hpc : s.pc t <;> simp only [hpc, Pc.locked, Bool.false_eq_true] at ht <;> simp only [go, hpc]
  case making k => cases O.build k w <;> rfl
  all_goals rfl

/-- While there are calls, one of them can go on, whatever constructions come to. -/
theorem exists_step (h : Inv O s) (habort : s.aborted = false) (ht : s.pc t ≠ .idle) (w : ω) :
    ∃ t', s.pc t' ≠ .idle ∧ (O.step s (.go t' w)).isSome = true := by
  have hgo : ∀ t', (O.go s t' w).isSome = true → (O.step s (.go t' w)).isSome = true := by
    intro t' hgo
    simpa [step, habort] using hgo
  cases hpc : s.pc t with
  | idle => exact absurd hpc ht
  | crashed => exact absurd hpc (h.crashed t)
  | locking k =>
    cases hmutex : s.mutex with
    | none => exact ⟨t, ht, hgo t (by simp [go, hpc, hmutex])⟩
    | some t' =>
      have hlocked := (h.mutex t').1 hmutex
      refine ⟨t', fun hidle => ?_, hgo t' (isSome_go_of_locked hlocked)⟩
      rw [hidle] at hlocked
      cases hlocked
  | testing k => exact ⟨t, ht, hgo t (by simp [go, hpc])⟩
  | returning k =>
    refine ⟨t, ht, hgo t ?_⟩
    obtain ⟨i, hi⟩ := Option.isSome_iff_exists.1 (h.object t (by simp [hpc]))
    simp only [go, hpc, hi]
    split <;> rfl
  | rechecking k | making k | publishing k | releasing k =>
    exact ⟨t, ht, hgo t (isSome_go_of_locked (by simp [hpc]))⟩

end Inv

/-! ## The steps of a call -/

/-- How many steps the call has left, at most. -/
def Pc.left : Pc κ → ℕ
  | testing _ => 7
  | locking _ => 6
  | rechecking _ => 5
  | making _ => 4
  | publishing _ => 3
  | releasing _ => 2
  | returning _ => 1
  | idle | crashed => 0

theorem Pc.left_le (c : Pc κ) : c.left ≤ 7 := by
  cases c <;> simp [Pc.left]

/-- After an abort nothing is left to do. -/
def State.left (s : State τ κ ι) (t : τ) : ℕ := if s.aborted then 0 else (s.pc t).left

/-- The action is a step of the call of `t`. -/
def Act.goes (t : τ) : Act τ κ ω → Bool
  | go t' _ => decide (t' = t)
  | call _ _ => false

/-- The action is a new call of `t`. -/
def Act.calls (t : τ) : Act τ κ ω → Bool
  | call t' _ => decide (t' = t)
  | go _ _ => false

theorem pc_goto_of_ne {t' : τ} (c : Pc κ) (ht : t' ≠ t) : (s.goto t c).pc t' = s.pc t' := by
  simp [State.goto, ht]

theorem go_pc_of_ne {t' : τ} {w : ω} (h : O.go s t w = some u) (ht : t' ≠ t) :
    u.pc t' = s.pc t' := by
  simp only [go] at h
  repeat' split at h
  all_goals first
    | (cases h; done)
    | (cases h; exact pc_goto_of_ne _ ht)
    | (cases h; rfl)

theorem go_left {w : ω} (h : O.go s t w = some u) :
    u.aborted = true ∨ (u.pc t).left < (s.pc t).left := by
  simp only [go] at h
  repeat' split at h
  all_goals first
    | (cases h; done)
    | (cases h; exact .inl rfl)
    | (cases h; right; simp [State.goto, Pc.left, *])

theorem go_pos {w : ω} (h : O.go s t w = some u) : 0 < (s.pc t).left := by
  cases hpc : s.pc t <;> simp [go, hpc, Pc.left] at h ⊢

/-- Only a construction aborts the process. -/
theorem go_aborted_iff {w : ω} (habort : s.aborted = false) (h : O.go s t w = some u) :
    u.aborted = true ↔ ∃ k, s.pc t = .making k ∧ O.build k w = .aborted := by
  constructor
  · intro hu
    simp only [go] at h
    repeat' split at h
    all_goals first
      | exact ⟨_, ‹_›, ‹_›⟩
      | (cases h; done)
      | (cases h; simp [State.goto, habort] at hu)
  · rintro ⟨k, hpc, hbuild⟩
    simp only [go, hpc, hbuild] at h
    cases h
    rfl

theorem left_step {a : Act τ κ ω} (h : O.step s a = some u) (hcalls : a.calls t = false) :
    (if a.goes t then 1 else 0) + u.left t ≤ s.left t := by
  cases a with
  | call t' k =>
    have ht : t ≠ t' := by
      rintro rfl
      simp [Act.calls] at hcalls
    obtain ⟨-, -, rfl⟩ := step_call h
    have hleft : (s.goto t' (.testing k)).left t = s.left t := by
      simp only [State.left, pc_goto_of_ne _ ht]
      rfl
    simp [Act.goes, hleft]
  | go t' w =>
    obtain ⟨habort, hgo⟩ := step_go h
    by_cases ht : t' = t
    · subst ht
      have hleft := go_left hgo
      simp only [Act.goes, State.left, habort]
      by_cases hu : u.aborted = true
      · have hpos := go_pos hgo
        simp [hu]
        omega
      · have hlt := hleft.resolve_left hu
        simp [hu]
        omega
    · have hpc := go_pc_of_ne hgo (Ne.symm ht)
      simp only [Act.goes, ht, State.left, habort, hpc]
      by_cases hu : u.aborted = true <;> simp [hu]

/-- **A call is over after seven steps of its own**, if it is not blocked. -/
theorem goes_le {as : List (Act τ κ ω)} (hrun : (machine O).run s as = some u)
    (hcalls : ∀ a ∈ as, a.calls t = false) : as.countP (Act.goes t) + u.left t ≤ s.left t := by
  induction as generalizing s with
  | nil =>
    cases hrun
    simp
  | cons a as ih =>
    obtain ⟨v, hstep, hrest⟩ := Machine.run_cons.1 hrun
    have hfirst := left_step hstep (hcalls a (by simp))
    have hlast := ih hrest fun b hb => hcalls b (List.mem_cons_of_mem a hb)
    rw [List.countP_cons]
    omega

/-- **The process is aborted by a construction**, with which the run ends. -/
theorem aborted_iff {as : List (Act τ κ ω)} (hrun : (machine O).run ({} : State τ κ ι) as = some s) :
    s.aborted = true ↔ ∃ bs t w u k, as = bs ++ [.go t w] ∧ (machine O).run {} bs = some u ∧
      u.pc t = .making k ∧ O.build k w = .aborted := by
  constructor
  · intro habort
    obtain rfl | ⟨bs, a, rfl⟩ := as.eq_nil_or_concat
    · cases hrun
      cases habort
    · rw [List.concat_eq_append] at hrun ⊢
      obtain ⟨u, hu, hlast⟩ := Machine.run_append.1 hrun
      obtain ⟨v, hstep, hv⟩ := Machine.run_cons.1 hlast
      cases hv
      cases a with
      | call t k =>
        obtain ⟨hopen, -, rfl⟩ := step_call (O := O) hstep
        simp [State.goto, hopen] at habort
      | go t w =>
        obtain ⟨hopen, hgo⟩ := step_go (O := O) hstep
        obtain ⟨k, hpc, hbuild⟩ := (go_aborted_iff hopen hgo).1 habort
        exact ⟨bs, t, w, u, k, rfl, hu, hpc, hbuild⟩
  · rintro ⟨bs, t, w, u, k, rfl, hu, hpc, hbuild⟩
    obtain ⟨v, hv, hlast⟩ := Machine.run_append.1 hrun
    obtain rfl := Option.some.inj (hu.symm.trans hv)
    obtain ⟨v, hstep, hv⟩ := Machine.run_cons.1 hlast
    cases hv
    obtain ⟨hopen, hgo⟩ := step_go (O := O) hstep
    exact (go_aborted_iff hopen hgo).2 ⟨k, hpc, hbuild⟩

end Once

end Foundations
