import Mathlib.Data.Nat.Notation
import Mathlib.Tactic.TypeStar
import Mathlib.Tactic.Common

/-!
# Machines and their runs

A machine is a set of initial states and a partial step function: in a state, an action is either
not enabled or leads to one next state. Everything that is left open (which thread runs next, what
the environment answers) is in the choice of the actions, so that a statement about all
interleavings is a statement about all lists of actions.

* `Machine.run` runs a list of actions, `Machine.Leads` says that some run leads from one state to
  another, and `Machine.Reachable` is what some run from an initial state reaches.
* `Machine.Along ok` says that every step of a run meets `ok`, a condition on the state before the
  step and the action.
* `Machine.invariant_along` is the rule of invariants: what holds at the start and is kept by each
  step that meets `ok` holds wherever a run of such steps ends. `Machine.run_keeps` is the rule
  without a condition, from any state. `Machine.run_length_le` is the rule of termination.
* `Machine.record` is what an observer of the steps writes down, and `Machine.run_record_along` and
  `Machine.run_record` are the rules of invariants for it.
* `Machine.run_simulates` is the rule of simulation between two machines.
-/

namespace Foundations

variable {σ α : Type*}

/-- A machine: the states a run may start in, and the state an action leads to, `none` when the
action is not enabled. -/
structure Machine (σ α : Type*) where
  /-- The initial states. -/
  Init : σ → Prop
  /-- The state that an action leads to. -/
  step : σ → α → Option σ

namespace Machine

variable (M : Machine σ α)

/-- Run the actions in order. -/
def run : σ → List α → Option σ
  | s, [] => some s
  | s, a :: as => (M.step s a).bind fun t => run t as

/-- The states that runs from an initial state end in. -/
def Reachable (t : σ) : Prop := ∃ s as, M.Init s ∧ M.run s as = some t

/-- Some run leads from `s` to `t`. -/
def Leads (s t : σ) : Prop := ∃ as, M.run s as = some t

/-- Every step that the actions take from `s` meets `ok`. -/
def Along (ok : σ → α → Prop) : σ → List α → Prop
  | _, [] => True
  | s, a :: as => ok s a ∧ ∀ t, M.step s a = some t → Along ok t as

/-- What an observer of the steps writes down along a run. -/
def record {β : Type*} (observe : σ → α → σ → List β) : σ → List α → List β
  | _, [] => []
  | s, a :: as =>
    match M.step s a with
    | some t => observe s a t ++ record observe t as
    | none => []

/-- Whether every step that the actions take from `s` meets `ok`, for a condition that computes. -/
def checkAlong (ok : σ → α → Prop) [∀ s a, Decidable (ok s a)] : σ → List α → Bool
  | _, [] => true
  | s, a :: as => decide (ok s a) && (M.step s a).all fun t => checkAlong ok t as

@[simp] theorem run_nil (s : σ) : M.run s [] = some s := rfl

@[simp] theorem along_nil (ok : σ → α → Prop) (s : σ) : M.Along ok s [] := trivial

variable {M}

theorem run_cons {s t : σ} {a : α} {as : List α} :
    M.run s (a :: as) = some t ↔ ∃ u, M.step s a = some u ∧ M.run u as = some t :=
  Option.bind_eq_some_iff

theorem run_append {s t : σ} {as bs : List α} :
    M.run s (as ++ bs) = some t ↔ ∃ u, M.run s as = some u ∧ M.run u bs = some t := by
  induction as generalizing s with
  | nil => simp
  | cons a as ih =>
    simp only [List.cons_append, run_cons, ih]
    constructor
    · rintro ⟨v, hv, u, hu, ht⟩
      exact ⟨u, ⟨v, hv, hu⟩, ht⟩
    · rintro ⟨u, ⟨v, hv, hu⟩, ht⟩
      exact ⟨v, hv, u, hu, ht⟩

theorem Leads.refl (s : σ) : M.Leads s s := ⟨[], rfl⟩

theorem Leads.trans {s t u : σ} (hst : M.Leads s t) (htu : M.Leads t u) : M.Leads s u := by
  obtain ⟨as, has⟩ := hst
  obtain ⟨bs, hbs⟩ := htu
  exact ⟨as ++ bs, run_append.2 ⟨t, has, hbs⟩⟩

/-- A run that goes on with one more action. -/
theorem Leads.tail {s t u : σ} {a : α} (hst : M.Leads s t) (htu : M.step t a = some u) :
    M.Leads s u :=
  hst.trans ⟨[a], run_cons.2 ⟨u, htu, rfl⟩⟩

variable {ok : σ → α → Prop} {P : σ → Prop}

/-- An invariant of the steps that meet `ok` is kept by a run of such steps. -/
theorem run_invariant (hstep : ∀ {s a t}, P s → ok s a → M.step s a = some t → P t) :
    ∀ {as : List α} {s t : σ}, P s → M.Along ok s as → M.run s as = some t → P t
  | [], s, t, hs, _, h => by
    obtain rfl : s = t := Option.some.inj h
    exact hs
  | a :: as, s, t, hs, hok, h => by
    obtain ⟨u, hu, h⟩ := run_cons.1 h
    exact run_invariant hstep (hstep hs hok.1 hu) (hok.2 u hu) h

/-- **The rule of invariants for guarded runs**: what holds initially and is kept by each step
that meets `ok` holds at the end of every run all of whose steps meet `ok`. -/
theorem invariant_along (hinit : ∀ {s}, M.Init s → P s)
    (hstep : ∀ {s a t}, P s → ok s a → M.step s a = some t → P t) {s t : σ} {as : List α}
    (h0 : M.Init s) (hok : M.Along ok s as) (h : M.run s as = some t) : P t :=
  run_invariant hstep (hinit h0) hok h

theorem along_of_check [∀ s a, Decidable (ok s a)] :
    ∀ {as : List α} {s : σ}, M.checkAlong ok s as = true → M.Along ok s as
  | [], _, _ => trivial
  | a :: as, s, h => by
    simp only [checkAlong, Bool.and_eq_true, decide_eq_true_eq, Option.all_eq_true] at h
    exact ⟨h.1, fun t ht => along_of_check (h.2 t ht)⟩

/-- Actions that meet `ok` in every state meet it along every run. -/
theorem along_of_forall_mem :
    ∀ {as : List α} {s : σ}, (∀ a ∈ as, ∀ s, ok s a) → M.Along ok s as
  | [], _, _ => trivial
  | a :: as, s, h =>
    ⟨h a (by simp) s, fun _ _ => along_of_forall_mem fun b hb => h b (List.mem_cons_of_mem a hb)⟩

/-- A run in two parts. -/
theorem Along.append :
    ∀ {as bs : List α} {s t : σ}, M.Along ok s as → M.run s as = some t → M.Along ok t bs →
      M.Along ok s (as ++ bs)
  | [], _, s, t, _, h, ht => by
    obtain rfl : s = t := Option.some.inj h
    exact ht
  | a :: as, bs, s, t, hs, h, ht => by
    obtain ⟨u, hu, h⟩ := run_cons.1 h
    refine ⟨hs.1, fun v hv => ?_⟩
    obtain rfl : u = v := Option.some.inj (hu.symm.trans hv)
    exact Along.append (hs.2 u hu) h ht

theorem Along.and {ok' : σ → α → Prop} :
    ∀ {as : List α} {s : σ}, M.Along ok s as → M.Along ok' s as →
      M.Along (fun s a => ok s a ∧ ok' s a) s as
  | [], _, _, _ => trivial
  | _ :: _, _, h, h' => ⟨⟨h.1, h'.1⟩, fun t ht => Along.and (h.2 t ht) (h'.2 t ht)⟩

theorem Along.imp {ok' : σ → α → Prop} (himp : ∀ s a, ok s a → ok' s a) :
    ∀ {as : List α} {s : σ}, M.Along ok s as → M.Along ok' s as
  | [], _, _ => trivial
  | a :: _, s, h => ⟨himp s a h.1, fun t ht => Along.imp himp (h.2 t ht)⟩

/-- What every step keeps, every run keeps. -/
theorem run_keeps (hstep : ∀ {s a t}, P s → M.step s a = some t → P t) {as : List α} {s t : σ}
    (hs : P s) (h : M.run s as = some t) : P t := by
  have hok : M.Along (fun _ _ => True) s as := along_of_forall_mem fun _ _ _ => trivial
  exact run_invariant (fun hs _ hstep' => hstep hs hstep') hs hok h

/-- An invariant of the state and of what an observer has written down so far, for steps that meet
`ok`. -/
theorem run_record_along {β : Type*} {observe : σ → α → σ → List β} {P : σ → List β → Prop}
    (hstep : ∀ {s a t l}, P s l → ok s a → M.step s a = some t → P t (l ++ observe s a t))
    {as : List α} {s t : σ} {l : List β} (hs : P s l) (hok : M.Along ok s as)
    (h : M.run s as = some t) : P t (l ++ M.record observe s as) := by
  induction as generalizing s l with
  | nil =>
    obtain rfl := Option.some.inj h
    simpa [record] using hs
  | cons a as ih =>
    obtain ⟨u, hu, h⟩ := run_cons.1 h
    have hrest := ih (hstep hs hok.1 hu) (hok.2 u hu) h
    simpa [record, hu] using hrest

/-- The rule without a condition. -/
theorem run_record {β : Type*} {observe : σ → α → σ → List β} {P : σ → List β → Prop}
    (hstep : ∀ {s a t l}, P s l → M.step s a = some t → P t (l ++ observe s a t)) {as : List α}
    {s t : σ} {l : List β} (hs : P s l) (h : M.run s as = some t) :
    P t (l ++ M.record observe s as) := by
  have hok : M.Along (fun _ _ => True) s as := along_of_forall_mem fun _ _ _ => trivial
  exact run_record_along (P := P) (fun hs _ hstep' => hstep hs hstep') hs hok h

/-- What is written down was seen at a step of the run. -/
theorem exists_of_mem_record {β : Type*} {observe : σ → α → σ → List β} {as : List α} {s : σ} {e : β}
    (he : e ∈ M.record observe s as) :
    ∃ bs a u v, bs ++ [a] <+: as ∧ M.run s bs = some u ∧ M.step u a = some v ∧
      e ∈ observe u a v := by
  induction as generalizing s with
  | nil => cases he
  | cons a as ih =>
    rw [record] at he
    split at he
    · rename_i t ht
      rcases List.mem_append.1 he with he | he
      · exact ⟨[], a, s, t, by simp, rfl, ht, he⟩
      · obtain ⟨bs, b, u, v, hbs, hu, hv, he⟩ := ih he
        exact ⟨a :: bs, b, u, v, by simpa using hbs, run_cons.2 ⟨t, ht, hu⟩, hv, he⟩
    · cases he

/-- **The rule of termination**: what every step that meets `ok` lowers bounds the length of a run. -/
theorem run_length_le {μ : σ → ℕ}
    (hstep : ∀ {s a t}, P s → ok s a → M.step s a = some t → P t ∧ μ t < μ s) {as : List α}
    {s t : σ} (hs : P s) (hok : M.Along ok s as) (h : M.run s as = some t) :
    as.length + μ t ≤ μ s := by
  induction as generalizing s with
  | nil =>
    obtain rfl := Option.some.inj h
    simp
  | cons a as ih =>
    obtain ⟨u, hu, h⟩ := run_cons.1 h
    obtain ⟨hP, hlt⟩ := hstep hs hok.1 hu
    have hle := ih hP (hok.2 u hu) h
    rw [List.length_cons]
    omega

/-- **The rule of simulation**: if every step of `M` from related states is answered by a run of `N`
that ends in related states, then so is every run of `M`, by the answers to its steps. -/
theorem run_simulates {τ β : Type*} {N : Machine τ β} {R : σ → τ → Prop}
    {answer : σ → α → σ → List β}
    (hstep : ∀ {s a s' t}, R s t → M.step s a = some s' →
      ∃ t', N.run t (answer s a s') = some t' ∧ R s' t')
    {as : List α} {s s' : σ} {t : τ} (hs : R s t) (h : M.run s as = some s') :
    ∃ t', N.run t (M.record answer s as) = some t' ∧ R s' t' := by
  induction as generalizing s t with
  | nil =>
    obtain rfl := Option.some.inj h
    exact ⟨t, rfl, hs⟩
  | cons a as ih =>
    obtain ⟨u, hu, h⟩ := run_cons.1 h
    obtain ⟨v, hv, hrel⟩ := hstep hs hu
    obtain ⟨t', ht', hrel'⟩ := ih hrel h
    refine ⟨t', ?_, hrel'⟩
    simp only [record, hu]
    exact run_append.2 ⟨v, hv, ht'⟩

/-- The rule of simulation for answers that are not recorded. -/
theorem leads_simulates {τ β : Type*} {N : Machine τ β} {R : σ → τ → Prop}
    (hstep : ∀ {s a s' t}, R s t → M.step s a = some s' → ∃ t', N.Leads t t' ∧ R s' t')
    {as : List α} {s s' : σ} {t : τ} (hs : R s t) (h : M.run s as = some s') :
    ∃ t', N.Leads t t' ∧ R s' t' :=
  run_keeps (P := fun s => ∃ t', N.Leads t t' ∧ R s t')
    (fun ⟨u, hu, hrel⟩ hstep' => by
      obtain ⟨t', ht', hrel'⟩ := hstep hrel hstep'
      exact ⟨t', hu.trans ht', hrel'⟩)
    ⟨t, Leads.refl t, hs⟩ h

theorem Leads.step {s t : σ} {a : α} (h : M.step s a = some t) : M.Leads s t :=
  (Leads.refl s).tail h

theorem Reachable.leads {s t : σ} (hs : M.Reachable s) (h : M.Leads s t) : M.Reachable t := by
  obtain ⟨u, as, hinit, has⟩ := hs
  obtain ⟨bs, hbs⟩ := h
  exact ⟨u, as ++ bs, hinit, run_append.2 ⟨s, has, hbs⟩⟩

theorem Leads.keeps (hstep : ∀ {s a t}, P s → M.step s a = some t → P t) {s t : σ}
    (h : M.Leads s t) (hs : P s) : P t := by
  obtain ⟨as, has⟩ := h
  exact run_keeps hstep hs has

end Machine

end Foundations
