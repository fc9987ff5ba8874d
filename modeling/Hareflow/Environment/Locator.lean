import Hareflow.Environment.Operation
import Hareflow.Task.Reschedulable

/-!
# The locator of an environment

`EnvironmentImpl` keeps one client, the locator, for its administrative requests. When the locator
shuts down unexpectedly, `handle_locator_shutdown` clears `m_locator` and schedules
`reconnect_to_server`, which returns early if there is a locator and otherwise starts a client and
stores it. Any number of calls of `locator_operation` wait for the locator, take it and go on with
the client that they have taken.

The new client is started without the mutex and stored afterwards. If its shutdown is handled in
between, the handler clears a locator that is not there yet, and the dead client is stored after it:
the task that the handler scheduled then returns early. The result about runs excludes that one
schedule.
-/

namespace Hareflow.Environment

open Foundations

/-- A client that is or may become the locator, as far as its unexpected shutdown goes. -/
inductive Locator
  | absent
  | starting
  /-- Started, and the shutdown listener has not been called. -/
  | started
  /-- `handle_locator_shutdown` was called and has not had the mutex yet. -/
  | notifying
  /-- `handle_locator_shutdown` has done its work for this client. -/
  | notified
  | stopped
  deriving DecidableEq, Repr

/-- Where `reconnect_to_server` is. -/
inductive ReconnectPc
  | idle
  /-- Before the early return. -/
  | checking
  | connecting
  /-- In `client->start()`. -/
  | starting (c : ℕ)
  /-- Before the client is stored. -/
  | started (c : ℕ)
  /-- In the `catch` block. -/
  | failed
  deriving DecidableEq, Repr

/-- The client that is about to be stored. -/
def ReconnectPc.candidate : ReconnectPc → Option ℕ
  | .started c => some c
  | _ => none

structure State where
  /-- `m_locator`; the clients are numbered in the order of their creation. -/
  locator : Option ℕ
  clients : ℕ → Locator
  created : ℕ
  /-- `m_reconnect_locator_task`. -/
  reconnect : Task
  pc : ReconnectPc
  /-- The calls of `locator_operation`, as far as they have begun. -/
  operations : ℕ → Option (Call ℕ Unit)

/-- An environment as constructed, with its first locator started. -/
def initial : State where
  locator := some 0
  clients := fun c => if c = 0 then .started else .absent
  created := 1
  reconnect := .fresh
  pc := .idle
  operations := fun _ => none

/-- The atomic steps: critical sections, and what happens between them. -/
inductive Act
  /-- The strand, the timer or the end of the loop of the reconnect task. -/
  | tick (e : Tick)
  /-- The task calls `reconnect_to_server`. -/
  | reconnect
  /-- The critical section with the early return. -/
  | check
  /-- The new client exists. -/
  | connect
  /-- No client could be made. -/
  | connectThrow
  /-- The new client's `start()` reaches `Started`. -/
  | started
  | startThrow
  /-- The critical section that stores the new client. -/
  | install
  /-- The end of the `catch` block. -/
  | retry
  /-- The client calls `handle_locator_shutdown` with a reason other than `ClientInitiated`. -/
  | notify (c : ℕ)
  /-- The critical section of that call. -/
  | handle (c : ℕ)
  /-- A call of `locator_operation` begins. -/
  | operate (k : ℕ)
  | operation (k : ℕ) (a : CallAct ℕ Unit)
  deriving DecidableEq, Repr

/-- What a call may do by the locator that there is. -/
def CallAct.allowed (locator : Option ℕ) : CallAct ℕ Unit → Bool
  | .noLocator => locator.isNone
  | .take c => locator = some c
  | .finish _ => true

/-- `reconnect_to_server` returns to the loop of its task. -/
def State.leave (s : State) : State := { s with pc := .idle, reconnect := s.reconnect.returned }

def State.setClient (s : State) (c : ℕ) (l : Locator) : State :=
  { s with clients := Function.update s.clients c l }

def State.setOperation (s : State) (k : ℕ) (call : Call ℕ Unit) : State :=
  { s with operations := Function.update s.operations k (some call) }

def step (s : State) : Act → Option State
  | .tick e => (s.reconnect.tick e).map fun t => { s with reconnect := t }
  | .reconnect =>
    if s.pc = .idle then s.reconnect.enter.map fun t => { s with reconnect := t, pc := .checking }
    else none
  | .check =>
    if s.pc = .checking then
      match s.locator with
      | some _ => some s.leave
      | none => some { s with pc := .connecting }
    else none
  | .connect =>
    if s.pc = .connecting then
      some { s.setClient s.created .starting with
        created := s.created + 1
        pc := .starting s.created }
    else none
  | .connectThrow => if s.pc = .connecting then some { s with pc := .failed } else none
  | .started =>
    match s.pc with
    | .starting c => some { s.setClient c .started with pc := .started c }
    | _ => none
  | .startThrow =>
    match s.pc with
    | .starting c => some { s.setClient c .stopped with pc := .failed }
    | _ => none
  | .install =>
    match s.pc with
    | .started c => some { s.leave with locator := some c }
    | _ => none
  | .retry =>
    if s.pc = .failed then
      some { s.leave with reconnect := s.reconnect.scheduleAfter.returned }
    else none
  | .notify c => if s.clients c = .started then some (s.setClient c .notifying) else none
  | .handle c =>
    if s.clients c = .notifying then
      some { s.setClient c .notified with
        locator := none
        reconnect := s.reconnect.scheduleNow }
    else none
  | .operate k => if s.operations k = none then some (s.setOperation k (.waiting 1)) else none
  | .operation k a =>
    if a.allowed s.locator then ((s.operations k).bind (·.step a)).map (s.setOperation k) else none

/-- The environment as a machine. -/
def machine : Machine State Act := ⟨(· = initial), step⟩

/-! ## The locator is never dead -/

/-- `reconnect_to_server` is to come or is running. -/
def State.Recovering (s : State) : Prop := s.reconnect.Scheduled ∨ s.pc ≠ .idle

/-- The environment has a reconnect under way, or a locator whose shutdown has not been notified, or
a call of `handle_locator_shutdown` that will clear the locator. (A reconnect alone is not enough
for a locator that is dead, since it returns early when there is a locator.) -/
def State.LocatorAlive (s : State) : Prop :=
  match s.locator with
  | none => s.Recovering
  | some c => s.clients c = .started ∨ ∃ c', s.clients c' = .notifying

/-- A client is not stored after its shutdown has been handled. -/
def NotSwallowed (s : State) (a : Act) : Prop :=
  a = .install → ∀ c ∈ s.pc.candidate, s.clients c ≠ .notified

instance (s : State) (a : Act) : Decidable (NotSwallowed s a) :=
  inferInstanceAs (Decidable (a = .install → ∀ c ∈ s.pc.candidate, s.clients c ≠ .notified))

/-- What the state of the environment says about the state `l` of the client `c`. -/
structure State.Fits (s : State) (c : ℕ) (l : Locator) : Prop where
  fresh : s.created ≤ c → l = .absent
  usable : s.locator = some c → l = .started ∨ l = .notifying
  starting : s.pc = .starting c → l = .starting
  ready : s.pc = .started c → l = .started ∨ l = .notifying ∨ l = .notified

/-- The invariant of the runs in which no shutdown is swallowed. -/
structure Inv (s : State) : Prop where
  alive : s.reconnect.Alive
  recovering : s.locator = none → s.Recovering
  fits : ∀ c, s.Fits c (s.clients c)

theorem Inv.locatorAlive {s : State} (h : Inv s) : s.LocatorAlive := by
  unfold State.LocatorAlive
  split
  · rename_i hnone
    exact h.recovering hnone
  · rename_i c hc
    exact ((h.fits c).usable hc).imp_right fun hn => ⟨c, hn⟩

theorem inv_initial : Inv initial := by
  refine ⟨Task.alive_fresh, nofun, fun c => ⟨fun hc => if_neg (Nat.ne_of_gt hc), ?_, nofun, nofun⟩⟩
  intro hc
  obtain rfl : 0 = c := Option.some.inj hc
  exact .inl rfl

/-- The calls of `locator_operation` do not touch what the invariant speaks of. -/
theorem Inv.setOperation {s : State} (h : Inv s) (k : ℕ) (call : Call ℕ Unit) :
    Inv (s.setOperation k call) :=
  ⟨h.alive, h.recovering, fun c => ⟨(h.fits c).1, (h.fits c).2, (h.fits c).3, (h.fits c).4⟩⟩

/-- The task may return to its loop when there is a locator or an invocation to come. -/
theorem Inv.leave {s : State} (h : Inv s) (hs : s.locator = none → s.reconnect.Scheduled) :
    Inv s.leave :=
  ⟨h.alive.returned, fun hn => .inl (hs hn).returned,
    fun c => ⟨(h.fits c).fresh, (h.fits c).usable, nofun, nofun⟩⟩

/-- A step of `reconnect_to_server` that touches no client. -/
theorem Inv.setPc {s : State} (h : Inv s) {pc : ReconnectPc} (hidle : pc ≠ .idle)
    (hstarting : ∀ c, pc ≠ .starting c) (hstarted : ∀ c, pc ≠ .started c) :
    Inv { s with pc := pc } :=
  ⟨h.alive, fun _ => .inr hidle, fun c => ⟨(h.fits c).fresh, (h.fits c).usable,
    fun hc => absurd hc (hstarting c), fun hc => absurd hc (hstarted c)⟩⟩

/-- A step that changes the state of one client. -/
theorem Inv.setClient {s t : State} {c : ℕ} {l : Locator} (h : Inv s) (halive : t.reconnect.Alive)
    (hrec : t.locator = none → t.Recovering) (hclients : t.clients = Function.update s.clients c l)
    (hself : t.Fits c l)
    (hother : ∀ c', c' ≠ c → s.Fits c' (s.clients c') → t.Fits c' (s.clients c')) :
    Inv t := by
  refine ⟨halive, hrec, ?_⟩
  rw [hclients]
  exact (Function.forall_update_iff _ _).2 ⟨hself, fun c' hne => hother c' hne (h.fits c')⟩

theorem inv_step {s t : State} {a : Act} (hs : Inv s) (hok : NotSwallowed s a)
    (h : step s a = some t) : Inv t := by
  cases a <;> simp only [step] at h
  case tick e =>
    obtain ⟨u, hu, rfl⟩ := Option.map_eq_some_iff.1 h
    exact ⟨hs.alive.tick hu, fun hn => (hs.recovering hn).imp_left fun h => h.tick hs.alive hu,
      fun c => ⟨(hs.fits c).1, (hs.fits c).2, (hs.fits c).3, (hs.fits c).4⟩⟩
  case reconnect =>
    split at h
    · obtain ⟨u, hu, rfl⟩ := Option.map_eq_some_iff.1 h
      exact ⟨hs.alive.enter hu, fun _ => .inr nofun,
        fun c => ⟨(hs.fits c).fresh, (hs.fits c).usable, nofun, nofun⟩⟩
    · cases h
  case check =>
    split at h
    · split at h <;> cases h
      · rename_i c hc
        exact hs.leave fun hn => by rw [hn] at hc; cases hc
      · exact hs.setPc nofun nofun nofun
    · cases h
  case connect =>
    split at h <;> cases h
    have hnew := (hs.fits s.created).fresh (Nat.le_refl _)
    refine hs.setClient hs.alive (fun _ => .inr nofun) rfl ⟨?_, ?_, fun _ => rfl, nofun⟩ ?_
    · exact fun hc => absurd hc (Nat.not_succ_le_self _)
    · intro hc
      rcases (hs.fits _).usable hc with h | h <;> rw [hnew] at h <;> cases h
    · intro c hne hfits
      refine ⟨fun hc => hfits.fresh (Nat.le_of_succ_le hc), hfits.usable, fun hc => ?_, nofun⟩
      exact absurd (ReconnectPc.starting.inj hc).symm hne
  case connectThrow =>
    split at h <;> cases h
    exact hs.setPc nofun nofun nofun
  case started =>
    split at h <;> cases h
    rename_i c hpc
    have hstarting := (hs.fits c).starting hpc
    refine hs.setClient hs.alive (fun _ => .inr nofun) rfl
      ⟨fun hc => ?_, fun _ => .inl rfl, nofun, fun _ => .inl rfl⟩ ?_
    · rw [(hs.fits c).fresh hc] at hstarting
      cases hstarting
    · intro c' hne hfits
      exact ⟨hfits.fresh, hfits.usable, nofun,
        fun hc => absurd (ReconnectPc.started.inj hc).symm hne⟩
  case startThrow =>
    split at h <;> cases h
    rename_i c hpc
    have hstarting := (hs.fits c).starting hpc
    refine hs.setClient hs.alive (fun _ => .inr nofun) rfl ⟨fun hc => ?_, fun hc => ?_, nofun, nofun⟩ ?_
    · rw [(hs.fits c).fresh hc] at hstarting
      cases hstarting
    · rcases (hs.fits c).usable hc with h | h <;> rw [hstarting] at h <;> cases h
    · exact fun c' _ hfits => ⟨hfits.fresh, hfits.usable, nofun, nofun⟩
  case install =>
    split at h <;> cases h
    rename_i c hpc
    refine ⟨hs.alive.returned, nofun, fun c' => ⟨(hs.fits c').fresh, fun hc => ?_, nofun, nofun⟩⟩
    obtain rfl : c = c' := Option.some.inj hc
    -- the shutdown of the new client has not been handled, so it is still to be handled, or to come
    obtain h | h | h := (hs.fits c).ready hpc
    · exact .inl h
    · exact .inr h
    · exact absurd h (hok rfl c (by rw [hpc]; rfl))
  case retry =>
    split at h <;> cases h
    exact ⟨hs.alive.scheduleAfter.returned, fun _ => .inl hs.alive.scheduled_scheduleAfter.returned,
      fun c => ⟨(hs.fits c).fresh, (hs.fits c).usable, nofun, nofun⟩⟩
  case notify c =>
    split at h <;> cases h
    rename_i hc
    refine hs.setClient hs.alive hs.recovering rfl ⟨fun hle => ?_, fun _ => .inr rfl, fun hpc => ?_,
      fun _ => .inr (.inl rfl)⟩ fun c' _ hfits => ⟨hfits.1, hfits.2, hfits.3, hfits.4⟩
    · rw [(hs.fits c).fresh hle] at hc
      cases hc
    · rw [(hs.fits c).starting hpc] at hc
      cases hc
  case handle c =>
    split at h <;> cases h
    rename_i hc
    refine hs.setClient hs.alive.scheduleNow (fun _ => .inl hs.alive.scheduled_scheduleNow) rfl
      ⟨fun hle => ?_, nofun, fun hpc => ?_, fun _ => .inr (.inr rfl)⟩
      fun c' _ hfits => ⟨hfits.1, nofun, hfits.3, hfits.4⟩
    · rw [(hs.fits c).fresh hle] at hc
      cases hc
    · rw [(hs.fits c).starting hpc] at hc
      cases hc
  case operate k =>
    split at h <;> cases h
    exact hs.setOperation k _
  case operation k a =>
    split at h
    · obtain ⟨call, -, rfl⟩ := Option.map_eq_some_iff.1 h
      exact hs.setOperation k call
    · cases h

/-- **The environment never keeps a dead locator**, at the end of every run in which no client is
stored after its shutdown has been handled. -/
theorem locatorAlive_of_run {s t : State} {as : List Act} (h0 : machine.Init s)
    (hok : machine.Along NotSwallowed s as) (h : machine.run s as = some t) : t.LocatorAlive := by
  have hinit : ∀ {s}, machine.Init s → Inv s := by
    rintro s rfl
    exact inv_initial
  exact (Machine.invariant_along hinit inv_step h0 hok h).locatorAlive

/-- The first locator is lost and its shutdown handled; the reconnect starts a new client. -/
def recovery : List Act :=
  [.notify 0, .handle 0, .tick .strand, .reconnect, .check, .connect, .started]

/-- The theorem at a run in which the locator is lost while an operation waits, and replaced. -/
theorem locatorAlive_of_recovery :
    ∃ t, machine.run initial (recovery ++ [Act.operate 0, .install, .operation 0 (.take 1)]) = some t ∧
      t.locator = some 1 ∧ t.LocatorAlive := by
  have hok : machine.checkAlong NotSwallowed initial
      (recovery ++ [Act.operate 0, .install, .operation 0 (.take 1)]) = true := rfl
  exact ⟨_, rfl, rfl, locatorAlive_of_run rfl (Machine.along_of_check hok) rfl⟩

/-- **The swallowed shutdown**: the new client shuts down, and is handled, before it is stored. -/
theorem locator_dead_after_install :
    ¬∀ t, machine.Reachable t → t.LocatorAlive := by
  intro h
  obtain hc | ⟨c, hc⟩ := h _ ⟨initial, recovery ++ [Act.notify 1, .handle 1, .install], rfl, rfl⟩
  · cases hc
  · rcases c with _ | _ | c <;> cases hc

/-! ## The calls -/

/-- What a step does to the calls. -/
theorem operations_step {s t : State} {a : Act} (h : step s a = some t) :
    t.operations = s.operations ∨
      (∃ k, t.operations = Function.update s.operations k (some (.waiting 1))) ∨
      ∃ k call call' b, s.operations k = some call ∧ Call.step call b = some call' ∧
        t.operations = Function.update s.operations k (some call') := by
  cases a <;> simp only [step] at h
  case tick e =>
    obtain ⟨u, hu, rfl⟩ := Option.map_eq_some_iff.1 h
    exact .inl rfl
  case reconnect =>
    split at h
    · obtain ⟨u, hu, rfl⟩ := Option.map_eq_some_iff.1 h
      exact .inl rfl
    · cases h
  case check =>
    (repeat' split at h) <;> cases h <;> exact .inl rfl
  case connect | connectThrow | started | startThrow | install | retry | notify c | handle c =>
    split at h <;> cases h
    exact .inl rfl
  case operate k =>
    split at h <;> cases h
    exact .inr (.inl ⟨k, rfl⟩)
  case operation k b =>
    split at h
    · obtain ⟨call', hcall', rfl⟩ := Option.map_eq_some_iff.1 h
      obtain ⟨call, hcall, hstep⟩ := Option.bind_eq_some_iff.1 hcall'
      exact .inr (.inr ⟨k, call, call', b, hcall, hstep, rfl⟩)
    · cases h

/-- **No call of `locator_operation` makes more than three attempts**, whatever happens to the locator
in the meantime, and one that ends with a `TimeoutException` or an `IOException` has made three. -/
theorem operations_bounded {t : State} (h : machine.Reachable t) (k : ℕ) {call : Call ℕ Unit}
    (hcall : t.operations k = some call) : call.Bounded := by
  obtain ⟨s, as, rfl, h⟩ := h
  have hstep : ∀ {s a t}, (∀ k call, s.operations k = some call → call.Bounded) →
      machine.step s a = some t → ∀ k call, t.operations k = some call → call.Bounded := by
    intro s a t hs h
    -- one call moves, and the others stay where they are
    have hmoved {k : ℕ} {call : Call ℕ Unit} (hcall : call.Bounded)
        (ht : t.operations = Function.update s.operations k (some call)) :
        ∀ k call, t.operations k = some call → call.Bounded := by
      intro k' call' hk'
      rw [ht] at hk'
      by_cases hk : k' = k
      · rw [hk, Function.update_self] at hk'
        obtain rfl := Option.some.inj hk'
        exact hcall
      · rw [Function.update_of_ne hk] at hk'
        exact hs k' call' hk'
    obtain hsame | ⟨k, hk⟩ | ⟨k, call, call', b, hcall, hb, hk⟩ := operations_step h
    · rw [hsame]
      exact hs
    · have hfirst : (Call.waiting 1 : Call ℕ Unit).Bounded := ⟨Nat.one_pos, by decide⟩
      exact hmoved hfirst hk
    · exact hmoved ((hs k call hcall).step hb) hk
  exact Machine.run_keeps (M := machine)
    (P := fun s => ∀ k call, s.operations k = some call → call.Bounded) hstep
    (fun _ _ hnone => by cases hnone) h k call hcall

end Hareflow.Environment
