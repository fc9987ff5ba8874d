import Hareflow.Foundations.Machine
import Hareflow.Task.Reconnection

/-!
# The recovery of a producer

`ProducerImpl` publishes through one client, `m_client`. An unexpected shutdown of the client clears
it and schedules `reconnect_to_server`; a metadata update of the stream schedules
`delayed_reconnect`, which takes the client away, stops it and schedules `reconnect_to_server` after
a delay; and if the stream is gone, `reconnect_to_server` schedules the task that stops the producer.
`reconnect_to_server` returns early if there is a client, and otherwise starts one, declares the
publisher on it, resends what is unconfirmed and stores it.

A notification can come for a client that is not stored yet. `handle_shutdown` ignores it while the
producer is `Starting`, and both handlers act on `m_client`, which is another client or none as long
as the new one is not stored. The result about runs excludes that a client is put in service after
its notification has been spent in one of these ways.

The mutex is held by `start()` from its lock to its end; the other critical sections are one step
each. The destruction of the tasks inside `internal_stop` is left out: the stream-deleted task is
running then, and a task that goes on only adds runs.
-/

namespace Hareflow.Producer.Recovery

open Foundations

/-- `ProducerImpl::Status`. -/
inductive Status
  | initialized
  | starting
  | started
  | stopped
  deriving DecidableEq, Repr

/-- How far a client is. -/
inductive Phase
  | absent
  | created
  | started
  /-- Started, with the publisher declared. -/
  | declared
  deriving DecidableEq, Repr

/-- The call of `handle_shutdown` by a client, with a reason other than `ClientInitiated`. -/
inductive Shutdown
  | none
  /-- Before the test of the status. -/
  | called
  /-- Past the test, before the mutex. -/
  | waiting
  /-- Returned, having cleared `m_client` or not. -/
  | returned
  deriving DecidableEq, Repr

/-- Where the call of `start()` is. -/
inductive StartPc
  | idle
  /-- `Starting`, before the mutex. -/
  | entered
  /-- The client is stored in `m_client`. -/
  | stored (c : ℕ)
  | started (c : ℕ)
  | declared (c : ℕ)
  | returned
  | threw
  deriving DecidableEq, Repr

/-- The client of `start()`, which has the mutex once it has one. -/
def StartPc.client : StartPc → Option ℕ
  | .stored c | .started c | .declared c => some c
  | _ => none

/-- `start()` has the mutex. -/
def StartPc.locks (pc : StartPc) : Bool := pc.client.isSome

/-- Where `reconnect_to_server` is. -/
inductive ReconnectPc
  | idle
  /-- Before the early return. -/
  | checking
  | connecting
  | created (c : ℕ)
  | started (c : ℕ)
  /-- Before the critical section that resends and stores. -/
  | declared (c : ℕ)
  /-- In the `catch` block, and whether the stream does not exist. -/
  | failed (deleted : Bool)
  deriving DecidableEq, Repr

/-- Where `delayed_reconnect` is. -/
inductive DelayedPc
  | idle
  /-- Before its critical section. -/
  | checking
  /-- The client has been taken and is being stopped. -/
  | taken
  deriving DecidableEq, Repr

structure State where
  status : Status
  /-- `m_client`; the clients are numbered in the order of their creation. -/
  client : Option ℕ
  created : ℕ
  phase : ℕ → Phase
  /-- `max_frame_size()` of each client. -/
  maxFrameSize : ℕ → UInt32
  /-- `m_max_frame_size` of the accumulator. -/
  accumulatorMaxFrameSize : UInt32
  shutdown : ℕ → Shutdown
  /-- The client has reported a metadata update of the stream. -/
  updated : ℕ → Bool
  start : StartPc
  reconnectTask : Task
  reconnect : ReconnectPc
  delayedReconnectTask : Task
  delayed : DelayedPc
  streamDeletedTask : Task
  /-- The stream-deleted task is in `internal_stop`. -/
  stopping : Bool

/-- A producer as constructed. -/
def initial : State where
  status := .initialized
  client := none
  created := 0
  phase := fun _ => .absent
  maxFrameSize := fun _ => 0
  accumulatorMaxFrameSize := 0
  shutdown := fun _ => .none
  updated := fun _ => false
  start := .idle
  reconnectTask := .fresh
  reconnect := .idle
  delayedReconnectTask := .fresh
  delayed := .idle
  streamDeletedTask := .fresh
  stopping := false

/-- The atomic steps. -/
inductive Act
  | start
  /-- Take the mutex and store a new client. -/
  | startStore
  | startClient (maxFrameSize : UInt32)
  | startDeclare
  /-- Exchange `Starting` for `Started`. -/
  | startExchange
  | startThrow
  /-- The client calls `handle_shutdown` with a reason other than `ClientInitiated`. -/
  | shutdown (c : ℕ)
  /-- The test of the status. -/
  | shutdownTest (c : ℕ)
  /-- The critical section. -/
  | shutdownHandle (c : ℕ)
  /-- The client calls `handle_metadata_update` for the stream. -/
  | metadataUpdate (c : ℕ)
  | tickReconnect (e : Tick)
  | tickDelayed (e : Tick)
  | tickDeleted (e : Tick)
  | reconnect
  /-- The critical section with the early return. -/
  | reconnectCheck
  | reconnectCreate
  | reconnectClient (maxFrameSize : UInt32)
  | reconnectDeclare
  /-- The critical section that resends and stores. -/
  | reconnectStore
  | reconnectThrow (deleted : Bool)
  /-- The `catch` block. -/
  | reconnectCatch
  | delayed
  /-- The critical section that takes the client. -/
  | delayedTake
  | delayedEnd
  /-- The stream-deleted task enters `internal_stop`. -/
  | deleted
  /-- The exchange of the status for `Stopped`. -/
  | deletedExchange
  deriving DecidableEq, Repr

/-- A new client comes into being. -/
def State.create (s : State) : State :=
  { s with
    created := s.created + 1
    phase := Function.update s.phase s.created .created }

/-- A client starts and negotiates its frame size. -/
def State.startClient (s : State) (c : ℕ) (maxFrameSize : UInt32) : State :=
  { s with
    phase := Function.update s.phase c .started
    maxFrameSize := Function.update s.maxFrameSize c maxFrameSize }

def State.declare (s : State) (c : ℕ) : State :=
  { s with phase := Function.update s.phase c .declared }

def State.setShutdown (s : State) (c : ℕ) (r : Shutdown) : State :=
  { s with shutdown := Function.update s.shutdown c r }

/-- `reconnect_to_server` returns to the loop of its task. -/
def State.leaveReconnect (s : State) : State :=
  { s with reconnect := .idle, reconnectTask := s.reconnectTask.returned }

/-- `delayed_reconnect` returns to the loop of its task. -/
def State.leaveDelayed (s : State) : State :=
  { s with delayed := .idle, delayedReconnectTask := s.delayedReconnectTask.returned }

def step (s : State) : Act → Option State
  | .start =>
    if s.start = .idle then
      if s.status = .initialized then some { s with status := .starting, start := .entered }
      else some { s with start := .threw }
    else none
  | .startStore =>
    if s.start = .entered then
      some { s.create with client := some s.created, start := .stored s.created }
    else none
  | .startClient m =>
    match s.start with
    | .stored c => some { s.startClient c m with start := .started c, accumulatorMaxFrameSize := m }
    | _ => none
  | .startDeclare =>
    match s.start with
    | .started c => some { s.declare c with start := .declared c }
    | _ => none
  | .startExchange =>
    match s.start with
    | .declared _ =>
      if s.status = .starting then some { s with status := .started, start := .returned }
      else some { s with start := .threw }
    | _ => none
  | .startThrow =>
    match s.start with
    | .entered | .stored _ | .started _ => some { s with start := .threw }
    | _ => none
  | .shutdown c =>
    if s.phase c = .declared ∧ s.shutdown c = .none then some (s.setShutdown c .called) else none
  | .shutdownTest c =>
    if s.shutdown c = .called then
      some (s.setShutdown c (if s.status = .started then .waiting else .returned))
    else none
  | .shutdownHandle c =>
    if s.shutdown c = .waiting ∧ s.start.locks = false then
      some { s.setShutdown c .returned with
        client := none
        reconnectTask := s.reconnectTask.scheduleNow }
    else none
  | .metadataUpdate c =>
    if s.phase c = .declared then
      some { s with
        updated := Function.update s.updated c true
        delayedReconnectTask := s.delayedReconnectTask.scheduleNow }
    else none
  | .tickReconnect e => (s.reconnectTask.tick e).map fun t => { s with reconnectTask := t }
  | .tickDelayed e =>
    (s.delayedReconnectTask.tick e).map fun t => { s with delayedReconnectTask := t }
  | .tickDeleted e => (s.streamDeletedTask.tick e).map fun t => { s with streamDeletedTask := t }
  | .reconnect =>
    if s.reconnect = .idle then
      s.reconnectTask.enter.map fun t => { s with reconnectTask := t, reconnect := .checking }
    else none
  | .reconnectCheck =>
    if s.reconnect = .checking ∧ s.start.locks = false then
      if s.client ≠ none ∨ s.status ≠ .started then some s.leaveReconnect
      else some { s with reconnect := .connecting }
    else none
  | .reconnectCreate =>
    if s.reconnect = .connecting then some { s.create with reconnect := .created s.created }
    else none
  | .reconnectClient m =>
    match s.reconnect with
    | .created c => some { s.startClient c m with reconnect := .started c }
    | _ => none
  | .reconnectDeclare =>
    match s.reconnect with
    | .started c => some { s.declare c with reconnect := .declared c }
    | _ => none
  | .reconnectStore =>
    match s.reconnect with
    | .declared c =>
      if s.start.locks = false then
        if s.status = .started then some { s.leaveReconnect with client := some c }
        else some s.leaveReconnect
      else none
    | _ => none
  | .reconnectThrow deleted =>
    match s.reconnect with
    | .connecting | .created _ | .started _ | .declared _ =>
      some { s with reconnect := .failed deleted }
    | _ => none
  | .reconnectCatch =>
    match s.reconnect with
    | .failed true =>
      some { s.leaveReconnect with streamDeletedTask := s.streamDeletedTask.scheduleNow }
    | .failed false =>
      some { s.leaveReconnect with reconnectTask := s.reconnectTask.scheduleAfter.returned }
    | _ => none
  | .delayed =>
    if s.delayed = .idle then
      s.delayedReconnectTask.enter.map fun t =>
        { s with delayedReconnectTask := t, delayed := .checking }
    else none
  | .delayedTake =>
    if s.delayed = .checking ∧ s.start.locks = false then
      if s.status = .started then some { s with client := none, delayed := .taken }
      else some s.leaveDelayed
    else none
  | .delayedEnd =>
    if s.delayed = .taken then
      some { s.leaveDelayed with reconnectTask := s.reconnectTask.scheduleAfter }
    else none
  | .deleted =>
    if s.stopping = false then
      s.streamDeletedTask.enter.map fun t => { s with streamDeletedTask := t, stopping := true }
    else none
  | .deletedExchange => if s.stopping then some { s with status := .stopped } else none

/-- The producer as a machine. -/
def machine : Machine State Act := ⟨(· = initial), step⟩

/-! ## What a step does -/

/-- The steps, case by case. -/
inductive Move (s : State) : Act → State → Prop
  | start (hidle : s.start = .idle) : Move s .start { s with status := .starting, start := .entered }
  /-- `start()` has been called before. -/
  | startRefused (hidle : s.start = .idle) : Move s .start { s with start := .threw }
  | startStore (hentered : s.start = .entered) : Move s .startStore
      { s.create with client := some s.created, start := .stored s.created }
  | startClient {c : ℕ} (m : UInt32) (hstored : s.start = .stored c) : Move s (.startClient m)
      { s.startClient c m with start := .started c, accumulatorMaxFrameSize := m }
  | startDeclare {c : ℕ} (hstarted : s.start = .started c) :
      Move s .startDeclare { s.declare c with start := .declared c }
  | startExchange {c : ℕ} (hdeclared : s.start = .declared c) :
      Move s .startExchange { s with status := .started, start := .returned }
  /-- The producer has been stopped meanwhile. -/
  | startLate {c : ℕ} (hdeclared : s.start = .declared c) :
      Move s .startExchange { s with start := .threw }
  | startThrow (hpc : s.start = .entered ∨ ∃ c, s.start = .stored c ∨ s.start = .started c) :
      Move s .startThrow { s with start := .threw }
  | shutdown {c : ℕ} (hdeclared : s.phase c = .declared) (hnone : s.shutdown c = .none) :
      Move s (.shutdown c) (s.setShutdown c .called)
  | shutdownWait {c : ℕ} (hcalled : s.shutdown c = .called) (hstatus : s.status = .started) :
      Move s (.shutdownTest c) (s.setShutdown c .waiting)
  | shutdownIgnore {c : ℕ} (hcalled : s.shutdown c = .called) (hstatus : s.status ≠ .started) :
      Move s (.shutdownTest c) (s.setShutdown c .returned)
  | shutdownHandle {c : ℕ} (hwaiting : s.shutdown c = .waiting) (hfree : s.start.locks = false) :
      Move s (.shutdownHandle c) { s.setShutdown c .returned with
        client := none
        reconnectTask := s.reconnectTask.scheduleNow }
  | metadataUpdate {c : ℕ} (hdeclared : s.phase c = .declared) : Move s (.metadataUpdate c) { s with
      updated := Function.update s.updated c true
      delayedReconnectTask := s.delayedReconnectTask.scheduleNow }
  | tickReconnect {e : Tick} {u : Task} (hu : s.reconnectTask.tick e = some u) :
      Move s (.tickReconnect e) { s with reconnectTask := u }
  | tickDelayed {e : Tick} {u : Task} (hu : s.delayedReconnectTask.tick e = some u) :
      Move s (.tickDelayed e) { s with delayedReconnectTask := u }
  | tickDeleted {e : Tick} {u : Task} (hu : s.streamDeletedTask.tick e = some u) :
      Move s (.tickDeleted e) { s with streamDeletedTask := u }
  | reconnect {u : Task} (hidle : s.reconnect = .idle) (hu : s.reconnectTask.enter = some u) :
      Move s .reconnect { s with reconnectTask := u, reconnect := .checking }
  | reconnectEarly (hchecking : s.reconnect = .checking)
      (hearly : s.client ≠ none ∨ s.status ≠ .started) : Move s .reconnectCheck s.leaveReconnect
  | reconnectGo (hchecking : s.reconnect = .checking) (hclient : s.client = none)
      (hstatus : s.status = .started) : Move s .reconnectCheck { s with reconnect := .connecting }
  | reconnectCreate (hconnecting : s.reconnect = .connecting) :
      Move s .reconnectCreate { s.create with reconnect := .created s.created }
  | reconnectClient {c : ℕ} (m : UInt32) (hcreated : s.reconnect = .created c) :
      Move s (.reconnectClient m) { s.startClient c m with reconnect := .started c }
  | reconnectDeclare {c : ℕ} (hstarted : s.reconnect = .started c) :
      Move s .reconnectDeclare { s.declare c with reconnect := .declared c }
  | reconnectStore {c : ℕ} (hdeclared : s.reconnect = .declared c) (hfree : s.start.locks = false)
      (hstatus : s.status = .started) :
      Move s .reconnectStore { s.leaveReconnect with client := some c }
  | reconnectLate {c : ℕ} (hdeclared : s.reconnect = .declared c) (hstatus : s.status ≠ .started) :
      Move s .reconnectStore s.leaveReconnect
  | reconnectThrow (deleted : Bool)
      (hpc : s.reconnect = .connecting ∨
        ∃ c, s.reconnect = .created c ∨ s.reconnect = .started c ∨ s.reconnect = .declared c) :
      Move s (.reconnectThrow deleted) { s with reconnect := .failed deleted }
  | reconnectGone (hfailed : s.reconnect = .failed true) : Move s .reconnectCatch
      { s.leaveReconnect with streamDeletedTask := s.streamDeletedTask.scheduleNow }
  | reconnectRetry (hfailed : s.reconnect = .failed false) : Move s .reconnectCatch
      { s.leaveReconnect with reconnectTask := s.reconnectTask.scheduleAfter.returned }
  | delayed {u : Task} (hidle : s.delayed = .idle) (hu : s.delayedReconnectTask.enter = some u) :
      Move s .delayed { s with delayedReconnectTask := u, delayed := .checking }
  | delayedTake (hchecking : s.delayed = .checking) (hfree : s.start.locks = false)
      (hstatus : s.status = .started) :
      Move s .delayedTake { s with client := none, delayed := .taken }
  | delayedLate (hchecking : s.delayed = .checking) (hstatus : s.status ≠ .started) :
      Move s .delayedTake s.leaveDelayed
  | delayedEnd (htaken : s.delayed = .taken) : Move s .delayedEnd
      { s.leaveDelayed with reconnectTask := s.reconnectTask.scheduleAfter }
  | deleted {u : Task} (hu : s.streamDeletedTask.enter = some u) :
      Move s .deleted { s with streamDeletedTask := u, stopping := true }
  | deletedExchange (hstopping : s.stopping = true) :
      Move s .deletedExchange { s with status := .stopped }

theorem move_of_step {s t : State} {a : Act} (h : step s a = some t) : Move s a t := by
  cases a <;> simp only [step] at h
  case start =>
    split at h
    · rename_i hidle
      split at h <;> cases h
      · exact .start hidle
      · exact .startRefused hidle
    · cases h
  case startStore =>
    split at h <;> cases h
    exact .startStore ‹_›
  case startClient m =>
    split at h <;> cases h
    exact .startClient m ‹_›
  case startDeclare =>
    split at h <;> cases h
    exact .startDeclare ‹_›
  case startExchange =>
    split at h
    · rename_i c hdeclared
      split at h <;> cases h
      · exact .startExchange hdeclared
      · exact .startLate hdeclared
    · cases h
  case startThrow =>
    split at h <;> cases h
    · exact .startThrow (.inl ‹_›)
    · exact .startThrow (.inr ⟨_, .inl ‹_›⟩)
    · exact .startThrow (.inr ⟨_, .inr ‹_›⟩)
  case shutdown c =>
    split at h <;> cases h
    rename_i hc
    exact .shutdown hc.1 hc.2
  case shutdownTest c =>
    split at h <;> cases h
    rename_i hcalled
    by_cases hstatus : s.status = .started
    · rw [if_pos hstatus]
      exact .shutdownWait hcalled hstatus
    · rw [if_neg hstatus]
      exact .shutdownIgnore hcalled hstatus
  case shutdownHandle c =>
    split at h <;> cases h
    rename_i hc
    exact .shutdownHandle hc.1 hc.2
  case metadataUpdate c =>
    split at h <;> cases h
    exact .metadataUpdate ‹_›
  case tickReconnect e =>
    obtain ⟨u, hu, rfl⟩ := Option.map_eq_some_iff.1 h
    exact .tickReconnect hu
  case tickDelayed e =>
    obtain ⟨u, hu, rfl⟩ := Option.map_eq_some_iff.1 h
    exact .tickDelayed hu
  case tickDeleted e =>
    obtain ⟨u, hu, rfl⟩ := Option.map_eq_some_iff.1 h
    exact .tickDeleted hu
  case reconnect =>
    split at h
    · obtain ⟨u, hu, rfl⟩ := Option.map_eq_some_iff.1 h
      exact .reconnect ‹_› hu
    · cases h
  case reconnectCheck =>
    split at h
    · rename_i hc
      split at h <;> cases h
      · exact .reconnectEarly hc.1 ‹_›
      · rename_i hgo
        obtain ⟨hclient, hstatus⟩ := not_or.1 hgo
        exact .reconnectGo hc.1 (not_not.1 hclient) (not_not.1 hstatus)
    · cases h
  case reconnectCreate =>
    split at h <;> cases h
    exact .reconnectCreate ‹_›
  case reconnectClient m =>
    split at h <;> cases h
    exact .reconnectClient m ‹_›
  case reconnectDeclare =>
    split at h <;> cases h
    exact .reconnectDeclare ‹_›
  case reconnectStore =>
    split at h
    · rename_i c hdeclared
      split at h
      · rename_i hfree
        split at h <;> cases h
        · exact .reconnectStore hdeclared hfree ‹_›
        · exact .reconnectLate hdeclared ‹_›
      · cases h
    · cases h
  case reconnectThrow deleted =>
    split at h <;> cases h
    · exact .reconnectThrow deleted (.inl ‹_›)
    · exact .reconnectThrow deleted (.inr ⟨_, .inl ‹_›⟩)
    · exact .reconnectThrow deleted (.inr ⟨_, .inr (.inl ‹_›)⟩)
    · exact .reconnectThrow deleted (.inr ⟨_, .inr (.inr ‹_›)⟩)
  case reconnectCatch =>
    split at h <;> cases h
    · exact .reconnectGone ‹_›
    · exact .reconnectRetry ‹_›
  case delayed =>
    split at h
    · obtain ⟨u, hu, rfl⟩ := Option.map_eq_some_iff.1 h
      exact .delayed ‹_› hu
    · cases h
  case delayedTake =>
    split at h
    · rename_i hc
      split at h <;> cases h
      · exact .delayedTake hc.1 hc.2 ‹_›
      · exact .delayedLate hc.1 ‹_›
    · cases h
  case delayedEnd =>
    split at h <;> cases h
    exact .delayedEnd ‹_›
  case deleted =>
    split at h
    · obtain ⟨u, hu, rfl⟩ := Option.map_eq_some_iff.1 h
      exact .deleted hu
    · cases h
  case deletedExchange =>
    split at h <;> cases h
    exact .deletedExchange ‹_›

/-! ## The producer is never stuck on a dead connection -/

/-- The client has received no notification. -/
def State.Unnotified (s : State) (c : ℕ) : Prop := s.shutdown c = .none ∧ s.updated c = false

/-- A call of `handle_shutdown` by the client is on its way to the mutex. -/
def State.ShuttingDown (s : State) (c : ℕ) : Prop :=
  s.shutdown c = .called ∨ s.shutdown c = .waiting

/-- What the recovery of a producer has in common with that of a consumer. -/
def State.reconnection (s : State) : Reconnection where
  serving := s.status = .started
  client := s.client
  ended := fun c => s.shutdown c = .returned
  updated := fun c => s.updated c = true
  reconnectTask := s.reconnectTask
  reconnecting := s.reconnect ≠ .idle
  delayedReconnectTask := s.delayedReconnectTask
  checking := s.delayed = .checking
  taken := s.delayed = .taken
  streamDeletedTask := s.streamDeletedTask
  stopping := s.stopping = true

/-- `delayed_reconnect` will take the client. -/
def State.DelayedPending (s : State) : Prop := s.reconnection.DelayedPending

/-- `reconnect_to_server` is to come or running, or about to be scheduled. -/
def State.Reconnecting (s : State) : Prop := s.reconnection.Reconnecting

/-- The producer is to be stopped because its stream does not exist. -/
def State.Deleting (s : State) : Prop := s.reconnection.Deleting

/-- A started producer has a client that was not notified, or something that will clear or replace
its client: a call of `handle_shutdown`, a delayed reconnect, the stream-deleted task, or, when there
is no client and so no early return, a reconnect. -/
def State.NotStuck (s : State) : Prop :=
  s.status = .started →
    (∃ c, s.client = some c ∧ s.Unnotified c) ∨ (∃ c, s.ShuttingDown c) ∨ s.DelayedPending ∨
      s.Deleting ∨ (s.client = none ∧ s.Reconnecting)

/-- A notification of the client is spent. -/
def State.Spent (s : State) (c : ℕ) : Prop := s.reconnection.Spent c

/-- The client that a step puts in service: the one that `start()` reports as started, or that
`reconnect_to_server` stores. -/
def State.entering (s : State) : Act → Option ℕ
  | .startExchange =>
    match s.start with
    | .declared c => some c
    | _ => none
  | .reconnectStore =>
    match s.reconnect with
    | .declared c => some c
    | _ => none
  | _ => none

/-- No client is put in service after one of its notifications is spent. -/
def NotSpent (s : State) (a : Act) : Prop := ∀ c ∈ s.entering a, ¬s.Spent c

instance (s : State) : Decidable s.DelayedPending :=
  inferInstanceAs (Decidable (s.delayedReconnectTask.Scheduled ∨ s.delayed = .checking))

instance (s : State) : Decidable s.Deleting :=
  inferInstanceAs (Decidable (s.streamDeletedTask.Scheduled ∨ s.stopping = true))

instance (s : State) (c : ℕ) : Decidable (s.Spent c) :=
  inferInstanceAs (Decidable (s.shutdown c = .returned ∨ s.updated c = true ∧ ¬s.DelayedPending))

instance (s : State) (a : Act) : Decidable (NotSpent s a) :=
  inferInstanceAs (Decidable (∀ c ∈ s.entering a, ¬s.Spent c))

/-- The invariant of the runs in which no notification is spent too early. -/
structure Inv (s : State) : Prop where
  keeps : s.reconnection.Inv
  returned : s.status = .started → s.start = .returned
  stored : ∀ c, s.start.client = some c → s.client = some c

theorem Inv.notStuck {s : State} (h : Inv s) : s.NotStuck := by
  intro hs
  obtain ⟨c, hc, hended, hupdated⟩ | hd | hd | hr := h.keeps.notStuck hs
  · cases hsh : s.shutdown c with
    | none => exact .inl ⟨c, hc, hsh, by simpa [State.reconnection] using hupdated⟩
    | called => exact .inr (.inl ⟨c, .inl hsh⟩)
    | waiting => exact .inr (.inl ⟨c, .inr hsh⟩)
    | returned => exact absurd hsh hended
  · exact .inr (.inr (.inl hd))
  · exact .inr (.inr (.inr (.inl hd)))
  · exact .inr (.inr (.inr (.inr hr)))

theorem inv_initial : Inv initial :=
  ⟨⟨Task.alive_fresh, Task.alive_fresh, Task.alive_fresh, nofun, nofun⟩, nofun, nofun⟩

theorem StartPc.client_of_locks {pc : StartPc} {c : ℕ} (h : pc.locks = false) :
    pc.client ≠ some c := by
  cases pc <;> simp [StartPc.locks, StartPc.client] at h ⊢

theorem State.returned_of_setShutdown {s : State} {c : ℕ} {r : Shutdown} (hr : r ≠ .returned)
    (c' : ℕ) (h : (s.setShutdown c r).shutdown c' = .returned) : s.shutdown c' = .returned := by
  unfold State.setShutdown at h
  by_cases hc : c' = c
  · subst hc
    exact absurd ((Function.update_self ..).symm.trans h) hr
  · exact (Function.update_of_ne hc ..).symm.trans h

/-- A step that leaves the status, the client and `start()` alone. -/
theorem Inv.keep {s t : State} (hs : Inv s) (hstep : s.reconnection.Step t.reconnection)
    (hstatus : t.status = s.status) (hclient : t.client = s.client) (hstart : t.start = s.start) :
    Inv t where
  keeps := hs.keeps.step hstep
  returned := by
    rw [hstatus, hstart]
    exact hs.returned
  stored := by
    rw [hclient, hstart]
    exact hs.stored

/-- `start()` goes on, or fails, before the producer is started. -/
theorem Inv.setStart {s t : State} (hs : Inv s) (hstatus : t.status ≠ .started)
    (hstep : ¬t.status = .started → s.reconnection.Step t.reconnection)
    (hstored : ∀ c, t.start.client = some c → t.client = some c) : Inv t :=
  ⟨hs.keeps.step (hstep hstatus), fun h => absurd h hstatus, hstored⟩

/-- `start()` has not returned. -/
theorem Inv.not_started {s : State} (hs : Inv s) (hpc : s.start ≠ .returned) :
    s.status ≠ .started :=
  fun h => hpc (hs.returned h)

theorem inv_step {s t : State} {a : Act} (hs : Inv s) (hok : NotSpent s a)
    (h : step s a = some t) : Inv t := by
  cases move_of_step h with
  | start hidle => exact hs.setStart nofun (.outOfService · _ _) nofun
  | startRefused hidle =>
    exact hs.setStart (hs.not_started (by simp [hidle])) (.outOfService · _ _) nofun
  | startStore hentered =>
    exact hs.setStart (hs.not_started (by simp [hentered])) (.outOfService · _ _) fun _ => id
  | startClient m hpc | startDeclare hpc =>
    exact hs.setStart (hs.not_started (by simp [hpc])) (.outOfService · _ _)
      fun c' hc' => hs.stored c' (hpc ▸ hc')
  | @startExchange c hdeclared =>
    have hclient : s.client = some c := hs.stored c (by rw [hdeclared]; rfl)
    have hspent : ¬s.Spent c := hok c (by simp [State.entering, hdeclared])
    exact ⟨hs.keeps.step (.serve hclient hspent), fun _ => rfl, nofun⟩
  | startLate hdeclared =>
    exact hs.setStart (hs.not_started (by simp [hdeclared])) (.outOfService · _ _) nofun
  | startThrow hpc =>
    have hne : s.start ≠ .returned := by
      rintro hreturned
      simp [hreturned] at hpc
    exact hs.setStart (hs.not_started hne) (.outOfService · _ _) nofun
  | shutdown | shutdownWait =>
    exact hs.keep (.approach _ (State.returned_of_setShutdown nofun)) rfl rfl rfl
  | shutdownIgnore _ hstatus => exact hs.keep (.outOfService hstatus _ _) rfl rfl rfl
  | shutdownHandle _ hfree =>
    exact ⟨hs.keeps.step (.lose _), hs.returned, fun c' hc' => absurd hc' (StartPc.client_of_locks hfree)⟩
  | metadataUpdate => exact hs.keep (.update _) rfl rfl rfl
  | tickReconnect hu => exact hs.keep (.tickReconnect hu) rfl rfl rfl
  | tickDelayed hu => exact hs.keep (.tickDelayed hu) rfl rfl rfl
  | tickDeleted hu => exact hs.keep (.tickDeleted hu) rfl rfl rfl
  | reconnect _ hu => exact hs.keep (.reconnect hu nofun) rfl rfl rfl
  | reconnectEarly _ hearly => exact hs.keep (.leave hearly) rfl rfl rfl
  | reconnectGo | reconnectCreate | reconnectClient | reconnectDeclare | reconnectThrow =>
    exact hs.keep (.connect nofun) rfl rfl rfl
  | @reconnectStore c hdeclared hfree hstatus =>
    have hspent : ¬s.Spent c := hok c (by simp [State.entering, hdeclared])
    exact ⟨hs.keeps.step (.install hspent), hs.returned,
      fun c' hc' => absurd hc' (StartPc.client_of_locks hfree)⟩
  | reconnectLate _ hstatus => exact hs.keep (.leave (.inr hstatus)) rfl rfl rfl
  | reconnectGone => exact hs.keep .abandon rfl rfl rfl
  | reconnectRetry => exact hs.keep .retry rfl rfl rfl
  | delayed hidle hu =>
    have htaken : ¬s.reconnection.taken := by simp [State.reconnection, hidle]
    exact hs.keep (.delayed hu htaken rfl) rfl rfl rfl
  | delayedTake _ hfree _ =>
    exact ⟨hs.keeps.step (.take rfl), hs.returned,
      fun c' hc' => absurd hc' (StartPc.client_of_locks hfree)⟩
  | delayedLate _ hstatus => exact hs.keep (.leaveDelayed hstatus) rfl rfl rfl
  | delayedEnd htaken =>
    have hchecking : ¬s.reconnection.checking := by simp [State.reconnection, htaken]
    exact hs.keep (.endDelayed hchecking) rfl rfl rfl
  | deleted hu => exact hs.keep (.deleted hu rfl) rfl rfl rfl
  | deletedExchange => exact hs.setStart nofun (.outOfService · _ _) hs.stored

/-- **The producer is never stuck on a dead connection**, at the end of every run in which no client
is put in service after one of its notifications is spent. -/
theorem notStuck_of_run {s t : State} {as : List Act} (h0 : machine.Init s)
    (hok : machine.Along NotSpent s as) (h : machine.run s as = some t) : t.NotStuck := by
  have hinit : ∀ {s}, machine.Init s → Inv s := by
    rintro s rfl
    exact inv_initial
  exact (Machine.invariant_along hinit inv_step h0 hok h).notStuck

/-- `start()` up to its exchange. -/
def starting : List Act := [.start, .startStore, .startClient 100, .startDeclare]

/-- The client is lost and a new one, which negotiates the limit that is given, replaces it. -/
def recoveringWith (maxFrameSize : UInt32) : List Act :=
  [.shutdown 0, .shutdownTest 0, .shutdownHandle 0, .tickReconnect .strand, .reconnect,
    .reconnectCheck, .reconnectCreate, .reconnectClient maxFrameSize, .reconnectDeclare,
    .reconnectStore]

/-- The theorem at a run with a recovery and a metadata update of the new client. -/
theorem notStuck_of_recovering :
    ∃ t, machine.run initial
        (starting ++ Act.startExchange :: recoveringWith 50 ++ [Act.metadataUpdate 1]) = some t ∧
      t.status = .started ∧ t.client = some 1 ∧ t.NotStuck := by
  have hok : machine.checkAlong NotSpent initial
      (starting ++ Act.startExchange :: recoveringWith 50 ++ [Act.metadataUpdate 1]) = true := rfl
  exact ⟨_, rfl, rfl, rfl, notStuck_of_run rfl (Machine.along_of_check hok) rfl⟩

/-- **The ignored shutdown**: the client shuts down while the producer is `Starting`, and
`handle_shutdown` does nothing; the producer is then started with a dead client. -/
theorem stuck_after_start : ¬∀ t, machine.Reachable t → t.NotStuck := by
  intro h
  have hdead := h _ ⟨initial, starting ++ [Act.shutdown 0, .shutdownTest 0, .startExchange], rfl, rfl⟩
  obtain ⟨c, hc, hu⟩ | ⟨c, hc⟩ | hd | hd | ⟨hc, -⟩ := hdead rfl
  · cases hc
    cases hu.1
  · rcases c with _ | c <;> rcases hc with hc | hc <;> cases hc
  · revert hd
    decide
  · revert hd
    decide
  · cases hc

end Hareflow.Producer.Recovery
