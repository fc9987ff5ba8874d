import Hareflow.Foundations.Machine
import Hareflow.Task.Reschedulable
import Mathlib.Algebra.Ring.Nat

/-!
# The consumer

`ConsumerImpl` subscribes to a stream through one client, `m_client`, hands the messages of the
subscription to the user's handler and, if it has a name, stores the offset it has reached with the
broker. This module is its machine: `start()`, the calls of `handle_message` on the frame threads of
its clients, the notifications of the clients, the tasks that persist the cursor and reconnect, and
`internal_stop`, from `stop()` or from the stream-deleted task.

* `Cursor` is what the consumer knows about its position, and `State.accept` the critical section of
  `handle_message` that moves it.
* `Feed` is what the brokers and the frame threads do: the subscriptions, the calls of
  `handle_message`, and the record of what was accepted, handed over and processed.
* `step` has one case for each critical section and each event between two of them. `start()` holds
  the mutex over several steps; every other critical section is one step.
* `Leaves` says what a step leaves alone, and `Progress` what it does to the cursor, the feed and the
  stores: invariants of these are proved from `progress_of_step`, without the step itself.

The offsets that arrive are not restricted here. What a broker promises about them is a condition on
runs. A message handler may throw: the frame thread survives a `StreamException` and goes on with the
next frame, and the message has been accepted and is not processed.
-/

namespace Hareflow.Consumer

open Foundations

/-- `OffsetSpecification`. -/
inductive OffsetSpecification
  | first
  | last
  | next
  | offset (k : ℕ)
  | timestamp (t : Int)
  deriving DecidableEq, Repr

/-- `AutomaticCursorConfiguration`; the delay is in milliseconds. -/
structure AutomaticCursorConfiguration where
  persistFrequency : ℕ
  forcePersistDelay : ℕ
  deriving DecidableEq, Repr

/-- What a consumer is built with. -/
structure Config where
  /-- `m_name` is not empty. -/
  named : Bool
  offsetSpecification : OffsetSpecification
  cursorConfiguration : Option AutomaticCursorConfiguration
  deriving DecidableEq, Repr

/-- `m_auto_cursor_config`: only a consumer with a name has one. -/
def Config.autoCursorConfig (cfg : Config) : Option AutomaticCursorConfiguration :=
  if cfg.named then cfg.cursorConfiguration else none

/-- `m_persist_cursor_task.valid()`. -/
def Config.persists (cfg : Config) : Bool :=
  match cfg.autoCursorConfig with
  | some c => c.forcePersistDelay ≠ 0
  | none => false

/-- The number of messages asks for a persist. -/
def Config.frequent (cfg : Config) (n : ℕ) : Bool :=
  match cfg.autoCursorConfig with
  | some c => 0 < c.persistFrequency ∧ c.persistFrequency ≤ n
  | none => false

/-- The offset after `o`, in 64 bits. -/
def nextOffset (o : ℕ) : ℕ := (o + 1) % 2 ^ 64

/-- The position of the consumer. -/
structure Cursor where
  /-- `m_initial_offset`. -/
  initialOffset : Option OffsetSpecification
  /-- `m_last_seen_offset`. -/
  lastSeen : Option ℕ
  /-- `m_messages_since_last_persist`, in 32 bits. -/
  sinceLastPersist : ℕ
  deriving DecidableEq, Repr

/-- The message at the offset comes before the offset that was asked for. -/
def Cursor.skips (cur : Cursor) (o : ℕ) : Bool :=
  match cur.initialOffset with
  | some (.offset k) => o < k
  | _ => false

/-- The first critical section of `handle_message`, for a message that is not skipped. -/
def Cursor.accept (cur : Cursor) (o : ℕ) : Cursor where
  initialOffset := none
  lastSeen := some o
  sinceLastPersist := (cur.sinceLastPersist + 1) % 2 ^ 32

/-- What `reconnect_to_server` subscribes at. -/
def Cursor.resume (cur : Cursor) : Cursor :=
  match cur.lastSeen with
  | some o => { cur with initialOffset := some (.offset (nextOffset o)) }
  | none => cur

@[simp] theorem Cursor.resume_lastSeen (cur : Cursor) : cur.resume.lastSeen = cur.lastSeen := by
  unfold Cursor.resume
  split <;> rfl

@[simp] theorem Cursor.resume_sinceLastPersist (cur : Cursor) :
    cur.resume.sinceLastPersist = cur.sinceLastPersist := by
  unfold Cursor.resume
  split <;> rfl

/-- Where the call of `handle_message` on a frame thread is, with its offset. -/
inductive MessagePc
  | idle
  /-- Before the first critical section. -/
  | entered (o : ℕ)
  /-- Accepted, before the handler; `store` is the local `store_offset`. -/
  | accepted (o : ℕ) (store : Bool)
  /-- In the handler. -/
  | handling (o : ℕ) (store : Bool)
  /-- Before the second critical section. -/
  | storing (o : ℕ)
  deriving DecidableEq, Repr

/-- A subscription at the broker: what it was asked for, and the offset after the last one that was
delivered. -/
structure Subscription where
  asked : OffsetSpecification
  next : Option ℕ
  deriving DecidableEq, Repr

/-- The subscriptions and the messages that came through them. -/
structure Feed where
  /-- The subscription of each client. -/
  subscriptions : ℕ → Option Subscription
  /-- The client that subscribed last. -/
  newest : Option ℕ
  /-- What the first subscription asked for. -/
  effective : Option OffsetSpecification
  messages : ℕ → MessagePc
  /-- The offsets that passed the first critical section. -/
  accepted : List ℕ
  /-- The offsets that were passed to the message handler. -/
  handed : List ℕ
  /-- The offsets whose handler has returned. -/
  processed : List ℕ

/-- A client subscribes. -/
def Feed.subscribe (f : Feed) (c : ℕ) (asked : OffsetSpecification) : Feed :=
  { f with
    subscriptions := Function.update f.subscriptions c (some ⟨asked, none⟩)
    newest := some c
    effective := some (f.effective.getD asked) }

/-- A frame thread calls `handle_message`. -/
def Feed.deliver (f : Feed) (c o : ℕ) (sub : Subscription) : Feed :=
  { f with
    subscriptions := Function.update f.subscriptions c (some { sub with next := some (o + 1) })
    messages := Function.update f.messages c (.entered o) }

def Feed.setMessage (f : Feed) (c : ℕ) (pc : MessagePc) : Feed :=
  { f with messages := Function.update f.messages c pc }

/-- `ConsumerImpl::Status`. -/
inductive Status
  | initialized
  | starting
  | started
  | stopped
  deriving DecidableEq, Repr

/-- The call of `handle_shutdown` by a client, with a reason other than `ClientInitiated`. -/
inductive Shutdown
  | none
  /-- Before the mutex. -/
  | waiting
  | returned
  deriving DecidableEq, Repr

/-- Where the call of `start()` is; it has the mutex once it has a client. -/
inductive StartPc
  | idle
  | entered
  | stored (c : ℕ)
  | started (c : ℕ)
  | queried (c : ℕ)
  | subscribed (c : ℕ)
  /-- The persist task is armed: before the exchange. -/
  | armed (c : ℕ)
  | returned
  | threw
  deriving DecidableEq, Repr

/-- `start()` has the mutex. -/
def StartPc.locks : StartPc → Bool
  | .idle | .entered | .returned | .threw => false
  | _ => true

/-- Where `reconnect_to_server` is. -/
inductive ReconnectPc
  | idle
  | checking
  | connecting
  | created (c : ℕ)
  /-- Before the critical section that subscribes and stores. -/
  | started (c : ℕ)
  | failed (deleted : Bool)
  deriving DecidableEq, Repr

/-- Where `delayed_reconnect` is. -/
inductive DelayedPc
  | idle
  | checking
  | taken
  deriving DecidableEq, Repr

/-- Who calls `internal_stop`. -/
inductive Stopper
  | user (k : ℕ)
  | streamDeletedTask
  deriving DecidableEq, Repr

/-- Where a call of `stop()` or `internal_stop` is: at the `destroy()` of a task, or after them. -/
inductive StopPc
  | idle
  | streamDeleted
  | persistCursor
  | delayedReconnect
  | reconnect
  /-- The tasks are destroyed: before the exchange. -/
  | exchanging
  | taking
  /-- Has the client, before the critical section that stores. -/
  | storing (c : ℕ)
  | stopping (c : ℕ)
  | returned
  deriving DecidableEq, Repr

structure State where
  status : Status
  /-- `m_client`; the clients are numbered in the order of their creation. -/
  client : Option ℕ
  created : ℕ
  /-- The clients whose `start()` has succeeded. -/
  live : ℕ → Bool
  shutdown : ℕ → Shutdown
  /-- The client has reported a metadata update of the stream. -/
  updated : ℕ → Bool
  cursor : Cursor
  feed : Feed
  /-- The calls of `store_offset` of a client, and whether they succeeded. -/
  stores : List (ℕ × Bool)
  start : StartPc
  persistCursorTask : Task
  /-- `store_current_offset` is running. -/
  persisting : Bool
  reconnectTask : Task
  reconnect : ReconnectPc
  delayedReconnectTask : Task
  delayed : DelayedPc
  streamDeletedTask : Task
  stops : Stopper → StopPc

/-- A consumer as constructed. -/
def initial (cfg : Config) : State where
  status := .initialized
  client := none
  created := 0
  live := fun _ => false
  shutdown := fun _ => .none
  updated := fun _ => false
  cursor := ⟨some cfg.offsetSpecification, none, 0⟩
  feed :=
    { subscriptions := fun _ => none
      newest := none
      effective := none
      messages := fun _ => .idle
      accepted := []
      handed := []
      processed := [] }
  stores := []
  start := .idle
  persistCursorTask := .fresh
  persisting := false
  reconnectTask := .fresh
  reconnect := .idle
  delayedReconnectTask := .fresh
  delayed := .idle
  streamDeletedTask := .fresh
  stops := fun _ => .idle

/-- The atomic steps. -/
inductive Act
  | start
  /-- Take the mutex and store a new client. -/
  | startStore
  | startClient
  /-- `query_offset`, for a consumer with a name, and its answer. -/
  | startQuery (stored : Option ℕ)
  | startSubscribe
  /-- A call of `start()` throws; `subscribed` says that the broker has made the subscription all the
  same. -/
  | startThrow (subscribed : Bool)
  | startArm
  /-- Exchange `Starting` for `Started`. -/
  | startExchange
  /-- The frame thread of a client calls `handle_message`. -/
  | deliver (c o : ℕ)
  /-- The first critical section of `handle_message`. -/
  | accept (c : ℕ)
  | hand (c : ℕ)
  | handled (c : ℕ)
  /-- The handler throws, out of `handle_message`; the frame thread goes on. -/
  | handlerThrow (c : ℕ)
  /-- The second critical section, and whether the client's `store_offset` succeeds. -/
  | storeHandled (c : ℕ) (ok : Bool)
  /-- The user calls `store_offset`. -/
  | storeOffset (o : ℕ) (ok : Bool)
  /-- The client calls `handle_shutdown` with a reason other than `ClientInitiated`. -/
  | shutdown (c : ℕ)
  | shutdownHandle (c : ℕ)
  /-- The client calls `handle_metadata_update` for the stream. -/
  | metadataUpdate (c : ℕ)
  | tickPersist (e : Tick)
  | tickReconnect (e : Tick)
  | tickDelayed (e : Tick)
  | tickDeleted (e : Tick)
  /-- The task calls `store_current_offset`. -/
  | persist
  /-- Its critical section. -/
  | persistStore (ok : Bool)
  | reconnect
  /-- The critical section with the early return. -/
  | reconnectCheck
  | reconnectCreate
  | reconnectClient
  /-- The critical section that subscribes and stores. -/
  | reconnectSubscribe
  /-- The subscription throws; `subscribed` says that the broker has made it all the same. -/
  | reconnectRefuse (subscribed deleted : Bool)
  | reconnectThrow (deleted : Bool)
  /-- The `catch` block. -/
  | reconnectCatch
  | delayed
  /-- The critical section that takes the client. -/
  | delayedTake
  | delayedEnd
  /-- Enter `stop()`, or `internal_stop` on the stream-deleted task. -/
  | stop (k : Stopper)
  /-- The `destroy()` of a task returns and the next one begins. -/
  | stopDestroyed (k : Stopper)
  /-- The exchange of the status for `Stopped`. -/
  | stopExchange (k : Stopper)
  | stopTake (k : Stopper)
  | stopStore (k : Stopper) (ok : Bool)
  | stopEnd (k : Stopper)
  deriving DecidableEq, Repr

/-- No call has the mutex. -/
def State.unlocked (s : State) : Bool := !s.start.locks

def State.create (s : State) : State := { s with created := s.created + 1 }

def State.startClient (s : State) (c : ℕ) : State :=
  { s with live := Function.update s.live c true }

/-- A client subscribes at the current initial offset. -/
def State.subscribe (s : State) (c : ℕ) : State :=
  match s.cursor.initialOffset with
  | some asked => { s with feed := s.feed.subscribe c asked }
  | none => s

/-- Arm the persist task, if there is one. -/
def State.armPersist (cfg : Config) (s : State) : State :=
  if cfg.persists then { s with persistCursorTask := s.persistCursorTask.scheduleAfter } else s

/-- `internal_store_offset`. -/
def State.internalStoreOffset (cfg : Config) (s : State) (o : ℕ) (ok : Bool) : State :=
  if cfg.named ∧ s.client ≠ none then
    State.armPersist cfg { s with
      stores := s.stores ++ [(o, ok)]
      cursor := if ok then { s.cursor with sinceLastPersist := 0 } else s.cursor }
  else s

/-- `store_current_offset`; the offset is that of a cursor that has seen a message. -/
def State.storeCurrentOffset (cfg : Config) (s : State) (ok : Bool) : State :=
  if 0 < s.cursor.sinceLastPersist then
    match s.cursor.lastSeen with
    | some o => s.internalStoreOffset cfg o ok
    | none => s
  else s.armPersist cfg

/-- The first critical section of `handle_message` for the offset `o`. -/
def State.accept (cfg : Config) (s : State) (c o : ℕ) : State :=
  if s.cursor.skips o then { s with feed := s.feed.setMessage c .idle }
  else
    let cursor := s.cursor.accept o
    { s with
      cursor := cursor
      feed :=
        { s.feed.setMessage c (.accepted o (cfg.frequent cursor.sinceLastPersist)) with
          accepted := s.feed.accepted ++ [o] } }

def State.setStop (s : State) (k : Stopper) (pc : StopPc) : State :=
  { s with stops := Function.update s.stops k pc }

/-- `reconnect_to_server` returns to the loop of its task. -/
def State.leaveReconnect (s : State) : State :=
  { s with reconnect := .idle, reconnectTask := s.reconnectTask.returned }

/-- `delayed_reconnect` returns to the loop of its task. -/
def State.leaveDelayed (s : State) : State :=
  { s with delayed := .idle, delayedReconnectTask := s.delayedReconnectTask.returned }

/-- The task that a call of `destroy()` waits for has left its loop. -/
def State.destroyed (s : State) : StopPc → Bool
  | .streamDeleted => s.streamDeletedTask.invocation = .none
  | .persistCursor => s.persistCursorTask.invocation = .none
  | .delayedReconnect => s.delayedReconnectTask.invocation = .none
  | .reconnect => s.reconnectTask.invocation = .none
  | _ => false

/-- Begin the `destroy()` after the given one; after the last comes the exchange. -/
def State.destroyNext (s : State) : StopPc → State × StopPc
  | .streamDeleted => ({ s with persistCursorTask := s.persistCursorTask.destroy }, .persistCursor)
  | .persistCursor =>
    ({ s with delayedReconnectTask := s.delayedReconnectTask.destroy }, .delayedReconnect)
  | .delayedReconnect => ({ s with reconnectTask := s.reconnectTask.destroy }, .reconnect)
  | _ => (s, .exchanging)

def step (cfg : Config) (s : State) : Act → Option State
  | .start =>
    if s.start = .idle then
      if s.status = .initialized then some { s with status := .starting, start := .entered }
      else some { s with start := .threw }
    else none
  | .startStore =>
    if s.start = .entered then
      some { s.create with client := some s.created, start := .stored s.created }
    else none
  | .startClient =>
    match s.start with
    | .stored c => some { s.startClient c with start := .started c }
    | _ => none
  | .startQuery stored =>
    match s.start, stored with
    | .started c, none => some { s with start := .queried c }
    | .started c, some o =>
      if cfg.named then
        some { s with
          start := .queried c
          cursor := { s.cursor with initialOffset := some (.offset (nextOffset o)) } }
      else none
    | _, _ => none
  | .startSubscribe =>
    match s.start with
    | .queried c => some { s.subscribe c with start := .subscribed c }
    | _ => none
  | .startThrow subscribed =>
    match s.start with
    | .entered | .stored _ | .started _ => some { s with start := .threw }
    | .queried c => some { (if subscribed then s.subscribe c else s) with start := .threw }
    | _ => none
  | .startArm =>
    match s.start with
    | .subscribed c => some { s.armPersist cfg with start := .armed c }
    | _ => none
  | .startExchange =>
    match s.start with
    | .armed _ =>
      if s.status = .starting then some { s with status := .started, start := .returned }
      else some { s with start := .threw }
    | _ => none
  | .deliver c o =>
    match s.feed.messages c, s.feed.subscriptions c with
    | .idle, some sub => some { s with feed := s.feed.deliver c o sub }
    | _, _ => none
  | .accept c =>
    match s.feed.messages c with
    | .entered o => if s.unlocked then some (s.accept cfg c o) else none
    | _ => none
  | .hand c =>
    match s.feed.messages c with
    | .accepted o store =>
      some { s with feed :=
        { s.feed.setMessage c (.handling o store) with handed := s.feed.handed ++ [o] } }
    | _ => none
  | .handled c =>
    match s.feed.messages c with
    | .handling o store =>
      some { s with feed :=
        { s.feed.setMessage c (if store then .storing o else .idle) with
          processed := s.feed.processed ++ [o] } }
    | _ => none
  | .handlerThrow c =>
    match s.feed.messages c with
    | .handling _ _ => some { s with feed := s.feed.setMessage c .idle }
    | _ => none
  | .storeHandled c ok =>
    match s.feed.messages c with
    | .storing o =>
      if s.unlocked then
        some { (if cfg.frequent s.cursor.sinceLastPersist then s.internalStoreOffset cfg o ok else s)
          with feed := s.feed.setMessage c .idle }
      else none
    | _ => none
  | .storeOffset o ok =>
    -- the status was tested before the mutex was taken, and may be `Stopped` by now
    if (s.status = .started ∨ s.status = .stopped) ∧ s.unlocked then
      some (s.internalStoreOffset cfg o ok)
    else none
  | .shutdown c =>
    if s.live c ∧ s.shutdown c = .none then
      some { s with shutdown := Function.update s.shutdown c .waiting }
    else none
  | .shutdownHandle c =>
    if s.shutdown c = .waiting ∧ s.unlocked then
      some { s with
        shutdown := Function.update s.shutdown c .returned
        client := none
        reconnectTask := s.reconnectTask.scheduleNow }
    else none
  | .metadataUpdate c =>
    if s.live c then
      some { s with
        updated := Function.update s.updated c true
        delayedReconnectTask := s.delayedReconnectTask.scheduleNow }
    else none
  | .tickPersist e => (s.persistCursorTask.tick e).map fun t => { s with persistCursorTask := t }
  | .tickReconnect e => (s.reconnectTask.tick e).map fun t => { s with reconnectTask := t }
  | .tickDelayed e =>
    (s.delayedReconnectTask.tick e).map fun t => { s with delayedReconnectTask := t }
  | .tickDeleted e => (s.streamDeletedTask.tick e).map fun t => { s with streamDeletedTask := t }
  | .persist =>
    if s.persisting = false then
      s.persistCursorTask.enter.map fun t => { s with persistCursorTask := t, persisting := true }
    else none
  | .persistStore ok =>
    if s.persisting ∧ s.unlocked then
      let t := s.storeCurrentOffset cfg ok
      some { t with persisting := false, persistCursorTask := t.persistCursorTask.returned }
    else none
  | .reconnect =>
    if s.reconnect = .idle then
      s.reconnectTask.enter.map fun t => { s with reconnectTask := t, reconnect := .checking }
    else none
  | .reconnectCheck =>
    if s.reconnect = .checking ∧ s.unlocked then
      if s.client ≠ none ∨ s.status ≠ .started then some s.leaveReconnect
      else some { s with reconnect := .connecting }
    else none
  | .reconnectCreate =>
    if s.reconnect = .connecting then some { s.create with reconnect := .created s.created }
    else none
  | .reconnectClient =>
    match s.reconnect with
    | .created c => some { s.startClient c with reconnect := .started c }
    | _ => none
  | .reconnectSubscribe =>
    match s.reconnect with
    | .started c =>
      if s.unlocked then
        if s.status = .started then
          some { State.subscribe { s with cursor := s.cursor.resume } c with
            client := some c
            reconnect := .idle
            reconnectTask := s.reconnectTask.returned }
        else some s.leaveReconnect
      else none
    | _ => none
  | .reconnectRefuse subscribed deleted =>
    match s.reconnect with
    | .started c =>
      if s.unlocked ∧ s.status = .started then
        let t := { s with cursor := s.cursor.resume }
        some { (if subscribed then t.subscribe c else t) with reconnect := .failed deleted }
      else none
    | _ => none
  | .reconnectThrow deleted =>
    match s.reconnect with
    | .connecting | .created _ => some { s with reconnect := .failed deleted }
    | _ => none
  | .reconnectCatch =>
    match s.reconnect with
    | .failed true =>
      some { s.leaveReconnect with streamDeletedTask := s.streamDeletedTask.scheduleNow }
    | .failed false =>
      some { s.leaveReconnect with reconnectTask := s.reconnectTask.scheduleAfter.returned }
    | _ => none
  | .delayed =>
    if s.delayed = .idle then
      s.delayedReconnectTask.enter.map fun t =>
        { s with delayedReconnectTask := t, delayed := .checking }
    else none
  | .delayedTake =>
    if s.delayed = .checking ∧ s.unlocked then
      if s.status = .started then some { s with client := none, delayed := .taken }
      else some s.leaveDelayed
    else none
  | .delayedEnd =>
    if s.delayed = .taken then
      some { s.leaveDelayed with reconnectTask := s.reconnectTask.scheduleAfter }
    else none
  | .stop (.user k) =>
    if s.stops (.user k) = .idle then
      some (State.setStop { s with streamDeletedTask := s.streamDeletedTask.destroy } (.user k)
        .streamDeleted)
    else none
  | .stop .streamDeletedTask =>
    if s.stops .streamDeletedTask = .idle then
      s.streamDeletedTask.enter.map fun t =>
        State.setStop { s with
          streamDeletedTask := t
          persistCursorTask := s.persistCursorTask.destroy } .streamDeletedTask .persistCursor
    else none
  | .stopDestroyed k =>
    if s.destroyed (s.stops k) then
      some ((s.destroyNext (s.stops k)).1.setStop k (s.destroyNext (s.stops k)).2)
    else none
  | .stopExchange k =>
    if s.stops k = .exchanging then
      some (State.setStop { s with status := .stopped } k
        (if s.status = .stopped then .returned else .taking))
    else none
  | .stopTake k =>
    if s.stops k = .taking ∧ s.unlocked then
      some (State.setStop { s with client := none } k
        (match s.client with
        | some c => .storing c
        | none => .returned))
    else none
  | .stopStore k ok =>
    match s.stops k with
    | .storing c =>
      if s.unlocked then
        let t := s.setStop k (.stopping c)
        match cfg.autoCursorConfig, s.cursor.lastSeen with
        | some _, some o =>
          if 0 < s.cursor.sinceLastPersist then some { t with stores := s.stores ++ [(o, ok)] }
          else some t
        | _, _ => some t
      else none
    | _ => none
  | .stopEnd k =>
    match s.stops k with
    | .stopping _ => some (s.setStop k .returned)
    | _ => none

/-- The consumer as a machine. -/
def machine (cfg : Config) : Machine State Act := ⟨(· = initial cfg), step cfg⟩

/-! ## What a step leaves alone -/

/-- The steps that touch the cursor, the feed or the record of the stores. -/
def Act.feeds : Act → Bool
  | .startQuery _ | .startSubscribe | .startThrow _ | .deliver _ _ | .accept _ | .hand _ | .handled _
  | .handlerThrow _ | .storeHandled _ _ | .storeOffset _ _ | .persistStore _ | .reconnectSubscribe
  | .reconnectRefuse _ _ | .stopStore _ _ => true
  | _ => false

@[simp] theorem subscribe_frame (s : State) (c : ℕ) :
    (s.subscribe c).cursor = s.cursor ∧ (s.subscribe c).start = s.start ∧
      (s.subscribe c).status = s.status ∧ (s.subscribe c).stores = s.stores ∧
      (s.subscribe c).persistCursorTask = s.persistCursorTask ∧
      (s.subscribe c).persisting = s.persisting ∧ (s.subscribe c).stops = s.stops := by
  unfold State.subscribe
  split <;> simp

@[simp] theorem armPersist_frame (cfg : Config) (s : State) :
    (s.armPersist cfg).cursor = s.cursor ∧ (s.armPersist cfg).feed = s.feed ∧
      (s.armPersist cfg).stores = s.stores ∧ (s.armPersist cfg).start = s.start ∧
      (s.armPersist cfg).status = s.status ∧ (s.armPersist cfg).persisting = s.persisting ∧
      (s.armPersist cfg).stops = s.stops := by
  unfold State.armPersist
  split <;> simp

@[simp] theorem internalStoreOffset_frame (cfg : Config) (s : State) (o : ℕ) (ok : Bool) :
    (s.internalStoreOffset cfg o ok).feed = s.feed ∧
      (s.internalStoreOffset cfg o ok).start = s.start ∧
      (s.internalStoreOffset cfg o ok).status = s.status ∧
      (s.internalStoreOffset cfg o ok).persisting = s.persisting ∧
      (s.internalStoreOffset cfg o ok).stops = s.stops := by
  unfold State.internalStoreOffset
  split <;> simp

@[simp] theorem storeCurrentOffset_frame (cfg : Config) (s : State) (ok : Bool) :
    (s.storeCurrentOffset cfg ok).feed = s.feed ∧ (s.storeCurrentOffset cfg ok).start = s.start ∧
      (s.storeCurrentOffset cfg ok).status = s.status ∧
      (s.storeCurrentOffset cfg ok).persisting = s.persisting ∧
      (s.storeCurrentOffset cfg ok).stops = s.stops := by
  unfold State.storeCurrentOffset
  (repeat' split) <;> simp

theorem destroyNext_frame (s : State) (pc : StopPc) :
    (s.destroyNext pc).1.cursor = s.cursor ∧ (s.destroyNext pc).1.feed = s.feed ∧
      (s.destroyNext pc).1.stores = s.stores ∧ (s.destroyNext pc).1.start = s.start ∧
      (s.destroyNext pc).1.status = s.status := by
  cases pc <;> exact ⟨rfl, rfl, rfl, rfl, rfl⟩

/-- The steps that touch `start()`, the status or what the first subscription asked for. -/
def Act.starts : Act → Bool
  | .start | .startStore | .startClient | .startQuery _ | .startSubscribe | .startThrow _ | .startArm
  | .startExchange | .reconnectSubscribe | .reconnectRefuse _ _ | .stopExchange _ => true
  | _ => false

/-- The steps that touch the persist task or a call of `internal_stop`. -/
def Act.persists : Act → Bool
  | .startArm | .storeHandled _ _ | .storeOffset _ _ | .tickPersist _ | .persist | .persistStore _
  | .stop _ | .stopDestroyed _ | .stopExchange _ | .stopTake _ | .stopStore _ _ | .stopEnd _ => true
  | _ => false

/-- What a step of its kind leaves alone. -/
structure Leaves (a : Act) (s t : State) : Prop where
  feed : a.feeds = false → t.cursor = s.cursor ∧ t.feed = s.feed ∧ t.stores = s.stores
  start : a.starts = false →
    t.start = s.start ∧ t.status = s.status ∧ t.feed.effective = s.feed.effective
  persist : a.persists = false →
    t.persistCursorTask = s.persistCursorTask ∧ t.persisting = s.persisting ∧ t.stops = s.stops

theorem leaves_of_step {cfg : Config} {s t : State} {a : Act} (h : step cfg s a = some t) :
    Leaves a s t := by
  cases a <;> simp only [step] at h
  case accept c =>
    (repeat' split at h) <;> cases h
    unfold State.accept
    split <;> exact ⟨by simp [Act.feeds], fun _ => ⟨rfl, rfl, rfl⟩, fun _ => ⟨rfl, rfl, rfl⟩⟩
  case startArm =>
    split at h <;> cases h
    exact ⟨fun _ => by simp, by simp [Act.starts], by simp [Act.persists]⟩
  case startSubscribe =>
    split at h <;> cases h
    exact ⟨by simp [Act.feeds], by simp [Act.starts], fun _ => by simp⟩
  case startThrow subscribed =>
    cases subscribed <;> (split at h <;> cases h) <;>
      exact ⟨by simp [Act.feeds], by simp [Act.starts], fun _ => by simp⟩
  case storeHandled c ok =>
    (repeat' split at h) <;> cases h
    · obtain ⟨-, hstart, hstatus, -⟩ := internalStoreOffset_frame cfg s ‹_› ok
      exact ⟨by simp [Act.feeds], fun _ => ⟨hstart, hstatus, rfl⟩, by simp [Act.persists]⟩
    · exact ⟨by simp [Act.feeds], fun _ => ⟨rfl, rfl, rfl⟩, by simp [Act.persists]⟩
  case storeOffset o ok =>
    split at h <;> cases h
    exact ⟨by simp [Act.feeds], fun _ => by simp, by simp [Act.persists]⟩
  case persistStore ok =>
    split at h <;> cases h
    exact ⟨by simp [Act.feeds], fun _ => by simp, by simp [Act.persists]⟩
  case reconnectSubscribe =>
    (repeat' split at h) <;> cases h
    · exact ⟨by simp [Act.feeds], by simp [Act.starts], fun _ => by simp⟩
    · exact ⟨by simp [Act.feeds], by simp [Act.starts], fun _ => ⟨rfl, rfl, rfl⟩⟩
  case reconnectRefuse subscribed deleted =>
    cases subscribed <;> ((repeat' split at h) <;> cases h) <;>
      exact ⟨by simp [Act.feeds], by simp [Act.starts], fun _ => by simp⟩
  case stop k =>
    cases k <;> simp only at h <;> split at h
    · cases h
      exact ⟨fun _ => ⟨rfl, rfl, rfl⟩, fun _ => ⟨rfl, rfl, rfl⟩, by simp [Act.persists]⟩
    · cases h
    · obtain ⟨u, hu, rfl⟩ := Option.map_eq_some_iff.1 h
      exact ⟨fun _ => ⟨rfl, rfl, rfl⟩, fun _ => ⟨rfl, rfl, rfl⟩, by simp [Act.persists]⟩
    · cases h
  case stopDestroyed k =>
    split at h <;> cases h
    obtain ⟨hcur, hfeed, hstores, hstart, hstatus⟩ := destroyNext_frame s (s.stops k)
    exact ⟨fun _ => ⟨hcur, hfeed, hstores⟩,
      fun _ => ⟨hstart, hstatus, congrArg Feed.effective hfeed⟩, by simp [Act.persists]⟩
  all_goals
    (repeat' split at h) <;> first
    | (cases h; done)
    | (cases h
       constructor <;> intro ha <;> first
        | (cases ha; done)
        | exact ⟨rfl, rfl, rfl⟩)
    | (obtain ⟨u, hu, rfl⟩ := Option.map_eq_some_iff.1 h
       constructor <;> intro ha <;> first
        | (cases ha; done)
        | exact ⟨rfl, rfl, rfl⟩)

/-! ## What a step does to the cursor and the feed -/

/-- The cursor after a call of the client's `store_offset`. -/
def Cursor.stored (cur : Cursor) (ok : Bool) : Cursor :=
  if ok then { cur with sinceLastPersist := 0 } else cur

@[simp] theorem Cursor.stored_lastSeen (cur : Cursor) (ok : Bool) :
    (cur.stored ok).lastSeen = cur.lastSeen := by
  cases ok <;> rfl

@[simp] theorem Cursor.stored_initialOffset (cur : Cursor) (ok : Bool) :
    (cur.stored ok).initialOffset = cur.initialOffset := by
  cases ok <;> rfl

/-- What a step does to the cursor, the feed and the record of the stores. -/
inductive Progress (cfg : Config) (s t : State) : Act → Prop
  | still {a : Act} (hcur : t.cursor = s.cursor) (hfeed : t.feed = s.feed)
    (hsto : t.stores = s.stores) : Progress cfg s t a
  /-- The broker has an offset for the consumer. -/
  | query {c o : ℕ} (hpc : s.start = .started c)
    (hcur : t.cursor = { s.cursor with initialOffset := some (.offset (nextOffset o)) })
    (hfeed : t.feed = s.feed) (hsto : t.stores = s.stores) : Progress cfg s t (.startQuery (some o))
  /-- `start()` subscribes. -/
  | subscribe {a : Act} {c : ℕ} {asked : OffsetSpecification}
    (ha : a = .startSubscribe ∨ a = .startThrow true) (hpc : s.start = .queried c)
    (hpc' : t.start = .subscribed c ∨ t.start = .threw)
    (hasked : s.cursor.initialOffset = some asked) (hcur : t.cursor = s.cursor)
    (hfeed : t.feed = s.feed.subscribe c asked) (hsto : t.stores = s.stores) : Progress cfg s t a
  /-- `reconnect_to_server` sets the offset to subscribe at. -/
  | resume {a : Act} (hstarted : s.status = .started) (hcur : t.cursor = s.cursor.resume)
    (hfeed : t.feed = s.feed) (hsto : t.stores = s.stores) : Progress cfg s t a
  /-- It subscribes there. -/
  | resubscribe {a : Act} {c : ℕ} {asked : OffsetSpecification}
    (ha : a = .reconnectSubscribe ∨ ∃ deleted, a = .reconnectRefuse true deleted)
    (hstarted : s.status = .started) (hasked : s.cursor.resume.initialOffset = some asked)
    (hcur : t.cursor = s.cursor.resume) (hfeed : t.feed = s.feed.subscribe c asked)
    (hsto : t.stores = s.stores) : Progress cfg s t a
  | deliver {c o : ℕ} {sub : Subscription} (hpc : s.feed.messages c = .idle)
    (hsub : s.feed.subscriptions c = some sub) (hcur : t.cursor = s.cursor)
    (hfeed : t.feed = s.feed.deliver c o sub) (hsto : t.stores = s.stores) :
    Progress cfg s t (.deliver c o)
  | skip {c o : ℕ} (hpc : s.feed.messages c = .entered o) (hskip : s.cursor.skips o = true)
    (hcur : t.cursor = s.cursor) (hfeed : t.feed = s.feed.setMessage c .idle)
    (hsto : t.stores = s.stores) : Progress cfg s t (.accept c)
  | accept {c o : ℕ} (hpc : s.feed.messages c = .entered o) (hfree : s.unlocked = true)
    (hskip : s.cursor.skips o = false) (hcur : t.cursor = s.cursor.accept o)
    (hfeed : t.feed =
      { s.feed.setMessage c
          (.accepted o (cfg.frequent (s.cursor.accept o).sinceLastPersist)) with
        accepted := s.feed.accepted ++ [o] })
    (hsto : t.stores = s.stores) : Progress cfg s t (.accept c)
  | hand {c o : ℕ} {store : Bool} (hpc : s.feed.messages c = .accepted o store)
    (hcur : t.cursor = s.cursor)
    (hfeed : t.feed =
      { s.feed.setMessage c (.handling o store) with handed := s.feed.handed ++ [o] })
    (hsto : t.stores = s.stores) : Progress cfg s t (.hand c)
  | handled {c o : ℕ} {store : Bool} (hpc : s.feed.messages c = .handling o store)
    (hcur : t.cursor = s.cursor)
    (hfeed : t.feed =
      { s.feed.setMessage c (if store then .storing o else .idle) with
        processed := s.feed.processed ++ [o] })
    (hsto : t.stores = s.stores) : Progress cfg s t (.handled c)
  | threw {c o : ℕ} {store : Bool} (hpc : s.feed.messages c = .handling o store)
    (hcur : t.cursor = s.cursor) (hfeed : t.feed = s.feed.setMessage c .idle)
    (hsto : t.stores = s.stores) : Progress cfg s t (.handlerThrow c)
  /-- The second critical section finds nothing to store, or no client. -/
  | leave {c o : ℕ} {ok : Bool} (hpc : s.feed.messages c = .storing o)
    (hwhy : cfg.frequent s.cursor.sinceLastPersist = true → s.client = none)
    (hcur : t.cursor = s.cursor) (hfeed : t.feed = s.feed.setMessage c .idle)
    (hsto : t.stores = s.stores) : Progress cfg s t (.storeHandled c ok)
  | storeHandled {c o : ℕ} {ok : Bool} (hpc : s.feed.messages c = .storing o)
    (hfreq : cfg.frequent s.cursor.sinceLastPersist = true) (hclient : s.client ≠ none)
    (hcur : t.cursor = s.cursor.stored ok) (hfeed : t.feed = s.feed.setMessage c .idle)
    (hsto : t.stores = s.stores ++ [(o, ok)]) : Progress cfg s t (.storeHandled c ok)
  | storeOffset {o : ℕ} {ok : Bool} (hcur : t.cursor = s.cursor.stored ok) (hfeed : t.feed = s.feed)
    (hsto : t.stores = s.stores ++ [(o, ok)]) : Progress cfg s t (.storeOffset o ok)
  | persist {o : ℕ} {ok : Bool} (hlast : s.cursor.lastSeen = some o)
    (hpos : 0 < s.cursor.sinceLastPersist) (hnamed : cfg.named = true) (hclient : s.client ≠ none)
    (hcur : t.cursor = s.cursor.stored ok) (hfeed : t.feed = s.feed)
    (hsto : t.stores = s.stores ++ [(o, ok)]) : Progress cfg s t (.persistStore ok)
  | stopStore {k : Stopper} {c o : ℕ} {ok : Bool} (hpc : s.stops k = .storing c)
    (hstops : t.stops = Function.update s.stops k (.stopping c))
    (hconf : cfg.autoCursorConfig ≠ none) (hlast : s.cursor.lastSeen = some o)
    (hpos : 0 < s.cursor.sinceLastPersist) (hcur : t.cursor = s.cursor) (hfeed : t.feed = s.feed)
    (hsto : t.stores = s.stores ++ [(o, ok)]) : Progress cfg s t (.stopStore k ok)

/-- `internal_store_offset` stores through the client, or does nothing. -/
theorem internalStoreOffset_cases (cfg : Config) (s : State) (o : ℕ) (ok : Bool) :
    (cfg.named = true ∧ s.client ≠ none) ∧
        (s.internalStoreOffset cfg o ok).cursor = s.cursor.stored ok ∧
        (s.internalStoreOffset cfg o ok).stores = s.stores ++ [(o, ok)] ∨
      (cfg.named = true → s.client = none) ∧ s.internalStoreOffset cfg o ok = s := by
  unfold State.internalStoreOffset
  split
  · rename_i h
    exact .inl ⟨h, by simp [Cursor.stored], by simp⟩
  · rename_i h
    refine .inr ⟨fun hn => ?_, rfl⟩
    by_contra hc
    exact h ⟨hn, hc⟩

theorem config_of_frequent {cfg : Config} {n : ℕ} (h : cfg.frequent n = true) :
    ∃ conf, cfg.autoCursorConfig = some conf ∧ 0 < conf.persistFrequency := by
  unfold Config.frequent at h
  split at h
  · rename_i conf hconf
    exact ⟨conf, hconf, (of_decide_eq_true h).1⟩
  · cases h

theorem named_of_frequent {cfg : Config} {n : ℕ} (h : cfg.frequent n = true) : cfg.named = true := by
  obtain ⟨conf, hconf, -⟩ := config_of_frequent h
  by_contra hn
  simp [Config.autoCursorConfig, hn] at hconf

/-- A subscription, where there is an offset to ask for. -/
theorem subscribe_cases (s : State) (c : ℕ) :
    s.cursor.initialOffset = none ∧ s.subscribe c = s ∨
      ∃ asked, s.cursor.initialOffset = some asked ∧
        s.subscribe c = { s with feed := s.feed.subscribe c asked } := by
  unfold State.subscribe
  split
  · rename_i asked hasked
    exact .inr ⟨asked, hasked, rfl⟩
  · rename_i hnone
    exact .inl ⟨hnone, rfl⟩

section

variable {cfg : Config} {s t : State}

/-- `start()` subscribes with the client `c`, and goes on or gives up. -/
theorem Progress.of_subscribe {a : Act} {c : ℕ} (ha : a = .startSubscribe ∨ a = .startThrow true)
    (hpc : s.start = .queried c) {pc : StartPc} (hpc' : pc = .subscribed c ∨ pc = .threw) :
    Progress cfg s { s.subscribe c with start := pc } a := by
  obtain ⟨-, hsame⟩ | ⟨asked, hasked, hsub⟩ := subscribe_cases s c
  · rw [hsame]
    exact .still rfl rfl rfl
  · rw [hsub]
    exact .subscribe ha hpc hpc' hasked rfl rfl rfl

/-- `reconnect_to_server` subscribes with the client `c`. -/
theorem Progress.of_resubscribe {a : Act} {c : ℕ}
    (ha : a = .reconnectSubscribe ∨ ∃ deleted, a = .reconnectRefuse true deleted)
    (hstarted : s.status = .started)
    (hcur : t.cursor = (State.subscribe { s with cursor := s.cursor.resume } c).cursor)
    (hfeed : t.feed = (State.subscribe { s with cursor := s.cursor.resume } c).feed)
    (hsto : t.stores = (State.subscribe { s with cursor := s.cursor.resume } c).stores) :
    Progress cfg s t a := by
  obtain ⟨-, hsame⟩ | ⟨asked, hasked, hsub⟩ :=
    subscribe_cases { s with cursor := s.cursor.resume } c
  · rw [hsame] at hcur hfeed hsto
    exact .resume hstarted hcur hfeed hsto
  · rw [hsub] at hcur hfeed hsto
    exact .resubscribe ha hstarted hasked hcur hfeed hsto

theorem progress_of_step {a : Act} (h : step cfg s a = some t) : Progress cfg s t a := by
  by_cases ha : a.feeds = false
  · obtain ⟨hcur, hfeed, hsto⟩ := (leaves_of_step h).feed ha
    exact .still hcur hfeed hsto
  cases a <;> simp only [Act.feeds, not_true_eq_false] at ha <;> simp only [step] at h
  case startQuery stored =>
    split at h <;> try cases h
    · exact .still rfl rfl rfl
    · rename_i c o hpc
      split at h <;> cases h
      exact .query hpc rfl rfl rfl
  case startSubscribe =>
    split at h <;> cases h
    rename_i c hpc
    exact .of_subscribe (.inl rfl) hpc (.inl rfl)
  case startThrow subscribed =>
    split at h <;> cases h
    · exact .still rfl rfl rfl
    · exact .still rfl rfl rfl
    · exact .still rfl rfl rfl
    · rename_i c hpc
      cases subscribed with
      | false => exact .still rfl rfl rfl
      | true => exact .of_subscribe (.inr rfl) hpc (.inr rfl)
  case deliver c o =>
    split at h <;> cases h
    rename_i sub hpc hsub
    exact .deliver hpc hsub rfl rfl rfl
  case accept c =>
    split at h
    · rename_i o hpc
      split at h <;> cases h
      rename_i hfree
      by_cases hskip : s.cursor.skips o = true
      · have hs : s.accept cfg c o = { s with feed := s.feed.setMessage c .idle } := if_pos hskip
        rw [hs]
        exact .skip hpc hskip rfl rfl rfl
      · have hs : s.accept cfg c o = _ := if_neg hskip
        rw [hs]
        exact .accept hpc hfree (by simpa using hskip) rfl rfl rfl
    · cases h
  case hand c =>
    split at h <;> cases h
    rename_i hpc
    exact .hand hpc rfl rfl rfl
  case handled c =>
    split at h <;> cases h
    rename_i hpc
    exact .handled hpc rfl rfl rfl
  case handlerThrow c =>
    split at h <;> cases h
    rename_i hpc
    exact .threw hpc rfl rfl rfl
  case storeHandled c ok =>
    split at h
    · rename_i o hpc
      split at h <;> cases h
      by_cases hfreq : cfg.frequent s.cursor.sinceLastPersist = true
      · simp only [if_pos hfreq]
        obtain ⟨⟨-, hclient⟩, hcur, hsto⟩ | ⟨hwhy, hsame⟩ := internalStoreOffset_cases cfg s o ok
        · exact .storeHandled hpc hfreq hclient hcur rfl hsto
        · rw [hsame]
          exact .leave hpc (fun _ => hwhy (named_of_frequent hfreq)) rfl rfl rfl
      · simp only [if_neg hfreq]
        exact .leave hpc (fun h => absurd h hfreq) rfl rfl rfl
    · cases h
  case storeOffset o ok =>
    split at h <;> cases h
    obtain ⟨-, hcur, hsto⟩ | ⟨-, hsame⟩ := internalStoreOffset_cases cfg s o ok
    · exact .storeOffset hcur (by simp) hsto
    · rw [hsame]
      exact .still rfl rfl rfl
  case persistStore ok =>
    split at h <;> cases h
    unfold State.storeCurrentOffset
    by_cases hpos : 0 < s.cursor.sinceLastPersist
    · simp only [if_pos hpos]
      cases hlast : s.cursor.lastSeen with
      | none => exact .still rfl rfl rfl
      | some o =>
        obtain ⟨⟨hnamed, hclient⟩, hcur, hsto⟩ | ⟨-, hsame⟩ := internalStoreOffset_cases cfg s o ok
        · exact .persist hlast hpos hnamed hclient hcur (by simp) hsto
        · simp only [hsame]
          exact .still rfl rfl rfl
    · simp only [if_neg hpos]
      exact .still (by simp) (by simp) (by simp)
  case reconnectSubscribe =>
    (repeat' split at h) <;> cases h
    · rename_i hstarted
      exact .of_resubscribe (.inl rfl) hstarted rfl rfl rfl
    · exact .still rfl rfl rfl
  case reconnectRefuse subscribed deleted =>
    split at h
    · split at h <;> cases h
      rename_i hstarted
      cases subscribed with
      | false => exact .resume hstarted.2 rfl rfl rfl
      | true => exact .of_resubscribe (.inr ⟨deleted, rfl⟩) hstarted.2 rfl rfl rfl
    · cases h
  case stopStore k ok =>
    split at h
    · rename_i c hpc
      split at h
      · split at h
        · rename_i hconf hlast
          split at h <;> cases h
          · rename_i hpos
            exact .stopStore hpc rfl (by simp [hconf]) hlast hpos rfl rfl rfl
          · exact .still rfl rfl rfl
        · cases h
          exact .still rfl rfl rfl
      · cases h
    · cases h

/-- A cursor that counts a message has seen one. -/
def Cursor.Seen (cur : Cursor) : Prop := 0 < cur.sinceLastPersist → cur.lastSeen ≠ none

theorem Cursor.Seen.stored {cur : Cursor} (h : cur.Seen) (ok : Bool) : (cur.stored ok).Seen := by
  cases ok with
  | false => exact h
  | true => exact nofun

theorem Cursor.Seen.resume {cur : Cursor} (h : cur.Seen) : cur.resume.Seen := by
  simpa [Cursor.Seen] using h

theorem seen_step {a : Act} (hs : s.cursor.Seen) (h : step cfg s a = some t) : t.cursor.Seen := by
  cases progress_of_step h with
  | query hpc hcur hfeed hsto =>
    rw [hcur]
    exact hs
  | subscribe ha hpc hpc' hasked hcur hfeed hsto =>
    rw [hcur]
    exact hs
  | resume hstarted hcur hfeed hsto =>
    rw [hcur]
    exact hs.resume
  | resubscribe ha hstarted hasked hcur hfeed hsto =>
    rw [hcur]
    exact hs.resume
  | accept hpc hfree hskip hcur hfeed hsto =>
    rw [hcur]
    exact fun _ => nofun
  | storeHandled hpc hfreq hclient hcur hfeed hsto =>
    rw [hcur]
    exact hs.stored _
  | storeOffset hcur hfeed hsto =>
    rw [hcur]
    exact hs.stored _
  | persist hlast hpos hnamed hclient hcur hfeed hsto =>
    rw [hcur]
    exact hs.stored _
  | _ =>
    rename_i hcur _ _
    rw [hcur]
    exact hs

end

end Hareflow.Consumer
