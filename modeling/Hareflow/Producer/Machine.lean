import Hareflow.Exceptions
import Hareflow.Foundations.Machine
import Hareflow.Producer.Unconfirmed

/-!
# The producer

`ProducerImpl` takes messages from any number of threads. `send` gives a message its publishing id,
waits for a permit and adds it to the accumulator; `publish_batch` moves what has accumulated to
`m_unconfirmed`, and writes it to the client if there is one. A message leaves `m_unconfirmed`, and
its confirmation handler is called, when the broker confirms it or reports an error, when it times
out, or when the producer stops.

This module is the machine of a producer from the moment it is `Started`. Its steps are in seven
groups, one for each part of the source that runs on its own:

* `SendAct`: the calls of `send`, each with a number, its *ticket*;
* `BatchAct`: `publish_batch`, for a call of `send`, a call of `flush` or the batch task. It holds
  `m_mutex` over several steps;
* `FrameAct`: the frame thread of a client, with `handle_publish_confirm`, `handle_publish_error` and
  the confirmation handlers it calls;
* `ShutdownAct`: the calls of `handle_shutdown`;
* `TimeoutAct`: `check_confirm_timeout`;
* `ReconnectAct`: `delayed_reconnect` and `reconnect_to_server`;
* `StopAct`: the calls of `stop()` and `internal_stop`, the second on the stream-deleted task too. The
  one that finds the producer `Started` performs the stop, in the order of `Stage`.

A task runs at any time as long as it is not destroyed: when it is scheduled is left out, which only
adds runs (`Producer.Refinement` has the proof for the tasks of the recovery). Whoever destroys a task
waits until its function is not running, and whoever stops a client or drops the last reference to it
waits until its frame thread has left its loop, except on that thread itself.

A confirmation handler returns or throws. `handle_frames` survives a `StreamException` of a handler that
it has called, and goes on with the next frame. `check_confirm_timeout` and `fail_all_unconfirmed` are
left by an exception, with what they had changed before: `TimeoutAct.throw` and `StopAct.throw`. A task
whose function has thrown does not run again, and its `destroy()` throws the exception once more.

`BatchMove` and `StopMove` say what the steps of `publish_batch` and of the stop do, case by case. The
invariants of a producer are proved from them.
-/

namespace Hareflow.Producer

open Foundations

structure Config where
  batchSize : ℕ
  batchPublishingDelay : ℕ
  maxUnconfirmed : ℕ
  confirmTimeout : ℕ
  enqueueTimeout : ℕ
  /-- `m_next_publishing_id` as `start()` leaves it. -/
  firstPublishingId : UInt64
  /-- The maximum frame size of the client of `start()`. -/
  maxFrameSize : UInt32
  deriving DecidableEq, Repr

/-- `ProducerErrorCode`, with its values. -/
inductive ProducerErrorCode
  | messageEnqueuingFailed
  | producerNotAvailable
  | producerStopped
  | confirmTimeout
  deriving DecidableEq, Repr

def ProducerErrorCode.value : ProducerErrorCode → UInt16
  | .messageEnqueuingFailed => 0x4001
  | .producerNotAvailable => 0x4002
  | .producerStopped => 0x4003
  | .confirmTimeout => 0x4004

/-- `ConfirmationStatus`, for a message that is known. -/
structure ConfirmationStatus where
  confirmed : Bool
  statusCode : UInt16
  deriving DecidableEq, Repr

structure Semaphore where
  available : ℕ
  destroyed : Bool
  deriving DecidableEq, Repr

/-! ## Where the calls are -/

/-- Where a call of `send` is. -/
inductive SendPc
  | idle
  /-- Has its publishing id, before the test of the status. -/
  | allocated (publishingId : UInt64)
  /-- Before the permit. -/
  | checked (publishingId : UInt64)
  /-- Has a permit, before `add`. -/
  | permitted (publishingId : UInt64)
  /-- In `add`, past the size check. -/
  | sized (m : AccumulatedMessage)
  /-- `add` has returned, and whether the accumulator was full. -/
  | added (full : Bool)
  /-- Before the mutex in `publish_batch`, or in it. -/
  | publishing
  | returned
  | threw
  deriving DecidableEq, Repr

/-- `add` has accepted the message of the call. -/
def SendPc.accepted : SendPc → Bool
  | .added _ | .publishing | .returned => true
  | _ => false

/-- Where a call of `flush` is. -/
inductive FlushPc
  | idle
  /-- In `publish_batch`. -/
  | publishing
  | returned
  | threw
  deriving DecidableEq, Repr

/-- Who calls `publish_batch`. -/
inductive Caller
  | send (k : ℕ)
  | flush (k : ℕ)
  | task
  deriving DecidableEq, Repr

/-- Where the call of `publish_batch` that has the mutex is. -/
inductive BatchPc
  /-- Past the test of the status. -/
  | locked
  | extracted (ms : List AccumulatedMessage)
  | published (ms : List AccumulatedMessage)
  deriving DecidableEq, Repr

/-- The batch that is being moved. -/
def BatchPc.messages : BatchPc → List AccumulatedMessage
  | .locked => []
  | .extracted ms | .published ms => ms

structure Batch where
  caller : Caller
  pc : BatchPc
  deriving DecidableEq, Repr

/-- Where the frame thread of a client is. -/
inductive FramePc
  | absent
  | reading
  /-- Has taken the message out of `m_unconfirmed`, before the call of its handler. -/
  | taken (m : AccumulatedMessage) (status : ConfirmationStatus)
  /-- In the handler. -/
  | handling (m : AccumulatedMessage)
  /-- Out of the loop of `handle_frames`. -/
  | left
  deriving DecidableEq, Repr

/-- The thread can still call the producer. -/
def FramePc.active : FramePc → Bool
  | .absent | .left => false
  | _ => true

/-- The call of `handle_shutdown` by a client, with a reason other than `ClientInitiated`. -/
inductive Shutdown
  | none
  /-- Past the test of the status, before the mutex. -/
  | waiting
  | returned
  deriving DecidableEq, Repr

/-- Where `check_confirm_timeout` is. -/
inductive TimeoutPc
  | idle
  /-- Before its critical section. -/
  | entered
  /-- Calling the handlers: all that was taken out, and what is left to do. -/
  | failing (timedOut todo : List AccumulatedMessage) (errorCode : ProducerErrorCode)
  /-- A handler has thrown, and the task does not run any more. -/
  | threw
  deriving DecidableEq, Repr

/-- Where `delayed_reconnect` is. -/
inductive DelayedPc
  | idle
  | checking
  /-- Has moved `m_client` into its local, and stops it. -/
  | taken (client : Option ℕ)
  deriving DecidableEq, Repr

/-- Where `reconnect_to_server` is. -/
inductive ReconnectPc
  | idle
  /-- Before the early return. -/
  | checking
  | connecting
  | started (c : ℕ)
  /-- Before the critical section that resends and stores. -/
  | declared (c : ℕ)
  /-- The client is stored, and the local reference not yet dropped. -/
  | installed (c : ℕ)
  /-- In the `catch` block, before the stop of the client. -/
  | failed (c : ℕ)
  deriving DecidableEq, Repr

/-- The local `client`. -/
def ReconnectPc.client : ReconnectPc → Option ℕ
  | .started c | .declared c | .installed c | .failed c => some c
  | _ => none

/-- Past the early return, and before the client is stored. -/
def ReconnectPc.connects : ReconnectPc → Bool
  | .connecting | .started _ | .declared _ => true
  | _ => false

inductive TaskName
  | streamDeleted
  | batchPublish
  | confirmTimeout
  | delayedReconnect
  | reconnect
  deriving DecidableEq, Repr

/-- Who calls `stop()` or `internal_stop`. -/
inductive Stopper
  | user (k : ℕ)
  /-- A confirmation handler on the frame thread of a client. -/
  | frame (c : ℕ)
  | streamDeletedTask
  deriving DecidableEq, Repr

/-- The code that the messages fail with. -/
def Stopper.code : Stopper → UInt16
  | .streamDeletedTask => ResponseCode.streamDoesNotExist.value
  | _ => ProducerErrorCode.producerStopped.value

/-- Where a call of `stop()` or `internal_stop` is. -/
inductive StopPc
  | idle
  /-- Before the `destroy()` of a task. -/
  | destroying (task : TaskName)
  /-- In it: the task is marked, and its function may still be running. -/
  | joining (task : TaskName)
  /-- Before the exchange of the status. -/
  | exchanging
  /-- Has found the producer `Started`, and stops it. -/
  | performing
  | returned
  | threw
  deriving DecidableEq, Repr

/-- The call is in progress. -/
def StopPc.busy : StopPc → Bool
  | .idle | .returned | .threw => false
  | _ => true

/-- What comes after the `destroy()` of a task. -/
def TaskName.next : TaskName → StopPc
  | .streamDeleted => .destroying .batchPublish
  | .batchPublish => .destroying .confirmTimeout
  | .confirmTimeout => .destroying .delayedReconnect
  | .delayedReconnect => .destroying .reconnect
  | .reconnect => .exchanging

/-- How far the call of `internal_stop` is that found the producer `Started`. Until there is one the
status is `Started`. -/
inductive Stage
  | running
  /-- The status is `Stopped`; before `m_accumulator->destroy()`. -/
  | accumulator
  | semaphore
  /-- Before the critical section that moves `m_client` away. -/
  | taking
  | stopping (c : ℕ)
  /-- Before the mutex of `fail_all_unconfirmed`. -/
  | locking
  /-- The loop over `m_unconfirmed`: what is left to do. -/
  | unconfirmed (todo : List AccumulatedMessage)
  /-- The loop over what was left in the accumulator, and what is left to do. -/
  | pending (extracted todo : List AccumulatedMessage)
  | done
  /-- A handler that `fail_all_unconfirmed` called has thrown, and whether `m_unconfirmed` was cleared
  before. -/
  | aborted (cleared : Bool)
  deriving DecidableEq, Repr

/-- `fail_all_unconfirmed` has the mutex. -/
def Stage.locks : Stage → Bool
  | .unconfirmed _ | .pending _ _ => true
  | _ => false

/-! ## The state -/

structure State where
  nextPublishingId : UInt64
  /-- The number of calls of `send` so far. -/
  calls : ℕ
  sends : ℕ → SendPc
  flushes : ℕ → FlushPc
  accumulator : Accumulator
  semaphore : Semaphore
  unconfirmed : Unconfirmed
  /-- The call of `publish_batch` that has the mutex. -/
  batch : Option Batch
  /-- `m_client`; the clients are numbered in the order of their creation. -/
  client : Option ℕ
  created : ℕ
  frames : ℕ → FramePc
  shutdown : ℕ → Shutdown
  /-- What was written to each client, in order. -/
  written : ℕ → List AccumulatedMessage
  /-- The tasks that are marked as destroyed. -/
  destroyed : TaskName → Bool
  /-- The batch task is in `publish_batch`. -/
  batchTask : Bool
  timeout : TimeoutPc
  delayed : DelayedPc
  reconnect : ReconnectPc
  stops : Stopper → StopPc
  stage : Stage
  /-- The messages that `add` has accepted. -/
  accepted : List AccumulatedMessage
  /-- The calls of confirmation handlers. -/
  handled : List (AccumulatedMessage × ConfirmationStatus)

/-- A producer as `start()` leaves it. -/
def initial (cfg : Config) : State where
  nextPublishingId := cfg.firstPublishingId
  calls := 0
  sends := fun _ => .idle
  flushes := fun _ => .idle
  accumulator := ⟨cfg.batchSize, cfg.maxFrameSize, [], false⟩
  semaphore := ⟨cfg.maxUnconfirmed, false⟩
  unconfirmed := ∅
  batch := none
  client := some 0
  created := 1
  frames := fun c => if c = 0 then .reading else .absent
  shutdown := fun _ => .none
  written := fun _ => []
  destroyed := fun _ => false
  batchTask := false
  timeout := .idle
  delayed := .idle
  reconnect := .idle
  stops := fun _ => .idle
  stage := .running
  accepted := []
  handled := []

namespace State

/-- Nobody has `m_mutex`; every critical section of one step needs it. -/
def unlocked (s : State) : Bool := s.batch.isNone && !s.stage.locks

def setSend (s : State) (k : ℕ) (pc : SendPc) : State :=
  { s with sends := Function.update s.sends k pc }

def setFlush (s : State) (k : ℕ) (pc : FlushPc) : State :=
  { s with flushes := Function.update s.flushes k pc }

def setFrame (s : State) (c : ℕ) (pc : FramePc) : State :=
  { s with frames := Function.update s.frames c pc }

def setShutdown (s : State) (c : ℕ) (call : Shutdown) : State :=
  { s with shutdown := Function.update s.shutdown c call }

def setStop (s : State) (p : Stopper) (pc : StopPc) : State :=
  { s with stops := Function.update s.stops p pc }

/-- Permits are released. -/
def release (s : State) (n : ℕ) : State :=
  { s with semaphore := { s.semaphore with available := s.semaphore.available + n } }

/-- `send` throws, after it has a permit. -/
def throwPermitted (s : State) (k : ℕ) : State := (s.release 1).setSend k .threw

/-- A confirmation handler is called. -/
def handle (s : State) (m : AccumulatedMessage) (status : ConfirmationStatus) : State :=
  { s with handled := s.handled ++ [(m, status)] }

def write (s : State) (c : ℕ) (ms : List AccumulatedMessage) : State :=
  { s with written := Function.update s.written c (s.written c ++ ms) }

/-- The caller is about to take the mutex in `publish_batch`. -/
def calling (s : State) : Caller → Bool
  | .send k => s.sends k = .publishing
  | .flush k => s.flushes k = .publishing
  | .task => s.batchTask

/-- `publish_batch` returns to its caller. -/
def finish (s : State) : Caller → State
  | .send k => s.setSend k .returned
  | .flush k => s.setFlush k .returned
  | .task => { s with batchTask := false }

/-- The function of the task is not running. -/
def quiet (s : State) : TaskName → Bool
  | .streamDeleted => !(s.stops .streamDeletedTask).busy
  | .batchPublish => !s.batchTask
  | .confirmTimeout => s.timeout = .idle
  | .delayedReconnect => s.delayed = .idle
  | .reconnect => s.reconnect = .idle

/-- The function of the task has thrown. -/
def threw (s : State) : TaskName → Bool
  | .streamDeleted => s.stops .streamDeletedTask = .threw
  | .confirmTimeout => s.timeout = .threw
  | .batchPublish | .delayedReconnect | .reconnect => false

end State

/-! ## The steps -/

inductive SendAct
  /-- A new call takes a publishing id, from the counter unless the user gives one. -/
  | call (explicit : Option UInt64)
  /-- The test of the status. -/
  | check (k : ℕ)
  | acquire (k : ℕ)
  /-- No permit within `m_enqueue_timeout`. -/
  | timeout (k : ℕ)
  /-- The message is encoded, unless the codec throws, and its size checked. -/
  | encode (k : ℕ) (encoded : Option (List UInt8)) (now : ℕ)
  /-- The rest of `add`. -/
  | insert (k : ℕ)
  /-- Go on to `publish_batch`, or return. -/
  | proceed (k : ℕ)
  deriving DecidableEq, Repr

def stepSend (cfg : Config) (s : State) : SendAct → Option State
  | .call none =>
    some { s.setSend s.calls (.allocated s.nextPublishingId) with
      nextPublishingId := s.nextPublishingId + 1
      calls := s.calls + 1 }
  | .call (some publishingId) =>
    some { s.setSend s.calls (.allocated publishingId) with calls := s.calls + 1 }
  | .check k =>
    match s.sends k with
    | .allocated i => some (s.setSend k (if s.stage = .running then .checked i else .threw))
    | _ => none
  | .acquire k =>
    match s.sends k with
    | .checked i =>
      if s.semaphore.destroyed then some (s.setSend k .threw)
      else if 0 < s.semaphore.available then
        some { s.setSend k (.permitted i) with
          semaphore := { s.semaphore with available := s.semaphore.available - 1 } }
      else none
    | _ => none
  | .timeout k =>
    match s.sends k with
    | .checked _ =>
      if cfg.enqueueTimeout ≠ 0 ∧ s.semaphore.available = 0 ∧ s.semaphore.destroyed = false then
        some (s.setSend k .threw)
      else none
    | _ => none
  | .encode k encoded now =>
    match s.sends k, encoded with
    | .permitted _, none => some (s.throwPermitted k)
    | .permitted i, some e =>
      match s.accumulator.checkSize i e with
      | some _ => some (s.throwPermitted k)
      | none => some (s.setSend k (.sized ⟨i, now, e, k⟩))
    | _, _ => none
  | .insert k =>
    match s.sends k with
    | .sized m =>
      match s.accumulator.insert m with
      | .destroyed => some (s.throwPermitted k)
      | .added full a =>
        some { s.setSend k (.added full) with
          accumulator := a
          accepted := s.accepted ++ [m] }
      | _ => none
    | _ => none
  | .proceed k =>
    match s.sends k with
    | .added full => some (s.setSend k (if full then .publishing else .returned))
    | _ => none

inductive BatchAct
  | flush (k : ℕ)
  /-- The batch task calls `publish_batch`. -/
  | task
  /-- Take the mutex and test the status. -/
  | lock (caller : Caller)
  | extract
  /-- Write the batch to the client, if there is one. With `failed = some n` the client throws after
  the first `n` messages. -/
  | publish (failed : Option ℕ)
  /-- Move the batch to `m_unconfirmed` and leave. -/
  | insert
  deriving DecidableEq, Repr

/-- What `publish_encoded` writes of the messages. -/
def writtenPart (failed : Option ℕ) (ms : List AccumulatedMessage) : List AccumulatedMessage :=
  match failed with
  | none => ms
  | some n => ms.take n

def stepBatch (cfg : Config) (s : State) : BatchAct → Option State
  | .flush k =>
    if s.flushes k = .idle then
      some (s.setFlush k (if s.stage = .running then .publishing else .threw))
    else none
  | .task =>
    if cfg.batchPublishingDelay ≠ 0 ∧ s.destroyed .batchPublish = false ∧ s.batchTask = false then
      some { s with batchTask := true }
    else none
  | .lock caller =>
    if s.calling caller ∧ s.unlocked then
      if s.stage = .running then some { s with batch := some ⟨caller, .locked⟩ }
      else some (s.finish caller)
    else none
  | .extract =>
    match s.batch with
    | some ⟨caller, .locked⟩ =>
      some { s with
        batch := some ⟨caller, .extracted s.accumulator.extractAll.1⟩
        accumulator := s.accumulator.extractAll.2 }
    | _ => none
  | .publish failed =>
    match s.batch with
    | some ⟨caller, .extracted ms⟩ =>
      let t := { s with batch := some ⟨caller, .published ms⟩ }
      match s.client with
      | some c => some (t.write c (writtenPart failed ms))
      | none => some t
    | _ => none
  | .insert =>
    match s.batch with
    | some ⟨caller, .published ms⟩ =>
      let u := s.unconfirmed.emplaceAll ms
      -- a message whose id is there already is dropped, and its permit with it
      let t := s.release (s.unconfirmed.entries.length + ms.length - u.entries.length)
      some ({ t with unconfirmed := u, batch := none }.finish caller)
    | _ => none

inductive FrameAct
  | confirm (c : ℕ) (publishingId : UInt64)
  | error (c : ℕ) (publishingId : UInt64) (errorCode : UInt16)
  /-- Call the confirmation handler. -/
  | invoke (c : ℕ)
  /-- The handler returns, or throws a `StreamException`. -/
  | finish (c : ℕ)
  | leave (c : ℕ)
  deriving DecidableEq, Repr

/-- The critical section of `handle_publish_confirm` and `handle_publish_error`. -/
def State.takeUnconfirmed (s : State) (c : ℕ) (publishingId : UInt64) (status : ConfirmationStatus) :
    Option State :=
  if s.frames c = .reading ∧ s.unlocked then
    match s.unconfirmed.find publishingId with
    | some m =>
      some { s.setFrame c (.taken m status) with unconfirmed := s.unconfirmed.erase publishingId }
    | none => some s
  else none

def stepFrame (s : State) : FrameAct → Option State
  | .confirm c publishingId => s.takeUnconfirmed c publishingId ⟨true, ResponseCode.ok.value⟩
  | .error c publishingId errorCode => s.takeUnconfirmed c publishingId ⟨false, errorCode⟩
  | .invoke c =>
    match s.frames c with
    | .taken m status => some ((s.handle m status).setFrame c (.handling m))
    | _ => none
  | .finish c =>
    match s.frames c with
    | .handling _ =>
      -- the handler may be in a call of `stop()`
      if (s.stops (.frame c)).busy then none else some ((s.release 1).setFrame c .reading)
    | _ => none
  | .leave c => if s.frames c = .reading then some (s.setFrame c .left) else none

inductive ShutdownAct
  | call (c : ℕ)
  /-- The critical section. -/
  | handle (c : ℕ)
  deriving DecidableEq, Repr

/-- The frame thread is not in the way of dropping the client from `m_client`: it has left, or the
reference is not the last one. -/
def State.droppable (s : State) (b : ℕ) : Bool :=
  s.frames b = .left || s.reconnect = .installed b

def stepShutdown (s : State) : ShutdownAct → Option State
  | .call c =>
    if c < s.created ∧ s.shutdown c = .none then
      some (s.setShutdown c (if s.stage = .running then .waiting else .returned))
    else none
  | .handle c =>
    if s.shutdown c = .waiting ∧ s.unlocked ∧ s.client.all s.droppable then
      some { s.setShutdown c .returned with client := none }
    else none

inductive TimeoutAct
  | enter
  /-- The critical section. -/
  | scan (now : ℕ)
  /-- Call the next handler, which returns. -/
  | invoke
  /-- Call the next handler, which throws. -/
  | throw
  | finish
  deriving DecidableEq, Repr

def stepTimeout (cfg : Config) (s : State) : TimeoutAct → Option State
  | .enter =>
    if cfg.confirmTimeout ≠ 0 ∧ s.destroyed .confirmTimeout = false ∧ s.timeout = .idle then
      some { s with timeout := .entered }
    else none
  | .scan now =>
    if s.timeout = .entered ∧ s.unlocked then
      let timedOut := s.unconfirmed.timedOut now cfg.confirmTimeout
      some { s with
        unconfirmed := s.unconfirmed.eraseAll timedOut
        timeout := .failing timedOut timedOut
          (if s.client = none then .producerNotAvailable else .confirmTimeout) }
    else none
  | .invoke =>
    match s.timeout with
    | .failing timedOut (m :: todo) e =>
      some { s.handle m ⟨false, e.value⟩ with timeout := .failing timedOut todo e }
    | _ => none
  | .throw =>
    match s.timeout with
    | .failing timedOut (m :: _) e =>
      -- the exception destroys `timed_out`, with the messages that are left
      some { (s.handle m ⟨false, e.value⟩).release timedOut.length with timeout := .threw }
    | _ => none
  | .finish =>
    match s.timeout with
    | .failing timedOut [] _ => some { s.release timedOut.length with timeout := .idle }
    | _ => none

inductive ReconnectAct
  | delayed
  /-- The critical section of `delayed_reconnect`. -/
  | delayedTake
  | delayedStop
  | enter
  /-- The critical section with the early return. -/
  | check
  /-- `get_client` and the client's `start()`. -/
  | connect
  | declare
  /-- A call throws before the second critical section. -/
  | throw
  /-- The critical section that resends and stores. With `failed = some n` the client throws after
  the first `n` messages. -/
  | resend (failed : Option ℕ)
  /-- `client->stop()` in the `catch` block. -/
  | stop
  /-- Leave, dropping the local reference to the client that was stored. -/
  | finish
  deriving DecidableEq, Repr

/-- The batches of `reconnect_to_server`: `encoded` is `encoded_messages`. -/
def resendBatches (batchSize : ℕ) :
    List AccumulatedMessage → List AccumulatedMessage → List (List AccumulatedMessage)
  | [], encoded => if encoded = [] then [] else [encoded]
  | m :: ms, encoded =>
    if (encoded ++ [m]).length = batchSize then (encoded ++ [m]) :: resendBatches batchSize ms []
    else resendBatches batchSize ms (encoded ++ [m])

/-- The batches carry all messages, in order. -/
theorem flatten_resendBatches (batchSize : ℕ) (ms encoded : List AccumulatedMessage) :
    (resendBatches batchSize ms encoded).flatten = encoded ++ ms := by
  induction ms generalizing encoded with
  | nil =>
    rw [resendBatches]
    split <;> simp [*]
  | cons m ms ih =>
    rw [resendBatches]
    split
    · rw [List.flatten_cons, ih, List.nil_append, List.append_assoc, List.singleton_append]
    · rw [ih, List.append_assoc, List.singleton_append]

def stepReconnect (cfg : Config) (s : State) : ReconnectAct → Option State
  | .delayed =>
    if s.destroyed .delayedReconnect = false ∧ s.delayed = .idle then
      some { s with delayed := .checking }
    else none
  | .delayedTake =>
    if s.delayed = .checking ∧ s.unlocked then
      if s.stage = .running then some { s with client := none, delayed := .taken s.client }
      else some { s with delayed := .idle }
    else none
  | .delayedStop =>
    match s.delayed with
    | .taken none => some { s with delayed := .idle }
    | .taken (some c) => if s.frames c = .left then some { s with delayed := .idle } else none
    | _ => none
  | .enter =>
    if s.destroyed .reconnect = false ∧ s.reconnect = .idle then
      some { s with reconnect := .checking }
    else none
  | .check =>
    if s.reconnect = .checking ∧ s.unlocked then
      if s.client ≠ none ∨ s.stage ≠ .running then some { s with reconnect := .idle }
      else some { s with reconnect := .connecting }
    else none
  | .connect =>
    if s.reconnect = .connecting then
      some { s.setFrame s.created .reading with
        created := s.created + 1
        reconnect := .started s.created }
    else none
  | .declare =>
    match s.reconnect with
    | .started c => some { s with reconnect := .declared c }
    | _ => none
  | .throw =>
    match s.reconnect with
    -- a client whose `start()` throws has stopped itself
    | .connecting => some { s with reconnect := .idle }
    | .started c => some { s with reconnect := .failed c }
    | _ => none
  | .resend failed =>
    match s.reconnect with
    | .declared c =>
      if s.unlocked then
        if s.stage = .running then
          let t := s.write c
            (writtenPart failed (resendBatches cfg.batchSize s.unconfirmed.sorted []).flatten)
          match failed with
          | none => some { t with client := some c, reconnect := .installed c }
          | some _ => some { t with reconnect := .failed c }
        else if s.frames c = .left then some { s with reconnect := .idle }
        else none
      else none
    | _ => none
  | .stop =>
    match s.reconnect with
    | .failed c => if s.frames c = .left then some { s with reconnect := .idle } else none
    | _ => none
  | .finish =>
    match s.reconnect with
    | .installed c =>
      if s.client = some c ∨ s.delayed = .taken (some c) ∨ s.frames c = .left then
        some { s with reconnect := .idle }
      else none
    | _ => none

inductive StopAct
  | call (p : Stopper)
  | destroy (p : Stopper)
  | join (p : Stopper)
  | exchange (p : Stopper)
  /-- The next step of the call that performs the stop. -/
  | perform (p : Stopper)
  /-- The same, when that is the call of a handler that throws. -/
  | throw (p : Stopper)
  deriving DecidableEq, Repr

/-- The body of `internal_stop` after the exchange, and `fail_all_unconfirmed`. -/
def State.perform (s : State) (p : Stopper) : Option State :=
  match s.stage with
  | .running | .done | .aborted _ => none
  | .accumulator => some { s with accumulator := s.accumulator.destroy, stage := .semaphore }
  | .semaphore =>
    some { s with semaphore := { s.semaphore with destroyed := true }, stage := .taking }
  | .taking =>
    if s.unlocked then
      some { s with
        client := none
        stage := match s.client with
          | some c => .stopping c
          | none => .locking }
    else none
  | .stopping c =>
    -- a client is not joined on its own frame thread
    if s.frames c = .left ∨ p = .frame c then some { s with stage := .locking } else none
  | .locking =>
    if s.unlocked then some { s with stage := .unconfirmed s.unconfirmed.entries } else none
  | .unconfirmed (m :: todo) =>
    some { s.handle m ⟨false, p.code⟩ with stage := .unconfirmed todo }
  | .unconfirmed [] =>
    some { s.release s.unconfirmed.entries.length with
      unconfirmed := ∅
      accumulator := s.accumulator.extractAll.2
      stage := .pending s.accumulator.extractAll.1 s.accumulator.extractAll.1 }
  | .pending extracted (m :: todo) =>
    some { s.handle m ⟨false, p.code⟩ with stage := .pending extracted todo }
  | .pending extracted [] =>
    some { (s.release extracted.length).setStop p .returned with stage := .done }

/-- A handler throws out of `fail_all_unconfirmed`: the first loop leaves `m_unconfirmed` as it is, and
with the second one the extracted messages are destroyed. -/
def State.abort (s : State) (p : Stopper) : Option State :=
  match s.stage with
  | .unconfirmed (m :: _) =>
    some { (s.handle m ⟨false, p.code⟩).setStop p .threw with stage := .aborted false }
  | .pending extracted (m :: _) =>
    some { ((s.handle m ⟨false, p.code⟩).release extracted.length).setStop p .threw with
      stage := .aborted true }
  | _ => none

def stepStop (s : State) : StopAct → Option State
  | .call (.user k) =>
    if (s.stops (.user k)).busy then none
    else some (s.setStop (.user k) (.destroying .streamDeleted))
  | .call (.frame c) =>
    match s.frames c with
    | .handling _ =>
      if (s.stops (.frame c)).busy then none
      else some (s.setStop (.frame c) (.destroying .streamDeleted))
    | _ => none
  | .call .streamDeletedTask =>
    if (s.stops .streamDeletedTask).busy ∨ s.threw .streamDeleted ∨ s.destroyed .streamDeleted then
      none
    else some (s.setStop .streamDeletedTask (.destroying .batchPublish))
  | .destroy p =>
    match s.stops p with
    | .destroying task =>
      some { s.setStop p (.joining task) with
        destroyed := Function.update s.destroyed task true }
    | _ => none
  | .join p =>
    match s.stops p with
    | .joining task =>
      if s.threw task then some (s.setStop p .threw)
      else if s.quiet task then some (s.setStop p task.next)
      else none
    | _ => none
  | .exchange p =>
    if s.stops p = .exchanging then
      if s.stage = .running then some { s.setStop p .performing with stage := .accumulator }
      else some (s.setStop p .returned)
    else none
  | .perform p => if s.stops p = .performing then s.perform p else none
  | .throw p => if s.stops p = .performing then s.abort p else none

/-- The atomic steps. -/
inductive Act
  | send (a : SendAct)
  | batch (a : BatchAct)
  | frame (a : FrameAct)
  | shutdown (a : ShutdownAct)
  | timeout (a : TimeoutAct)
  | reconnect (a : ReconnectAct)
  | stop (a : StopAct)
  deriving DecidableEq, Repr

def step (cfg : Config) (s : State) : Act → Option State
  | .send a => stepSend cfg s a
  | .batch a => stepBatch cfg s a
  | .frame a => stepFrame s a
  | .shutdown a => stepShutdown s a
  | .timeout a => stepTimeout cfg s a
  | .reconnect a => stepReconnect cfg s a
  | .stop a => stepStop s a

/-- The producer as a machine. -/
def machine (cfg : Config) : Machine State Act := ⟨(· = initial cfg), step cfg⟩

/-! ## What the steps touch -/

section

variable {cfg : Config} {s t : State}

theorem State.unlocked_iff : s.unlocked = true ↔ s.batch = none ∧ s.stage.locks = false := by
  simp [State.unlocked]

/-- What `add` accepts is appended to the pending messages; the other steps of `send` touch the calls
and the semaphore only. -/
theorem stepSend_inv {a : SendAct} (h : stepSend cfg s a = some t) :
    (∃ k m full, a = .insert k ∧ s.sends k = .sized m ∧ s.accumulator.destroyed = false ∧
      t = { s.setSend k (.added full) with
        accumulator := { s.accumulator with pending := s.accumulator.pending ++ [m] }
        accepted := s.accepted ++ [m] }) ∨
    ∃ next calls sends semaphore, t = { s with
      nextPublishingId := next, calls := calls, sends := sends, semaphore := semaphore } := by
  cases a with
  | insert k =>
    simp only [stepSend] at h
    split at h
    · rename_i m hm
      split at h
      · cases h
        exact .inr ⟨_, _, _, _, rfl⟩
      · rename_i full a ha
        cases h
        obtain ⟨hd, -, rfl⟩ := Accumulator.insert_eq_added ha
        exact .inl ⟨k, m, full, rfl, hm, hd, rfl⟩
      · cases h
    · cases h
  | call i => cases i <;> cases h <;> exact .inr ⟨_, _, _, _, rfl⟩
  | _ =>
    simp only [stepSend] at h
    (repeat' split at h) <;> first
      | (cases h; done)
      | (cases h; exact .inr ⟨_, _, _, _, rfl⟩)

theorem State.finish_eq (s : State) (caller : Caller) : ∃ sends flushes batchTask,
    s.finish caller = { s with sends := sends, flushes := flushes, batchTask := batchTask } := by
  cases caller <;> exact ⟨_, _, _, rfl⟩

/-- What a step of `publish_batch` does, or one of the calls that lead to it. -/
inductive BatchMove (s : State) : BatchAct → State → Prop
  | flush {k : ℕ} (pc : FlushPc) : BatchMove s (.flush k) (s.setFlush k pc)
  | task (hopen : s.destroyed .batchPublish = false) :
      BatchMove s .task { s with batchTask := true }
  | lock {caller : Caller} (hcall : s.calling caller = true) (hfree : s.unlocked = true)
      (hrun : s.stage = .running) :
      BatchMove s (.lock caller) { s with batch := some ⟨caller, .locked⟩ }
  /-- The producer is not running any more. -/
  | decline {caller : Caller} (hcall : s.calling caller = true) (hfree : s.unlocked = true)
      (hrun : s.stage ≠ .running) : BatchMove s (.lock caller) (s.finish caller)
  | extract {caller : Caller} (hb : s.batch = some ⟨caller, .locked⟩) :
      BatchMove s .extract { s with
        batch := some ⟨caller, .extracted s.accumulator.extractAll.1⟩
        accumulator := s.accumulator.extractAll.2 }
  | publish {caller : Caller} {ms : List AccumulatedMessage} {failed : Option ℕ} {c : ℕ}
      (hb : s.batch = some ⟨caller, .extracted ms⟩) (hc : s.client = some c) :
      BatchMove s (.publish failed)
        ({ s with batch := some ⟨caller, .published ms⟩ }.write c (writtenPart failed ms))
  /-- There is no client to write to. -/
  | park {caller : Caller} {ms : List AccumulatedMessage} {failed : Option ℕ}
      (hb : s.batch = some ⟨caller, .extracted ms⟩) (hc : s.client = none) :
      BatchMove s (.publish failed) { s with batch := some ⟨caller, .published ms⟩ }
  | insert {caller : Caller} {ms : List AccumulatedMessage}
      (hb : s.batch = some ⟨caller, .published ms⟩) :
      BatchMove s .insert
        ({ s.release (s.unconfirmed.entries.length + ms.length -
            (s.unconfirmed.emplaceAll ms).entries.length) with
          unconfirmed := s.unconfirmed.emplaceAll ms, batch := none }.finish caller)

theorem batchMove_of_step {a : BatchAct} (h : stepBatch cfg s a = some t) :
    BatchMove s a t := by
  cases a with
  | flush k =>
    simp only [stepBatch] at h
    split at h <;> cases h
    exact .flush _
  | task =>
    simp only [stepBatch] at h
    split at h <;> cases h
    rename_i hg
    exact .task hg.2.1
  | lock caller =>
    simp only [stepBatch] at h
    split at h
    · rename_i hg
      split at h <;> cases h <;> rename_i hrun
      · exact .lock hg.1 hg.2 hrun
      · exact .decline hg.1 hg.2 hrun
    · cases h
  | extract =>
    simp only [stepBatch] at h
    split at h <;> cases h
    rename_i hb
    exact .extract hb
  | publish failed =>
    simp only [stepBatch] at h
    split at h
    · rename_i hb
      split at h <;> cases h <;> rename_i hc
      · exact .publish hb hc
      · exact .park hb hc
    · cases h
  | insert =>
    simp only [stepBatch] at h
    split at h <;> cases h
    rename_i hb
    exact .insert hb

theorem stepBatch_touches {a : BatchAct} (h : stepBatch cfg s a = some t) :
    ∃ sends flushes accumulator semaphore unconfirmed batch written batchTask, t = { s with
      sends := sends, flushes := flushes, accumulator := accumulator, semaphore := semaphore,
      unconfirmed := unconfirmed, batch := batch, written := written, batchTask := batchTask } := by
  cases batchMove_of_step h with
  | flush | task | lock | extract | publish | park => exact ⟨_, _, _, _, _, _, _, _, rfl⟩
  | @decline caller hcall hfree hrun =>
    obtain ⟨_, _, _, hf⟩ := s.finish_eq caller
    rw [hf]
    exact ⟨_, _, _, _, _, _, _, _, rfl⟩
  | insert hb =>
    obtain ⟨_, _, _, hf⟩ := State.finish_eq _ _
    rw [hf]
    exact ⟨_, _, _, _, _, _, _, _, rfl⟩

theorem stepFrame_touches {a : FrameAct} (h : stepFrame s a = some t) :
    ∃ semaphore unconfirmed frames handled, t = { s with
      semaphore := semaphore, unconfirmed := unconfirmed, frames := frames, handled := handled } := by
  cases a <;> simp only [stepFrame, State.takeUnconfirmed] at h <;> (repeat' split at h) <;> first
    | (cases h; done)
    | (cases h; exact ⟨_, _, _, _, rfl⟩)

theorem stepShutdown_touches {a : ShutdownAct} (h : stepShutdown s a = some t) :
    ∃ client shutdown, t = { s with client := client, shutdown := shutdown } := by
  cases a <;> simp only [stepShutdown] at h <;> split at h <;> first
    | (cases h; done)
    | (cases h; exact ⟨_, _, rfl⟩)

theorem stepTimeout_touches {a : TimeoutAct} (h : stepTimeout cfg s a = some t) :
    ∃ semaphore unconfirmed timeout handled, t = { s with
      semaphore := semaphore, unconfirmed := unconfirmed, timeout := timeout, handled := handled } := by
  cases a <;> simp only [stepTimeout] at h <;> split at h <;> first
    | (cases h; done)
    | (cases h; exact ⟨_, _, _, _, rfl⟩)

theorem stepReconnect_touches {a : ReconnectAct} (h : stepReconnect cfg s a = some t) :
    ∃ client created frames written delayed reconnect, t = { s with
      client := client, created := created, frames := frames, written := written,
      delayed := delayed, reconnect := reconnect } := by
  cases a <;> simp only [stepReconnect] at h <;> (repeat' split at h) <;> first
    | (cases h; done)
    | (cases h; exact ⟨_, _, _, _, _, _, rfl⟩)

/-- What a step of `stop()` and `internal_stop` does. -/
inductive StopMove (s : State) : StopAct → State → Prop
  | callUser {k : ℕ} (hidle : (s.stops (.user k)).busy = false) :
      StopMove s (.call (.user k)) (s.setStop (.user k) (.destroying .streamDeleted))
  /-- A confirmation handler calls `stop()` on the frame thread. -/
  | callFrame {c : ℕ} {m : AccumulatedMessage} (hframe : s.frames c = .handling m)
      (hidle : (s.stops (.frame c)).busy = false) :
      StopMove s (.call (.frame c)) (s.setStop (.frame c) (.destroying .streamDeleted))
  | callTask (hidle : (s.stops .streamDeletedTask).busy = false) :
      StopMove s (.call .streamDeletedTask)
        (s.setStop .streamDeletedTask (.destroying .batchPublish))
  | destroy {p : Stopper} {x : TaskName} (hpc : s.stops p = .destroying x) :
      StopMove s (.destroy p)
        { s.setStop p (.joining x) with destroyed := Function.update s.destroyed x true }
  | join {p : Stopper} {x : TaskName} (hpc : s.stops p = .joining x) (hquiet : s.quiet x = true) :
      StopMove s (.join p) (s.setStop p x.next)
  /-- The `destroy()` of a task whose function has thrown. -/
  | joinThrew {p : Stopper} {x : TaskName} (hpc : s.stops p = .joining x)
      (hthrew : s.threw x = true) : StopMove s (.join p) (s.setStop p .threw)
  | exchange {p : Stopper} (hpc : s.stops p = .exchanging) (hst : s.stage = .running) :
      StopMove s (.exchange p) { s.setStop p .performing with stage := .accumulator }
  /-- Another call performs the stop. -/
  | decline {p : Stopper} (hpc : s.stops p = .exchanging) (hst : s.stage ≠ .running) :
      StopMove s (.exchange p) (s.setStop p .returned)
  | accumulator {p : Stopper} (hpc : s.stops p = .performing) (hst : s.stage = .accumulator) :
      StopMove s (.perform p)
        { s with accumulator := s.accumulator.destroy, stage := .semaphore }
  | semaphore {p : Stopper} (hpc : s.stops p = .performing) (hst : s.stage = .semaphore) :
      StopMove s (.perform p)
        { s with semaphore := { s.semaphore with destroyed := true }, stage := .taking }
  | take {p : Stopper} {c : ℕ} (hpc : s.stops p = .performing) (hst : s.stage = .taking)
      (hfree : s.unlocked = true) (hc : s.client = some c) :
      StopMove s (.perform p) { s with client := none, stage := .stopping c }
  | takeNone {p : Stopper} (hpc : s.stops p = .performing) (hst : s.stage = .taking)
      (hfree : s.unlocked = true) (hc : s.client = none) :
      StopMove s (.perform p) { s with client := none, stage := .locking }
  | stopped {p : Stopper} {c : ℕ} (hpc : s.stops p = .performing) (hst : s.stage = .stopping c)
      (hjoin : s.frames c = .left ∨ p = .frame c) :
      StopMove s (.perform p) { s with stage := .locking }
  | lock {p : Stopper} (hpc : s.stops p = .performing) (hst : s.stage = .locking)
      (hfree : s.unlocked = true) :
      StopMove s (.perform p) { s with stage := .unconfirmed s.unconfirmed.entries }
  | failUnconfirmed {p : Stopper} {m : AccumulatedMessage} {todo : List AccumulatedMessage}
      (hpc : s.stops p = .performing) (hst : s.stage = .unconfirmed (m :: todo)) :
      StopMove s (.perform p) { s.handle m ⟨false, p.code⟩ with stage := .unconfirmed todo }
  | clear {p : Stopper} (hpc : s.stops p = .performing) (hst : s.stage = .unconfirmed []) :
      StopMove s (.perform p) { s.release s.unconfirmed.entries.length with
        unconfirmed := ∅
        accumulator := s.accumulator.extractAll.2
        stage := .pending s.accumulator.extractAll.1 s.accumulator.extractAll.1 }
  | failPending {p : Stopper} {m : AccumulatedMessage} {extracted todo : List AccumulatedMessage}
      (hpc : s.stops p = .performing) (hst : s.stage = .pending extracted (m :: todo)) :
      StopMove s (.perform p) { s.handle m ⟨false, p.code⟩ with stage := .pending extracted todo }
  | finish {p : Stopper} {extracted : List AccumulatedMessage} (hpc : s.stops p = .performing)
      (hst : s.stage = .pending extracted []) :
      StopMove s (.perform p)
        { (s.release extracted.length).setStop p .returned with stage := .done }
  | abortUnconfirmed {p : Stopper} {m : AccumulatedMessage} {todo : List AccumulatedMessage}
      (hpc : s.stops p = .performing) (hst : s.stage = .unconfirmed (m :: todo)) :
      StopMove s (.throw p)
        { (s.handle m ⟨false, p.code⟩).setStop p .threw with stage := .aborted false }
  | abortPending {p : Stopper} {m : AccumulatedMessage} {extracted todo : List AccumulatedMessage}
      (hpc : s.stops p = .performing) (hst : s.stage = .pending extracted (m :: todo)) :
      StopMove s (.throw p)
        { ((s.handle m ⟨false, p.code⟩).release extracted.length).setStop p .threw with
          stage := .aborted true }

theorem stopMove_of_perform {p : Stopper} (hpc : s.stops p = .performing)
    (h : s.perform p = some t) : StopMove s (.perform p) t := by
  cases hst : s.stage with
  | running | done | aborted => simp [State.perform, hst] at h
  | accumulator =>
    simp only [State.perform, hst, Option.some.injEq] at h
    exact h ▸ .accumulator hpc hst
  | semaphore =>
    simp only [State.perform, hst, Option.some.injEq] at h
    exact h ▸ .semaphore hpc hst
  | taking =>
    simp only [State.perform, hst] at h
    split at h
    · rename_i hfree
      cases hc : s.client with
      | some c =>
        simp only [hc, Option.some.injEq] at h
        exact h ▸ .take hpc hst hfree hc
      | none =>
        simp only [hc, Option.some.injEq] at h
        exact h ▸ .takeNone hpc hst hfree hc
    · cases h
  | stopping c =>
    simp only [State.perform, hst] at h
    split at h <;> cases h
    rename_i hjoin
    exact .stopped hpc hst hjoin
  | locking =>
    simp only [State.perform, hst] at h
    split at h <;> cases h
    rename_i hfree
    exact .lock hpc hst hfree
  | unconfirmed todo =>
    cases todo with
    | cons m todo =>
      simp only [State.perform, hst, Option.some.injEq] at h
      exact h ▸ .failUnconfirmed hpc hst
    | nil =>
      simp only [State.perform, hst, Option.some.injEq] at h
      exact h ▸ .clear hpc hst
  | pending extracted todo =>
    cases todo with
    | cons m todo =>
      simp only [State.perform, hst, Option.some.injEq] at h
      exact h ▸ .failPending hpc hst
    | nil =>
      simp only [State.perform, hst, Option.some.injEq] at h
      exact h ▸ .finish hpc hst

theorem stopMove_of_step {a : StopAct} (h : stepStop s a = some t) : StopMove s a t := by
  cases a with
  | call p =>
    cases p with
    | user k =>
      simp only [stepStop] at h
      split at h <;> cases h
      rename_i hidle
      exact .callUser (by simpa using hidle)
    | frame c =>
      simp only [stepStop] at h
      split at h
      · rename_i hframe
        split at h <;> cases h
        rename_i hidle
        exact .callFrame hframe (by simpa using hidle)
      · cases h
    | streamDeletedTask =>
      simp only [stepStop] at h
      split at h <;> cases h
      rename_i hidle
      exact .callTask (by simpa using (not_or.1 hidle).1)
  | destroy p =>
    simp only [stepStop] at h
    split at h <;> cases h
    rename_i hpc
    exact .destroy hpc
  | join p =>
    simp only [stepStop] at h
    split at h
    · rename_i hpc
      split at h
      · rename_i hthrew
        cases h
        exact .joinThrew hpc hthrew
      · split at h <;> cases h
        rename_i hquiet
        exact .join hpc hquiet
    · cases h
  | exchange p =>
    simp only [stepStop] at h
    split at h
    · rename_i hpc
      split at h <;> cases h <;> rename_i hst
      · exact .exchange hpc hst
      · exact .decline hpc hst
    · cases h
  | perform p =>
    simp only [stepStop] at h
    split at h
    · rename_i hpc
      exact stopMove_of_perform hpc h
    · cases h
  | throw p =>
    simp only [stepStop, State.abort] at h
    split at h
    · rename_i hpc
      split at h <;> cases h <;> rename_i hst
      · exact .abortUnconfirmed hpc hst
      · exact .abortPending hpc hst
    · cases h

theorem stepStop_touches {a : StopAct} (h : stepStop s a = some t) :
    ∃ accumulator semaphore unconfirmed client destroyed stops stage handled, t = { s with
      accumulator := accumulator, semaphore := semaphore, unconfirmed := unconfirmed,
      client := client, destroyed := destroyed, stops := stops, stage := stage,
      handled := handled } := by
  cases stopMove_of_step h <;> exact ⟨_, _, _, _, _, _, _, _, rfl⟩

/-- Only the steps of `send` number a call or accept a message. -/
theorem step_send_frame {a : Act} (h : step cfg s a = some t) (ha : ∀ b, a ≠ .send b) :
    t.calls = s.calls ∧ t.accepted = s.accepted := by
  cases a with
  | send b => exact absurd rfl (ha b)
  | batch b =>
    obtain ⟨_, _, _, _, _, _, _, _, rfl⟩ := stepBatch_touches h
    exact ⟨rfl, rfl⟩
  | frame b =>
    obtain ⟨_, _, _, _, rfl⟩ := stepFrame_touches h
    exact ⟨rfl, rfl⟩
  | shutdown b =>
    obtain ⟨_, _, rfl⟩ := stepShutdown_touches h
    exact ⟨rfl, rfl⟩
  | timeout b =>
    obtain ⟨_, _, _, _, rfl⟩ := stepTimeout_touches h
    exact ⟨rfl, rfl⟩
  | reconnect b =>
    obtain ⟨_, _, _, _, _, _, rfl⟩ := stepReconnect_touches h
    exact ⟨rfl, rfl⟩
  | stop b =>
    obtain ⟨_, _, _, _, _, _, _, _, rfl⟩ := stepStop_touches h
    exact ⟨rfl, rfl⟩

/-- Nothing that was accepted is forgotten. -/
theorem accepted_step {a : Act} (h : step cfg s a = some t) : ∀ m ∈ s.accepted, m ∈ t.accepted := by
  intro m hm
  cases a with
  | send a =>
    obtain ⟨k, m', full, -, -, -, rfl⟩ | ⟨_, _, _, _, rfl⟩ := stepSend_inv h
    · exact List.mem_append_left _ hm
    · exact hm
  | _ =>
    rw [(step_send_frame h (by simp)).2]
    exact hm

end

end Hareflow.Producer
