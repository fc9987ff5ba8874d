import Hareflow.Foundations.Machine

/-!
# The life of a client

`ClientImpl` has one atomic status and several parties that move it: `start()`, which shakes hands
with the server and then exchanges `Starting` for `Started`; the frame thread, which on leaving its
loop exchanges `Started` for `Stopping`; the heartbeat handler, which does the same; and any number
of calls of `stop()`, which set `Stopping` whatever the status was. The parties interleave at these
atomic operations and at the answers that the frame thread hands to `start()`.

The frame thread's exchange fails while the status is `Starting`, and `start()` does not look at the
frame thread. If the loop ends after the last answer of the handshake and before the exchange of
`start()`, the client is started without a frame loop and nobody will notice. The result about runs
excludes that one schedule.

The messages of the handshake, the timers of the heartbeat and the frames of the loop have machines of
their own. `Client.Refinement` connects these to the one of this module.
-/

namespace Hareflow.Client.Lifecycle

open Foundations

/-- `ClientImpl::Status`. -/
inductive Status
  | initialized
  | starting
  | started
  | stopping
  deriving DecidableEq, Repr

/-- `ShutdownReason`. -/
inductive ShutdownReason
  | clientInitiated
  | serverInitiated
  | heartbeatTimeout
  | unknown
  deriving DecidableEq, Repr

/-- What `start()` waits for, in this order: four requests, the tune frame that follows the
authentication, and the exchange of command versions if the server supports it. -/
inductive Handshake
  | peerProperties
  | saslHandshake
  | saslAuthenticate
  | tune
  | open
  | exchangeCommandVersions
  deriving DecidableEq, Repr

/-- What comes after an answer; `exchange` is `supports_command_versions_exchange`. -/
def Handshake.next (exchange : Bool) : Handshake → Option Handshake
  | .peerProperties => some .saslHandshake
  | .saslHandshake => some .saslAuthenticate
  | .saslAuthenticate => some .tune
  | .tune => some .open
  | .open => if exchange then some .exchangeCommandVersions else none
  | .exchangeCommandVersions => none

/-- Where the call of `start()` is. -/
inductive StartPc
  | idle
  /-- In `m_connection->connect()`. -/
  | connecting
  /-- Waiting for the answer of a request. -/
  | awaiting (h : Handshake)
  /-- The answer is there. -/
  | answered (h : Handshake)
  /-- Before the exchange of `Starting` for `Started`. -/
  | ready
  /-- In the `catch` block, which calls `stop()`. -/
  | catching
  | returned
  | threw
  deriving DecidableEq, Repr

/-- Where the frame thread is. -/
inductive FramePc
  | absent
  | looping
  /-- Out of the loop, before the exchange of `Started` for `Stopping`. -/
  | left (r : ShutdownReason)
  /-- The exchange succeeded: in `shutdown`. -/
  | closing (r : ShutdownReason)
  | exited
  deriving DecidableEq, Repr

/-- Where a call of `stop()` is. -/
inductive StopPc
  | idle
  /-- After the exchange, with the previous status. -/
  | exchanged (previous : Status)
  /-- Before the join of the frame thread. -/
  | joining
  | returned
  deriving DecidableEq, Repr

/-- Who calls `stop()`: the `catch` block of `start()`, some thread, or a listener on the frame
thread, which does not join itself. -/
inductive Caller
  | starter
  | user (n : ℕ)
  | listener (n : ℕ)
  deriving DecidableEq, Repr

structure State where
  status : Status
  start : StartPc
  frame : FramePc
  /-- The heartbeat handler has moved the status and is in `shutdown`. -/
  heartbeat : Bool
  stops : Caller → StopPc
  /-- The calls of the shutdown listener. -/
  notified : List ShutdownReason

/-- A client as constructed. -/
def initial : State where
  status := .initialized
  start := .idle
  frame := .absent
  heartbeat := false
  stops := fun _ => .idle
  notified := []

/-- The atomic steps of the parties. -/
inductive Act
  /-- Enter `start()`: exchange `Initialized` for `Starting`. -/
  | start
  /-- The connection is up and the frame thread starts. -/
  | connected
  /-- The frame thread hands over the answer that `start()` waits for. -/
  | answer
  /-- `start()` takes the answer and sends the next request. -/
  | proceed
  /-- Connecting failed, or an answer timed out, failed or was an error. -/
  | startFail
  /-- The exchange of `Starting` for `Started`. -/
  | startExchange
  /-- `start()` throws after its `stop()`. -/
  | startThrow
  /-- The frame thread leaves its loop. -/
  | leave (r : ShutdownReason)
  /-- The frame thread's exchange of `Started` for `Stopping`. -/
  | frameExchange
  /-- The frame thread's `shutdown` calls the listener and the thread ends. -/
  | frameShutdown
  /-- The heartbeat handler's exchange of `Started` for `Stopping`. -/
  | heartbeatExchange
  | heartbeatShutdown
  /-- Enter `stop()`: the exchange. -/
  | stop (k : Caller)
  /-- The close request, if the client was started, and `shutdown`. -/
  | stopShutdown (k : Caller)
  | stopJoin (k : Caller)
  deriving DecidableEq, Repr

/-- The reasons for which the loop can be left under a status: once the status is `Stopping` only the
close response or a failed read ends it, before that a close request or a failed read. -/
def canLeave : Status → ShutdownReason → Bool
  | _, .unknown => true
  | .stopping, .clientInitiated => true
  | .stopping, _ => false
  | _, .serverInitiated => true
  | _, _ => false

/-- Whether a call of `stop()` gets past the join. -/
def joined : Caller → FramePc → Bool
  | .listener _, _ => true
  | _, .absent => true
  | _, .exited => true
  | _, _ => false

/-- What `stop()` tells the listener, given the status it replaced. -/
def stopReason : Status → List ShutdownReason
  | .started => [.clientInitiated]
  | _ => []

def step (exchange : Bool) (s : State) : Act → Option State
  | .start =>
    if s.start = .idle then
      if s.status = .initialized then some { s with status := .starting, start := .connecting }
      else some { s with start := .threw }
    else none
  | .connected =>
    if s.start = .connecting then
      some { s with start := .awaiting .peerProperties, frame := .looping }
    else none
  | .answer =>
    match s.start with
    | .awaiting h =>
      if s.frame = .looping ∧ s.status ≠ .stopping then some { s with start := .answered h }
      else none
    | _ => none
  | .proceed =>
    match s.start with
    | .answered h =>
      match h.next exchange with
      | some h' => some { s with start := .awaiting h' }
      | none => some { s with start := .ready }
    | _ => none
  | .startFail =>
    match s.start with
    | .connecting | .awaiting _ | .answered _ => some { s with start := .catching }
    | _ => none
  | .startExchange =>
    if s.start = .ready then
      if s.status = .starting then some { s with status := .started, start := .returned }
      else some { s with start := .catching }
    else none
  | .startThrow =>
    if s.start = .catching ∧ s.stops .starter = .returned then some { s with start := .threw }
    else none
  | .leave r =>
    if s.frame = .looping ∧ canLeave s.status r then some { s with frame := .left r } else none
  | .frameExchange =>
    match s.frame with
    | .left r =>
      if s.status = .started then some { s with status := .stopping, frame := .closing r }
      else some { s with frame := .exited }
    | _ => none
  | .frameShutdown =>
    match s.frame with
    | .closing r => some { s with frame := .exited, notified := s.notified ++ [r] }
    | _ => none
  | .heartbeatExchange =>
    if s.heartbeat = false then
      if s.status = .started then some { s with status := .stopping, heartbeat := true }
      else some s
    else none
  | .heartbeatShutdown =>
    if s.heartbeat then
      some { s with heartbeat := false, notified := s.notified ++ [.heartbeatTimeout] }
    else none
  | .stop k =>
    if s.stops k = .idle ∧ (k = .starter → s.start = .catching) then
      some { s with
        status := .stopping
        stops := Function.update s.stops k (.exchanged s.status) }
    else none
  | .stopShutdown k =>
    match s.stops k with
    | .exchanged .stopping => some { s with stops := Function.update s.stops k .joining }
    | .exchanged p => some { s with
        notified := s.notified ++ stopReason p
        stops := Function.update s.stops k .joining }
    | _ => none
  | .stopJoin k =>
    if s.stops k = .joining ∧ joined k s.frame then
      some { s with stops := Function.update s.stops k .returned }
    else none

/-- The client as a machine. -/
def machine (exchange : Bool) : Machine State Act := ⟨(· = initial), step exchange⟩

/-- What a step can do. -/
inductive Change (exchange : Bool) (s : State) : Act → State → Prop
  | start (hidle : s.start = .idle) (hstatus : s.status = .initialized) :
    Change exchange s .start { s with status := .starting, start := .connecting }
  | startRefused (hidle : s.start = .idle) : Change exchange s .start { s with start := .threw }
  | connected (hstart : s.start = .connecting) :
    Change exchange s .connected { s with start := .awaiting .peerProperties, frame := .looping }
  | answer {h : Handshake} (hframe : s.frame = .looping) :
    Change exchange s .answer { s with start := .answered h }
  | proceed {h : Handshake} : Change exchange s .proceed { s with start := .awaiting h }
  /-- The last answer. -/
  | ready {h : Handshake} (hstart : s.start = .answered h) (hnext : h.next exchange = none) :
    Change exchange s .proceed { s with start := .ready }
  | startFail : Change exchange s .startFail { s with start := .catching }
  | startExchange (hstart : s.start = .ready) (hstatus : s.status = .starting) :
    Change exchange s .startExchange { s with status := .started, start := .returned }
  /-- `stop()` was faster. -/
  | overtaken : Change exchange s .startExchange { s with start := .catching }
  | startThrow : Change exchange s .startThrow { s with start := .threw }
  | leave {r : ShutdownReason} (hframe : s.frame = .looping) :
    Change exchange s (.leave r) { s with frame := .left r }
  | frameExchange {r : ShutdownReason} (hframe : s.frame = .left r) (hstatus : s.status = .started) :
    Change exchange s .frameExchange { s with status := .stopping, frame := .closing r }
  | frameExit {r : ShutdownReason} (hframe : s.frame = .left r) (hstatus : s.status ≠ .started) :
    Change exchange s .frameExchange { s with frame := .exited }
  | frameShutdown {r : ShutdownReason} (hframe : s.frame = .closing r) :
    Change exchange s .frameShutdown { s with frame := .exited, notified := s.notified ++ [r] }
  | heartbeatExchange (hbeat : s.heartbeat = false) (hstatus : s.status = .started) :
    Change exchange s .heartbeatExchange { s with status := .stopping, heartbeat := true }
  | heartbeatLate : Change exchange s .heartbeatExchange s
  | heartbeatShutdown (hbeat : s.heartbeat = true) :
    Change exchange s .heartbeatShutdown
      { s with heartbeat := false, notified := s.notified ++ [.heartbeatTimeout] }
  | stop {k : Caller} (hstop : s.stops k = .idle) :
    Change exchange s (.stop k)
      { s with status := .stopping, stops := Function.update s.stops k (.exchanged s.status) }
  /-- Some other party had stopped the client. -/
  | stopLate {k : Caller} (hstop : s.stops k = .exchanged .stopping) :
    Change exchange s (.stopShutdown k) { s with stops := Function.update s.stops k .joining }
  | stopShutdown {k : Caller} {previous : Status} (hstop : s.stops k = .exchanged previous) :
    Change exchange s (.stopShutdown k) { s with
      notified := s.notified ++ stopReason previous
      stops := Function.update s.stops k .joining }
  | stopJoin {k : Caller} (hstop : s.stops k = .joining) :
    Change exchange s (.stopJoin k) { s with stops := Function.update s.stops k .returned }

theorem change_of_step {exchange : Bool} {s t : State} {a : Act} (h : step exchange s a = some t) :
    Change exchange s a t := by
  cases a <;> simp only [step] at h
  case start =>
    split at h
    · rename_i hidle
      split at h <;> cases h
      · rename_i hstatus
        exact .start hidle hstatus
      · exact .startRefused hidle
    · cases h
  case connected =>
    split at h <;> cases h
    rename_i hstart
    exact .connected hstart
  case answer =>
    split at h
    · split at h <;> cases h
      rename_i hframe
      exact .answer hframe.1
    · cases h
  case proceed =>
    split at h
    · rename_i hs hstart
      split at h <;> cases h
      · exact .proceed
      · rename_i hnext
        exact .ready hstart hnext
    · cases h
  case startFail =>
    split at h <;> cases h
    all_goals exact .startFail
  case startExchange =>
    split at h
    · rename_i hready
      split at h <;> cases h
      · rename_i hstatus
        exact .startExchange hready hstatus
      · exact .overtaken
    · cases h
  case startThrow =>
    split at h <;> cases h
    exact .startThrow
  case leave r =>
    split at h <;> cases h
    rename_i hleave
    exact .leave hleave.1
  case frameExchange =>
    split at h
    · rename_i r hframe
      split at h <;> cases h
      · rename_i hstatus
        exact .frameExchange hframe hstatus
      · rename_i hstatus
        exact .frameExit hframe hstatus
    · cases h
  case frameShutdown =>
    split at h <;> cases h
    rename_i r hframe
    exact .frameShutdown hframe
  case heartbeatExchange =>
    split at h
    · rename_i hbeat
      split at h <;> cases h
      · rename_i hstatus
        exact .heartbeatExchange hbeat hstatus
      · exact .heartbeatLate
    · cases h
  case heartbeatShutdown =>
    split at h <;> cases h
    rename_i hbeat
    exact .heartbeatShutdown hbeat
  case stop k =>
    split at h <;> cases h
    rename_i hstop
    exact .stop hstop.1
  case stopShutdown k =>
    split at h <;> cases h
    · rename_i hstop
      exact .stopLate hstop
    · rename_i hstop
      exact .stopShutdown hstop
  case stopJoin k =>
    split at h <;> cases h
    rename_i hstop
    exact .stopJoin hstop.1

/-! ## A started client has a frame loop -/

/-- The frame thread is in its loop, or has left it and its exchange is still to come. -/
def FramePc.Live : FramePc → Prop
  | .looping | .left _ => True
  | _ => False

/-- A client whose `start()` returned and that is still `Started` has a frame thread that works, or
that will move the status to `Stopping`. -/
def HasFrameLoop (s : State) : Prop :=
  s.start = .returned → s.status = .started → s.frame.Live

/-- `start()` has its last answer and has not made its exchange. -/
def HandshakeDone (exchange : Bool) : StartPc → Prop
  | .answered h => h.next exchange = none
  | .ready => True
  | _ => False

/-- The frame thread does not make its exchange between the last answer of the handshake and the
exchange of `start()`. -/
def NotInWindow (exchange : Bool) (s : State) (a : Act) : Prop :=
  a = .frameExchange → s.status = .starting → ¬HandshakeDone exchange s.start

/-- The invariant of the runs that avoid the window. -/
structure Inv (exchange : Bool) (s : State) : Prop where
  loop : HasFrameLoop s
  shaken : s.status = .starting → HandshakeDone exchange s.start → s.frame.Live

/-- Nothing is claimed once the status is `Stopping`. -/
theorem Inv.of_stopping {exchange : Bool} {t : State} (h : t.status = .stopping) :
    Inv exchange t :=
  ⟨fun _ h' => by simp [h] at h', fun h' => by simp [h] at h'⟩

/-- Nothing is claimed while `start()` is neither past the handshake nor returned. -/
theorem Inv.of_start {exchange : Bool} {t : State} (h : t.start ≠ .returned)
    (h' : ¬HandshakeDone exchange t.start) : Inv exchange t :=
  ⟨fun hr => absurd hr h, fun _ hd => absurd hd h'⟩

theorem inv_initial (exchange : Bool) : Inv exchange initial :=
  .of_start nofun id

theorem inv_step {exchange : Bool} {s t : State} {a : Act} (hs : Inv exchange s)
    (hok : NotInWindow exchange s a) (h : step exchange s a = some t) : Inv exchange t := by
  obtain ⟨hloop, hshaken⟩ := hs
  cases change_of_step h with
  | answer hframe =>
    -- the answer comes from the loop, so there is one
    have hlive : s.frame.Live := by rw [hframe]; trivial
    exact ⟨by simp [HasFrameLoop], fun _ _ => hlive⟩
  | ready hstart hnext =>
    exact ⟨by simp [HasFrameLoop], fun h' _ => hshaken h' (by rw [hstart]; exact hnext)⟩
  | startExchange hready hstatus =>
    exact ⟨fun _ _ => hshaken hstatus (by rw [hready]; trivial), by simp⟩
  | leave => exact ⟨fun _ _ => trivial, fun _ _ => trivial⟩
  | frameExit _ hstatus =>
    exact ⟨fun _ h' => absurd h' hstatus, fun h' hdone => absurd hdone (hok rfl h')⟩
  | frameShutdown hframe =>
    -- a frame thread in `shutdown` has no live loop before the step either
    have hdead : ¬s.frame.Live := by rw [hframe]; exact id
    exact ⟨fun h₁ h₂ => absurd (hloop h₁ h₂) hdead, fun h₁ h₂ => absurd (hshaken h₁ h₂) hdead⟩
  | start => exact .of_start (by simp) id
  | startRefused => exact .of_start (by simp) id
  | connected => exact .of_start (by simp) id
  | proceed => exact .of_start (by simp) id
  | startFail => exact .of_start (by simp) id
  | overtaken => exact .of_start (by simp) id
  | startThrow => exact .of_start (by simp) id
  | frameExchange => exact .of_stopping rfl
  | heartbeatExchange => exact .of_stopping rfl
  | stop => exact .of_stopping rfl
  | _ => exact ⟨hloop, hshaken⟩

/-- **A started client has a live frame loop** at the end of every run in which the frame thread
never makes its exchange between the last answer of the handshake and the exchange of `start()`. -/
theorem live_of_run (exchange : Bool) {s t : State} {as : List Act}
    (h0 : (machine exchange).Init s) (hok : (machine exchange).Along (NotInWindow exchange) s as)
    (h : (machine exchange).run s as = some t) : HasFrameLoop t := by
  have hinit : ∀ {s}, (machine exchange).Init s → Inv exchange s := by
    rintro s rfl
    exact inv_initial exchange
  exact (Machine.invariant_along hinit inv_step h0 hok h).loop

/-- A handshake that succeeds, up to the exchange of `start()`. -/
def handshake : List Act :=
  [.start, .connected, .answer, .proceed, .answer, .proceed, .answer, .proceed, .answer, .proceed,
    .answer, .proceed]

/-- The theorem at a run that starts the client and then loses the connection. -/
theorem live_of_run_handshake :
    ∃ t, (machine false).run initial (handshake ++ [Act.startExchange, .leave .unknown]) = some t ∧
      HasFrameLoop t := by
  have hok : (machine false).Along (NotInWindow false) initial
      (handshake ++ [Act.startExchange, .leave .unknown]) :=
    Machine.along_of_forall_mem fun _ ha _ h => absurd (h ▸ ha) (by decide)
  exact ⟨_, rfl, live_of_run false rfl hok rfl⟩

/-- **The lost shutdown**: the connection fails after the last answer and the frame thread is gone
when `start()` reports the client as started. -/
theorem started_without_frame_loop :
    ¬∀ (exchange : Bool) (t : State), (machine exchange).Reachable t → HasFrameLoop t := by
  intro h
  refine h false _ ⟨initial, handshake ++ [Act.leave .unknown, .frameExchange, .startExchange], rfl, rfl⟩
    rfl rfl

end Hareflow.Client.Lifecycle
