import Hareflow.Foundations.Effect
import Hareflow.Wire.ServerCommands
import Hareflow.Client.Framing
import Hareflow.Client.Lifecycle
import Hareflow.Client.Requests

/-!
# The frame handlers

What the frame thread does with a frame: `handle_frames` reads its key and version, looks the
handler up in `FRAME_HANDLERS` and invokes it. A handler may change the client, send frames, call
listeners and throw; an exception leaves behind what was done before it.

The parameters of a client say which listeners are set, and are its codec. A listener returns, except
that the chunk listener may grant credit through the client that it is given, and then throws what
`credit` throws. The state keeps the frames handed to the connection and the calls of the listeners.

Three handlers touch more than these two records: that of a response completes a promise of the
outstanding requests, that of a tune frame sets the limits and the promise that `start()` waits for,
and that of a deliver frame may send credit. `Quiet` is what the others may do.
-/

namespace Hareflow.Client.Frames

open Foundations Wire
open Connection (IOException)
open Lifecycle (Status ShutdownReason)
open Requests (ResponseType)

/-- The exceptions that are thrown while a frame is processed. -/
inductive FrameException
  /-- `ServerCloseException`. -/
  | serverClose (what : String)
  | io (e : IOException)
  | stream (e : StreamException)
  /-- `std::future_error`: a promise is set a second time. -/
  | futureError
  deriving DecidableEq, Repr

structure ChunkContext where
  timestamp : Int64
  offset : UInt64
  messageCount : UInt32
  committedChunkId : Option UInt64
  deriving DecidableEq, Repr

/-- The calls of the listeners, with the messages of the codec. -/
inductive ListenerCall (μ : Type)
  | chunk (subscriptionId : UInt8) (context : ChunkContext)
  | message (subscriptionId : UInt8) (context : ChunkContext) (offset : UInt64) (message : μ)
  | publishConfirm (publisherId : UInt8) (publishingId : UInt64)
  | publishError (publisherId : UInt8) (publishingId : UInt64) (code : ResponseCode)
  | metadata (stream : Bytes) (code : ResponseCode)
  | creditError (subscriptionId : UInt8) (code : ResponseCode)
  deriving DecidableEq, Repr

/-- The credit that a chunk listener grants: the arguments of its calls of `credit`. -/
abbrev ChunkListener := UInt8 → ChunkContext → List (UInt8 × UInt16)

structure Parameters (μ : Type) where
  /-- `m_chunk_listener`, if there is one. -/
  chunkListener : Option ChunkListener := none
  messageListener : Bool := false
  publishConfirmListener : Bool := false
  publishErrorListener : Bool := false
  metadataListener : Bool := false
  creditErrorListener : Bool := false
  /-- `m_codec->decode`. -/
  decode : Bytes → Except StreamException μ

/-- Where the frame thread is. -/
inductive Loop
  | running
  /-- The loop has ended. -/
  | left (reason : ShutdownReason)
  /-- An exception has left `handle_frames`, and the process is terminated. -/
  | escaped
  deriving DecidableEq, Repr

/-- What the frame thread and the handlers use of a client. -/
structure State (μ : Type) where
  status : Status := .starting
  /-- `m_max_frame_size`. -/
  maxFrameSize : UInt32
  /-- `m_heartbeat`, in seconds. -/
  heartbeat : UInt32
  /-- `m_tune_promise` has its value. -/
  tuned : Bool := false
  requests : Requests.State := {}
  /-- The heartbeat that the idle handlers of the connection were set with. -/
  idleHandlers : Option UInt32 := none
  /-- The frames handed to the connection. -/
  sent : List ClientFrame := []
  /-- The calls of the listeners. -/
  calls : List (ListenerCall μ) := []
  loop : Loop := .running

/-- Code of the frame thread. -/
abbrev Action (μ α : Type) := EStateM FrameException (State μ) α

variable {μ α : Type}

/-- `command.deserialize(buffer)`. -/
def deserialize (read : Reader α) (buffer : BinaryBuffer) : Action μ α := fun s =>
  match read buffer with
  | .error e => .error (.stream e) s
  | .ok (v, _) => .ok v s

/-- `send_frame(frame)`; nobody waits for the write. -/
def send (frame : ClientFrame) : Action μ Unit := fun s =>
  match sendFrame s.maxFrameSize frame.toSerializable with
  | .error e => .error (.stream e) s
  | .ok _ => .ok () { s with sent := s.sent ++ [frame] }

def call (c : ListenerCall μ) : Action μ Unit := modify fun s => { s with calls := s.calls ++ [c] }

/-! ## The handlers -/

/-- `read_body` of a class of responses. -/
def readBody : ResponseType → Reader ResponseBody
  | .generic => ResponseBody.readGeneric
  | .queryPublisherSequence => ResponseBody.readQueryPublisherSequence
  | .queryOffset => ResponseBody.readQueryOffset
  | .metadata => ResponseBody.readMetadata
  | .peerProperties => ResponseBody.readPeerProperties
  | .saslHandshake => ResponseBody.readSaslHandshake
  | .saslAuthenticate => ResponseBody.readSaslAuthenticate
  | .open => ResponseBody.readOpen
  | .exchangeCommandVersions => ResponseBody.readExchangeCommandVersions

/-- `deserialize` of a response: the correlation id of the header, and the body. -/
def deserializeResponse (type : ResponseType) : Reader (UInt32 × ResponseBody) := do
  let correlationId ← BinaryBuffer.readUint
  let body ← readBody type
  return (correlationId, body)

/-- `handle_response<ResponseType>`. -/
def handleResponse (type : ResponseType) (buffer : BinaryBuffer) : Action μ Unit := do
  let (correlationId, _) ← deserialize (deserializeResponse type) buffer
  modify fun s =>
    { s with requests := s.requests.completeOutstandingRequest ⟨correlationId, type⟩ }

def handleClose (buffer : BinaryBuffer) : Action μ Unit := do
  let request ← deserialize ServerCloseRequest.deserialize buffer
  send (.clientCloseResponse request.correlationId ResponseCode.ok.value)
  throw (.serverClose "Server requested close")

/-- The chunk listener, if it is set. -/
def callChunkListener (p : Parameters μ) (subscriptionId : UInt8) (context : ChunkContext) :
    Action μ Unit :=
  match p.chunkListener with
  | none => pure ()
  | some listener => do
    call (.chunk subscriptionId context)
    (listener subscriptionId context).forM fun c => send (.creditCommand c.1 c.2)

/-- `m_codec->decode`. -/
def decode (p : Parameters μ) (encodedMessage : Bytes) : Action μ μ := fun s =>
  match p.decode encodedMessage with
  | .error e => .error (.stream e) s
  | .ok message => .ok message s

/-- The loop over the messages of a chunk. -/
def deliverMessages (p : Parameters μ) (subscriptionId : UInt8) (context : ChunkContext) :
    UInt64 → List Bytes → Action μ Unit
  | _, [] => pure ()
  | messageOffset, encodedMessage :: rest => do
    let message ← decode p encodedMessage
    call (.message subscriptionId context messageOffset message)
    deliverMessages p subscriptionId context (messageOffset + 1) rest

/-- The context of a chunk that is handed to the listeners. -/
def chunkContext (command : DeliverCommand) : ChunkContext where
  timestamp := command.chunk.timestamp
  offset := command.chunk.offset
  messageCount := command.chunk.nbEntries.toUInt32
  committedChunkId := command.committedChunkId

def handleDeliver (p : Parameters μ) (version : UInt16) (buffer : BinaryBuffer) : Action μ Unit :=
  if p.chunkListener.isNone && !p.messageListener then pure ()
  else do
    let command ← deserialize (DeliverCommand.readBody version) buffer
    callChunkListener p command.subscriptionId (chunkContext command)
    if !p.messageListener then pure ()
    else
      deliverMessages p command.subscriptionId (chunkContext command) command.chunk.offset
        command.messages

/-- The handlers that report to a listener: they return at once if it is not set, else they
deserialize the command and call the listener for each of its parts. -/
def report (listener : Bool) (read : Reader α) (buffer : BinaryBuffer)
    (calls : α → List (ListenerCall μ)) : Action μ Unit :=
  if !listener then pure ()
  else do
    let command ← deserialize read buffer
    (calls command).forM call

def handlePublishConfirm (p : Parameters μ) (buffer : BinaryBuffer) : Action μ Unit :=
  report p.publishConfirmListener PublishConfirmCommand.readBody buffer fun command =>
    command.sequences.map fun publishingId => .publishConfirm command.publisherId publishingId

def handlePublishError (p : Parameters μ) (buffer : BinaryBuffer) : Action μ Unit :=
  report p.publishErrorListener PublishErrorCommand.readBody buffer fun command =>
    command.publishingErrors.map fun publishError =>
      .publishError command.publisherId publishError.sequence ⟨publishError.code⟩

def handleCredit (p : Parameters μ) (buffer : BinaryBuffer) : Action μ Unit :=
  report p.creditErrorListener CreditErrorCommand.readBody buffer fun command =>
    [.creditError command.subscriptionId command.responseCode]

/-- `negociate_value`. -/
def negociateValue (client server : UInt32) : UInt32 :=
  if client = 0 ∨ server = 0 then max client server else min client server

/-- `m_tune_promise.set_value()`. -/
def setTunePromise : Action μ Unit := fun s =>
  if s.tuned then .error .futureError s else .ok () { s with tuned := true }

/-- The limits as `handle_tune` sets them. -/
def State.negociate (s : State μ) (command : ServerTuneCommand) : State μ :=
  { s with
    heartbeat := negociateValue s.heartbeat command.heartbeat
    maxFrameSize := negociateValue s.maxFrameSize command.frameSize }

/-- The idle handlers are set unless the heartbeat is zero. -/
def State.setIdleHandlers (s : State μ) : State μ :=
  if s.heartbeat ≠ 0 then { s with idleHandlers := some s.heartbeat } else s

def handleTune (buffer : BinaryBuffer) : Action μ Unit := do
  let command ← deserialize ServerTuneCommand.readBody buffer
  modify fun s => s.negociate command
  let s ← get
  send (.clientTuneCommand s.maxFrameSize s.heartbeat)
  modify State.setIdleHandlers
  setTunePromise

def handleMetadataUpdate (p : Parameters μ) (buffer : BinaryBuffer) : Action μ Unit := do
  let command ← deserialize MetadataUpdateCommand.readBody buffer
  if command.responseCode ≠ .streamNotAvailable then
    throw (.stream (.responseError command.responseCode))
  else if p.metadataListener then call (.metadata command.streamName command.responseCode)
  else pure ()

/-- Nothing to do. -/
def handleHeartbeat : Action μ Unit := pure ()

/-! ## The table -/

/-- The handlers of `FRAME_HANDLERS`. -/
inductive Handler
  | response (type : ResponseType)
  | close
  | publishConfirm
  | deliver (version : UInt16)
  | publishError
  | metadataUpdate
  | tune
  | credit
  | heartbeat
  deriving DecidableEq, Repr

/-- `FRAME_HANDLERS`. -/
def frameHandlers : List ((CommandKey × UInt16) × Handler) :=
  [((.subscribe, 1), .response .generic),
    ((.unsubscribe, 1), .response .generic),
    ((.declarePublisher, 1), .response .generic),
    ((.deletePublisher, 1), .response .generic),
    ((.create, 1), .response .generic),
    ((.delete, 1), .response .generic),
    ((.open, 1), .response .open),
    ((.metadata, 1), .response .metadata),
    ((.saslHandshake, 1), .response .saslHandshake),
    ((.saslAuthenticate, 1), .response .saslAuthenticate),
    ((.peerProperties, 1), .response .peerProperties),
    ((.queryOffset, 1), .response .queryOffset),
    ((.queryPublisherSequence, 1), .response .queryPublisherSequence),
    ((.exchangeCommandVersions, 1), .response .exchangeCommandVersions),
    ((.close, 1), .close),
    ((.publishConfirm, 1), .publishConfirm),
    ((.deliver, 1), .deliver 1),
    ((.deliver, 2), .deliver 2),
    ((.publishError, 1), .publishError),
    ((.metadataUpdate, 1), .metadataUpdate),
    ((.tune, 1), .tune),
    ((.credit, 1), .credit),
    ((.heartbeat, 1), .heartbeat)]

/-- `FRAME_HANDLERS.find({key, version})`. -/
def findHandler (key version : UInt16) : Option Handler :=
  (frameHandlers.find? fun e => e.1.1.toUInt16 == key && e.1.2 == version).map Prod.snd

def Handler.invoke (p : Parameters μ) (buffer : BinaryBuffer) : Handler → Action μ Unit
  | response type => handleResponse type buffer
  | close => handleClose buffer
  | publishConfirm => handlePublishConfirm p buffer
  | deliver version => handleDeliver p version buffer
  | publishError => handlePublishError p buffer
  | metadataUpdate => handleMetadataUpdate p buffer
  | tune => handleTune buffer
  | credit => handleCredit p buffer
  | heartbeat => handleHeartbeat

/-! ## What the handlers do -/

/-- The credit commands among the frames that were sent. -/
def State.credits (s : State μ) : List (UInt8 × UInt16) :=
  s.sent.filterMap fun
    | .creditCommand subscriptionId credit => some (subscriptionId, credit)
    | _ => none

/-- What the handlers leave alone, except those of a response and of a tune frame. -/
structure Steady (s t : State μ) : Prop where
  status : t.status = s.status
  maxFrameSize : t.maxFrameSize = s.maxFrameSize
  tuned : t.tuned = s.tuned
  requests : t.requests = s.requests
  loop : t.loop = s.loop

/-- No credit command is sent. -/
def SameCredits (s t : State μ) : Prop := t.credits = s.credits

/-- Frames other than credit commands were sent and listeners were called, and nothing else. -/
def Quiet (s t : State μ) : Prop := Steady s t ∧ SameCredits s t

/-- The state that code ends in, whether it throws or not. -/
def finalState : EStateM.Result FrameException (State μ) α → State μ
  | .ok _ s => s
  | .error _ s => s

theorem finalState_of_effect {R : State μ → State μ → Prop} {E : FrameException → Prop}
    {m : Action μ α} (h : Effect R E m) (s : State μ) : R s (finalState (m s)) := by
  have hs := h s
  split at hs
  · rename_i heq
    rw [heq]
    exact hs
  · rename_i heq
    rw [heq]
    exact hs.1

theorem finalState_then (m : Action μ Unit) (a : α) (s : State μ) :
    finalState ((do m; return a : Action μ α) s) = finalState (m s) := by
  show finalState (EStateM.bind _ _ s) = _
  rw [EStateM.bind]
  cases m s <;> rfl

/-- What `handle_frames` catches. -/
def Caught (e : FrameException) : Prop := e ≠ .futureError

instance : IsPreorder (State μ) Steady where
  refl _ := ⟨rfl, rfl, rfl, rfl, rfl⟩
  trans _ _ _ h h' := ⟨h'.status.trans h.status, h'.maxFrameSize.trans h.maxFrameSize,
    h'.tuned.trans h.tuned, h'.requests.trans h.requests, h'.loop.trans h.loop⟩

instance : IsPreorder (State μ) SameCredits where
  refl _ := rfl
  trans _ _ _ h h' := Eq.trans h' h

instance : IsPreorder (State μ) Quiet where
  refl s := ⟨refl_of Steady s, refl_of SameCredits s⟩
  trans _ _ _ h h' := ⟨trans_of Steady h.1 h'.1, trans_of SameCredits h.2 h'.2⟩

variable {R : State μ → State μ → Prop}

/-- Deserializing changes nothing. -/
theorem deserialize_effect [IsPreorder (State μ) R] (read : Reader α) (buffer : BinaryBuffer) :
    Effect R Caught (deserialize read buffer) := by
  intro s
  rw [deserialize]
  cases read buffer with
  | error e => exact ⟨refl_of R s, by simp [Caught]⟩
  | ok v => exact refl_of R s

/-- Sending a frame appends it, if the frame is not refused. -/
theorem send_effect [IsPreorder (State μ) R] {frame : ClientFrame}
    (h : ∀ s, R s { s with sent := s.sent ++ [frame] }) : Effect R Caught (send frame) := by
  intro s
  rw [send]
  cases sendFrame s.maxFrameSize frame.toSerializable with
  | error e => exact ⟨refl_of R s, by simp [Caught]⟩
  | ok buffer => exact h s

theorem quiet_call (c : ListenerCall μ) : Effect Quiet Caught (call c) :=
  Effect.of_modify fun _ => ⟨⟨rfl, rfl, rfl, rfl, rfl⟩, rfl⟩

theorem quiet_handleClose (buffer : BinaryBuffer) :
    Effect Quiet Caught (handleClose buffer : Action μ Unit) := by
  refine (deserialize_effect _ buffer).bind fun request => ?_
  have hsend : Effect Quiet Caught (send (μ := μ)
      (.clientCloseResponse request.correlationId ResponseCode.ok.value)) :=
    send_effect fun s => ⟨⟨rfl, rfl, rfl, rfl, rfl⟩, by simp [SameCredits, State.credits]⟩
  exact hsend.bind fun _ => Effect.throw (by simp [Caught])

theorem quiet_report (listener : Bool) (read : Reader α) (buffer : BinaryBuffer)
    (calls : α → List (ListenerCall μ)) : Effect Quiet Caught (report listener read buffer calls) := by
  rw [report]
  split
  · exact Effect.pure ()
  · exact (deserialize_effect _ buffer).bind fun command => Effect.forM fun c _ => quiet_call c

theorem quiet_handleMetadataUpdate (p : Parameters μ) (buffer : BinaryBuffer) :
    Effect Quiet Caught (handleMetadataUpdate p buffer) := by
  refine (deserialize_effect _ buffer).bind fun command => ?_
  split
  · exact Effect.throw (by simp [Caught])
  · split
    · exact quiet_call _
    · exact Effect.pure ()

/-! ### Deliver, responses and tune frames -/

theorem quiet_deliverMessages (p : Parameters μ) (subscriptionId : UInt8) (context : ChunkContext)
    (offset : UInt64) (messages : List Bytes) :
    Effect Quiet Caught (deliverMessages p subscriptionId context offset messages) := by
  induction messages generalizing offset with
  | nil => exact Effect.pure ()
  | cons m messages ih =>
    refine Effect.bind ?_ fun message => (quiet_call _).bind fun _ => ih _
    intro s
    rw [decode]
    cases p.decode m with
    | error e => exact ⟨refl_of Quiet s, by simp [Caught]⟩
    | ok message => exact refl_of Quiet s

theorem steady_handleDeliver (p : Parameters μ) (version : UInt16) (buffer : BinaryBuffer) :
    Effect Steady Caught (handleDeliver p version buffer) := by
  rw [handleDeliver]
  split
  · exact Effect.pure ()
  · refine (deserialize_effect _ buffer).bind fun command => Effect.bind ?_ fun _ => ?_
    · rw [callChunkListener]
      split
      · exact Effect.pure ()
      · have hcall := fun c : ListenerCall μ => (quiet_call c).mono And.left id
        refine (hcall _).bind fun _ => Effect.forM fun c _ => ?_
        exact send_effect fun s => ⟨rfl, rfl, rfl, rfl, rfl⟩
    · split
      · exact Effect.pure ()
      · exact (quiet_deliverMessages p _ _ _ _).mono And.left id

/-- A response completes a promise of the outstanding requests, or is refused. -/
theorem handleResponse_eq (type : ResponseType) (buffer : BinaryBuffer) (s : State μ) :
    handleResponse type buffer s =
      match deserializeResponse type buffer with
      | .error e => .error (.stream e) s
      | .ok ((correlationId, _), _) =>
        .ok () { s with
          requests := s.requests.completeOutstandingRequest ⟨correlationId, type⟩ } := by
  show EStateM.bind _ _ s = _
  rw [EStateM.bind, deserialize]
  cases deserializeResponse type buffer <;> rfl

/-- The state after the answer to a tune frame. -/
def State.answerTune (s : State μ) (command : ServerTuneCommand) : State μ :=
  let s := s.negociate command
  State.setIdleHandlers
    { s with sent := s.sent ++ [.clientTuneCommand s.maxFrameSize s.heartbeat] }

/-- A tune frame is answered, unless the answer is too long for the new maximum frame size, and then
the promise is set. -/
theorem handleTune_eq (buffer : BinaryBuffer) (s : State μ) :
    handleTune buffer s =
      match ServerTuneCommand.readBody buffer with
      | .error e => .error (.stream e) s
      | .ok (command, _) =>
        match sendFrame (s.negociate command).maxFrameSize (ClientFrame.clientTuneCommand
          (s.negociate command).maxFrameSize (s.negociate command).heartbeat).toSerializable with
        | .error e => .error (.stream e) (s.negociate command)
        | .ok _ => setTunePromise (s.answerTune command) := by
  show EStateM.bind _ _ s = _
  rw [EStateM.bind, deserialize]
  cases ServerTuneCommand.readBody buffer with
  | error e => rfl
  | ok command =>
    show EStateM.bind _ _ (s.negociate command.1) = _
    rw [EStateM.bind, send]
    dsimp only
    cases sendFrame (s.negociate command.1).maxFrameSize (ClientFrame.clientTuneCommand
      (s.negociate command.1).maxFrameSize (s.negociate command.1).heartbeat).toSerializable <;> rfl

/-! ### The handlers of the table -/

/-- A handler that is neither that of a response nor that of a tune frame. -/
theorem Handler.steady (handler : Handler) (p : Parameters μ) (buffer : BinaryBuffer)
    (hresponse : ∀ type, handler ≠ .response type) (htune : handler ≠ .tune) :
    Effect Steady Caught (handler.invoke p buffer) := by
  cases handler with
  | response type => exact absurd rfl (hresponse type)
  | close => exact (quiet_handleClose buffer).mono And.left id
  | publishConfirm => exact (quiet_report _ _ buffer _).mono And.left id
  | deliver version => exact steady_handleDeliver p version buffer
  | publishError => exact (quiet_report _ _ buffer _).mono And.left id
  | metadataUpdate => exact (quiet_handleMetadataUpdate p buffer).mono And.left id
  | tune => exact absurd rfl htune
  | credit => exact (quiet_report _ _ buffer _).mono And.left id
  | heartbeat => exact Effect.pure ()

/-- A response changes the outstanding requests only. -/
theorem handleResponse_effect [IsPreorder (State μ) R]
    (h : ∀ (s : State μ) (requests : Requests.State), R s { s with requests := requests })
    (type : ResponseType) (buffer : BinaryBuffer) :
    Effect R (fun _ => True) (handleResponse type buffer) := by
  intro s
  rw [handleResponse_eq]
  cases deserializeResponse type buffer with
  | error e => exact ⟨refl_of R s, trivial⟩
  | ok response => exact h s _

/-- A tune frame changes the limits, is answered and sets the promise. -/
theorem handleTune_effect [IsPreorder (State μ) R]
    (hnegociate : ∀ (s : State μ) (command : ServerTuneCommand), R s (s.negociate command))
    (hanswer : ∀ (s : State μ) (command : ServerTuneCommand), R s (s.answerTune command))
    (htuned : ∀ s : State μ, R s { s with tuned := true }) (buffer : BinaryBuffer) :
    Effect R (fun _ => True) (handleTune buffer) := by
  intro s
  rw [handleTune_eq]
  cases ServerTuneCommand.readBody buffer with
  | error e => exact ⟨refl_of R s, trivial⟩
  | ok command =>
    dsimp only
    cases sendFrame (s.negociate command.1).maxFrameSize (ClientFrame.clientTuneCommand
      (s.negociate command.1).maxFrameSize (s.negociate command.1).heartbeat).toSerializable with
    | error e => exact ⟨hnegociate s command.1, trivial⟩
    | ok b =>
      dsimp only
      rw [setTunePromise]
      by_cases hset : (s.answerTune command.1).tuned = true
      · rw [if_pos hset]
        exact ⟨hanswer s command.1, trivial⟩
      · rw [if_neg hset]
        exact trans_of R (hanswer s command.1) (htuned _)

/-- A tune frame is answered without credit. -/
theorem sameCredits_handleTune (buffer : BinaryBuffer) :
    Effect SameCredits (fun _ => True) (handleTune buffer : Action μ Unit) := by
  refine handleTune_effect (R := SameCredits) (fun _ _ => rfl) (fun s command => ?_) (fun _ => rfl)
    buffer
  simp only [State.answerTune, State.setIdleHandlers]
  split <;> simp [SameCredits, State.credits, State.negociate]

/-- Only the handler of a deliver frame may send credit. -/
theorem Handler.sameCredits (handler : Handler) (p : Parameters μ) (buffer : BinaryBuffer)
    (hdeliver : ∀ version, handler ≠ .deliver version) :
    Effect SameCredits (fun _ => True) (handler.invoke p buffer) := by
  cases handler with
  | response type => exact handleResponse_effect (R := SameCredits) (fun _ _ => rfl) type buffer
  | close => exact (quiet_handleClose buffer).mono And.right fun _ => trivial
  | publishConfirm => exact (quiet_report _ _ buffer _).mono And.right fun _ => trivial
  | deliver version => exact absurd rfl (hdeliver version)
  | publishError => exact (quiet_report _ _ buffer _).mono And.right fun _ => trivial
  | metadataUpdate =>
    exact (quiet_handleMetadataUpdate p buffer).mono And.right fun _ => trivial
  | tune => exact sameCredits_handleTune buffer
  | credit => exact (quiet_report _ _ buffer _).mono And.right fun _ => trivial
  | heartbeat => exact Effect.pure ()

end Hareflow.Client.Frames
