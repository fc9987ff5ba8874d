import Hareflow.Client.FrameThread
import Hareflow.Wire.ServerFrame

/-!
# From the broker to the listeners

The broker writes frames; of their bytes a first part arrives, in pieces, and then the stream may fail.
The read chain of the connection cuts the bytes at the length prefixes and hands buffers to the
promises of `read()`; the frame thread waits for one promise after the other, parses the buffer and
invokes the handler of the frame. The handlers of the strand, the frame thread and the other threads of
the client are interleaved.

There are two machines. In `Feed` the client has the queue of the frames that arrive completely: it
takes them one by one, each as a whole (`handle`), and a read fails only when the queue is empty. The
machine `Inbound` has the bytes. The second refines the first: whatever the cut and the interleaving,
the client does what it would do if it were handed the frames themselves.
-/

namespace Hareflow.Client.Frames

open Foundations Wire
open Connection (IOException)
open Lifecycle (Status)
open Requests (ResponseType)

variable {μ : Type}

/-! ## What a frame does to the client -/

/-- The calls of a listener, if it is set. -/
def State.listen (s : State μ) (listener : Bool) (calls : List (ListenerCall μ)) : State μ :=
  if listener then { s with calls := s.calls ++ calls } else s

/-- A response completes the request with its correlation id. -/
def State.respond (s : State μ) (correlationId : UInt32) (type : ResponseType) : State μ :=
  { s with requests := s.requests.completeOutstandingRequest ⟨correlationId, type⟩ }

/-- The class of a body. -/
def responseType : ResponseBody → ResponseType
  | .generic _ => .generic
  | .queryPublisherSequence .. => .queryPublisherSequence
  | .queryOffset .. => .queryOffset
  | .metadata .. => .metadata
  | .peerProperties .. => .peerProperties
  | .saslHandshake .. => .saslHandshake
  | .saslAuthenticate .. => .saslAuthenticate
  | .open .. => .open
  | .exchangeCommandVersions .. => .exchangeCommandVersions

/-- The end of a `try` block that leaves the loop only by an exception. -/
def endTry : EStateM.Result FrameException (State μ) Unit → State μ
  | .ok _ s => s
  | .error e s => catchFrame (.error e s)

/-- A chunk goes to its listener and its messages to theirs; an exception is logged. -/
def State.deliver (s : State μ) (p : Parameters μ) (command : DeliverCommand) : State μ :=
  if p.chunkListener.isNone && !p.messageListener then s
  else endTry ((do
    callChunkListener p command.subscriptionId (chunkContext command)
    if !p.messageListener then pure ()
    else
      deliverMessages p command.subscriptionId (chunkContext command) command.chunk.offset
        command.messages : Action μ Unit) s)

/-- The limits are negotiated; if the answer is within them it is sent and the promise is set. -/
def State.tune (s : State μ) (command : ServerTuneCommand) : State μ :=
  if FrameFits (s.negociate command).maxFrameSize 12 then
    if s.tuned then { s.answerTune command with loop := .escaped }
    else { s.answerTune command with tuned := true }
  else s.negociate command

/-- The request is answered and the loop ends; if the answer is too long, the request is ignored. -/
def State.close (s : State μ) (request : ServerCloseRequest) : State μ :=
  if FrameFits s.maxFrameSize 10 then
    { s with
      sent := s.sent ++ [.clientCloseResponse request.correlationId ResponseCode.ok.value]
      loop := .left .serverInitiated }
  else s

/-- What a frame does to a client that is not stopping. -/
def State.take (s : State μ) (p : Parameters μ) : ServerFrame → State μ
  | .publishConfirm command =>
    s.listen p.publishConfirmListener (command.sequences.map fun publishingId =>
      .publishConfirm command.publisherId publishingId)
  | .publishError command =>
    s.listen p.publishErrorListener (command.publishingErrors.map fun publishError =>
      .publishError command.publisherId publishError.sequence ⟨publishError.code⟩)
  | .deliver _ command => s.deliver p command
  | .creditError command =>
    s.listen p.creditErrorListener [.creditError command.subscriptionId command.responseCode]
  | .metadataUpdate command =>
    s.listen (p.metadataListener && command.responseCode = .streamNotAvailable)
      [.metadata command.streamName command.responseCode]
  | .tune command => s.tune command
  | .close request => s.close request
  | .heartbeat => s
  | .response key correlationId body =>
    -- a close response is taken for a close request, for which its body is too short
    if key = .close then s else s.respond correlationId (responseType body)

/-- A client that is stopping skips every frame but the response to its close request. -/
def State.skip (s : State μ) : ServerFrame → State μ
  | .response key correlationId _ =>
    if key = .close then
      { s.respond correlationId .generic with loop := .left .clientInitiated }
    else s
  | _ => s

/-- What a frame does to a client with these parameters. -/
def handle (p : Parameters μ) (s : State μ) (f : ServerFrame) : State μ :=
  if s.status = .stopping then s.skip f else s.take p f

/-! ## The handlers on the bytes of a frame -/

theorem deserialize_at {α : Type} {read : Reader α} {out : Bytes} {v : α} (h : Reads read out v)
    {b : BinaryBuffer} (hb : b.At out) (s : State μ) : deserialize read b s = .ok v s := by
  obtain ⟨b', hb'⟩ := h.read_all hb
  rw [deserialize, hb']

theorem forM_call (calls : List (ListenerCall μ)) (s : State μ) :
    calls.forM call s = .ok () { s with calls := s.calls ++ calls } := by
  induction calls generalizing s with
  | nil => simp [List.forM, pure, EStateM.pure]
  | cons c calls ih =>
    show EStateM.bind (call c) (fun _ => calls.forM call) s = _
    rw [EStateM.bind]
    show calls.forM call { s with calls := s.calls ++ [c] } = _
    rw [ih]
    simp

theorem report_at {α : Type} {read : Reader α} {out : Bytes} {v : α} (h : Reads read out v)
    {b : BinaryBuffer} (hb : b.At out) (listener : Bool) (calls : α → List (ListenerCall μ))
    (s : State μ) : report listener read b calls s = .ok () (s.listen listener (calls v)) := by
  rw [report, State.listen]
  cases listener with
  | false => rfl
  | true =>
    show EStateM.bind _ _ s = _
    rw [EStateM.bind, deserialize_at h hb]
    exact forM_call _ s

theorem catchFrame_then (m : Action μ Unit) (s : State μ) :
    catchFrame ((do m; return none : Action μ _) s) = endTry (m s) := by
  show catchFrame (EStateM.bind _ _ s) = _
  rw [EStateM.bind]
  cases m s <;> rfl

theorem handleDeliver_at (p : Parameters μ) {version : UInt16} {c : DeliverCommand}
    (hc : c.WellFormed version) {b : BinaryBuffer} (hb : b.At c.encodeBody) (s : State μ) :
    endTry (handleDeliver p version b s) = s.deliver p c := by
  rw [handleDeliver, State.deliver]
  split
  · rfl
  · show endTry (EStateM.bind _ _ s) = _
    rw [EStateM.bind, deserialize_at (DeliverCommand.readBody_reads hc) hb]

theorem handleMetadataUpdate_at (p : Parameters μ) {c : MetadataUpdateCommand}
    (hname : c.streamName.length ≤ int16Max) (hwell : c.WellFormed) {b : BinaryBuffer}
    (hb : b.At c.encodeBody) (s : State μ) :
    endTry (handleMetadataUpdate p b s) =
      s.listen (p.metadataListener && c.responseCode = .streamNotAvailable)
        [.metadata c.streamName c.responseCode] := by
  show endTry (EStateM.bind _ _ s) = _
  rw [EStateM.bind, deserialize_at (MetadataUpdateCommand.readBody_reads hname hwell) hb]
  by_cases hcode : c.responseCode = .streamNotAvailable
  · simp only [hcode, ne_eq, not_true_eq_false, if_false, decide_true, Bool.and_true, State.listen]
    cases p.metadataListener <;> rfl
  · simp only [hcode, ne_eq, not_false_eq_true, if_true, decide_false, Bool.and_false, State.listen]
    rfl

theorem handleTune_at (c : ServerTuneCommand) {b : BinaryBuffer} (hb : b.At c.encodeBody)
    (s : State μ) : endTry (handleTune b s) = s.tune c := by
  obtain ⟨b', hb'⟩ := c.readBody_reads.read_all hb
  have hfits := sendFrame_clientTune (s.negociate c).maxFrameSize (s.negociate c).maxFrameSize
    (s.negociate c).heartbeat
  have htuned : (s.answerTune c).tuned = s.tuned := by
    simp only [State.answerTune, State.setIdleHandlers]
    split <;> rfl
  rw [handleTune_eq, hb', State.tune]
  dsimp only
  cases hsend : sendFrame (s.negociate c).maxFrameSize (ClientFrame.clientTuneCommand
      (s.negociate c).maxFrameSize (s.negociate c).heartbeat).toSerializable with
  | error e =>
    rw [if_neg fun h => by simpa [hsend] using hfits.2 h]
    rfl
  | ok buffer =>
    rw [if_pos (hfits.1 ⟨buffer, hsend⟩)]
    dsimp only
    rw [setTunePromise]
    cases hs : s.tuned with
    | true => simp [endTry, catchFrame, htuned, hs]
    | false => simp [endTry, htuned, hs]

theorem handleClose_at {r : ServerCloseRequest} (hreason : r.closingReason.length ≤ int16Max)
    {b : BinaryBuffer} (hb : b.At r.encode) (s : State μ) :
    endTry (handleClose b s) = s.close r := by
  have hfits : (∃ buffer, sendFrame s.maxFrameSize (ClientFrame.clientCloseResponse r.correlationId
      ResponseCode.ok.value).toSerializable = .ok buffer) ↔ FrameFits s.maxFrameSize 10 :=
    sendFrame_isOk_iff ⟨by simp, by simp, by simp⟩ s.maxFrameSize
  show endTry (EStateM.bind _ _ s) = _
  rw [EStateM.bind, deserialize_at (ServerCloseRequest.deserialize_reads hreason) hb]
  show endTry (EStateM.bind (send _) _ s) = _
  rw [EStateM.bind, send, State.close]
  cases hsend : sendFrame s.maxFrameSize (ClientFrame.clientCloseResponse r.correlationId
      ResponseCode.ok.value).toSerializable with
  | error e =>
    rw [if_neg fun h => by simpa [hsend] using hfits.2 h]
    rfl
  | ok buffer =>
    rw [if_pos (hfits.1 ⟨buffer, hsend⟩)]
    rfl

/-- The body of a close response is too short for a close request. -/
theorem handleClose_response {correlationId : UInt32} {code : ResponseCode} {b : BinaryBuffer}
    (hb : b.At (bigEndian 4 correlationId.toNat ++ bigEndian 2 code.value.toNat)) (s : State μ) :
    endTry (handleClose b s) = s := by
  obtain ⟨b₁, hid, hb₁⟩ := (Reads.readUint correlationId).read_at hb
  rw [← List.append_nil (bigEndian 2 _)] at hb₁
  obtain ⟨b₂, hcode, before, writeCursor, rfl⟩ := (Reads.readUshort code.value).read_at hb₁
  have hshort : BinaryBuffer.readString ⟨before ++ [], before.length, writeCursor⟩ =
      .error (.invalidInput "Not enough data left in buffer") := by
    have hget : BinaryBuffer.get 2 ⟨before ++ [], before.length, writeCursor⟩ =
        .error (.invalidInput "Not enough data left in buffer") :=
      if_pos (by simp)
    show (((BinaryBuffer.get 2 _).bind _).bind _).bind _ = _
    rw [hget]
    rfl
  have hread : ServerCloseRequest.deserialize b =
      .error (.invalidInput "Not enough data left in buffer") := by
    show (BinaryBuffer.readUint b).bind _ = _
    rw [hid]
    show (BinaryBuffer.readUshort b₁).bind _ = _
    rw [hcode]
    show (BinaryBuffer.readString _).bind _ = _
    rw [hshort]
    rfl
  show endTry (EStateM.bind _ _ s) = s
  rw [EStateM.bind, deserialize, hread]
  rfl

/-- The body of a response is read back by the class of its command. -/
theorem readBody_reads {body : ResponseBody} (h : body.WellFormed) :
    Reads (readBody (responseType body)) body.encode body := by
  have hstrings := h.strings
  have hlengths := h.lengths
  cases body with
  | generic code => exact (Reads.readUshort code.value).map fun value => ResponseBody.generic ⟨value⟩
  | queryPublisherSequence code sequence =>
    exact (Reads.readUshort _).bind <|
      (Reads.readUlong _).map (ResponseBody.queryPublisherSequence code)
  | queryOffset code offset =>
    exact (Reads.readUshort _).bind <| (Reads.readUlong _).map (ResponseBody.queryOffset code)
  | metadata brokers streamMetadata => exact ResponseBody.readMetadata_reads h
  | peerProperties code properties =>
    exact ResponseBody.codeProperties_reads code hstrings (hlengths _ (by simp [ResponseBody.lengths]))
  | saslHandshake code mechanisms =>
    have hlen : mechanisms.length ≤ int32Max := hlengths _ (by simp [ResponseBody.lengths])
    exact (Reads.readUshort _).bind <|
      (Reads.readArray hlen fun m hm => Reads.readString (hstrings m hm)).map
        (ResponseBody.saslHandshake code)
  | saslAuthenticate code data => exact ResponseBody.readSaslAuthenticate_reads h
  | «open» code properties =>
    exact ResponseBody.codeProperties_reads code hstrings (hlengths _ (by simp [ResponseBody.lengths]))
  | exchangeCommandVersions code commandVersions =>
    have hlen : commandVersions.length ≤ int32Max := hlengths _ (by simp [ResponseBody.lengths])
    exact (Reads.readUshort _).bind <|
      (Reads.readArray hlen fun v _ => CommandVersion.read_reads v).map
        (ResponseBody.exchangeCommandVersions code)

theorem handleResponse_at {correlationId : UInt32} {body : ResponseBody} (h : body.WellFormed)
    {b : BinaryBuffer} (hb : b.At (bigEndian 4 correlationId.toNat ++ body.encode)) (s : State μ) :
    handleResponse (responseType body) b s = .ok () (s.respond correlationId (responseType body)) := by
  have hreads : Reads (deserializeResponse (responseType body))
      (bigEndian 4 correlationId.toNat ++ body.encode) (correlationId, body) :=
    (Reads.readUint _).bind <| (readBody_reads h).map (Prod.mk correlationId)
  obtain ⟨b', hb'⟩ := hreads.read_all hb
  rw [handleResponse_eq, hb']
  rfl

/-! ## The dispatch of a frame -/

theorem key_and (f : ServerFrame) : f.key &&& 0x7FFF = f.command.toUInt16 := by
  rw [ServerFrame.key]
  split
  · cases f.command <;> decide
  · cases f.command <;> decide

theorem key_isResponse (f : ServerFrame) : f.key &&& 0x8000 ≠ 0 ↔ f.isResponse = true := by
  rw [ServerFrame.key]
  split
  · rename_i h
    cases f.command <;> simp [h] <;> decide
  · rename_i h
    cases f.command <;> simp [h] <;> decide

theorem toUInt16_eq_close {key : CommandKey} :
    key.toUInt16 = CommandKey.close.toUInt16 ↔ key = .close := by
  cases key <;> decide

/-- A response whose command is not `Close` is one of the table. -/
theorem findHandler_response {key : CommandKey} {body : ResponseBody} (hkey : key ∈ body.keys)
    (hclose : key ≠ .close) :
    findHandler key.toUInt16 1 = some (.response (responseType body)) := by
  cases body with
  | generic code =>
    simp only [ResponseBody.keys, List.mem_cons, List.not_mem_nil, or_false] at hkey
    rcases hkey with rfl | rfl | rfl | rfl | rfl | rfl | rfl
    all_goals first | rfl | exact absurd rfl hclose
  | _ =>
    obtain rfl := List.mem_singleton.1 hkey
    rfl

theorem readHeader_at {f : ServerFrame} {b : BinaryBuffer} (hb : b.At f.encode) :
    ∃ b', readHeader b = .ok ((f.key, f.version), b') ∧ b'.At f.encodeBody := by
  have hreads : Reads readHeader (bigEndian 2 f.key.toNat ++ bigEndian 2 f.version.toNat)
      (f.key, f.version) :=
    (Reads.readUshort _).bind <| (Reads.readUshort _).map (Prod.mk f.key)
  rw [ServerFrame.encode, ← List.append_assoc] at hb
  exact hreads.read_at hb

theorem skip_eq {s : State μ} {f : ServerFrame} (hf : ¬(f.isResponse = true ∧ f.command = .close)) :
    s.skip f = s := by
  cases f with
  | response key correlationId body => exact if_neg fun hkey => hf ⟨rfl, hkey⟩
  | _ => rfl

/-- A frame with the key of a close response is one. -/
theorem eq_closeResponse {f : ServerFrame} (hf : f.WellFormed) (hresponse : f.isResponse = true)
    (hclose : f.command = .close) :
    ∃ correlationId code, f = .response .close correlationId (.generic code) := by
  cases f with
  | response key correlationId body =>
    obtain rfl : key = .close := hclose
    cases body with
    | generic code => exact ⟨correlationId, code, rfl⟩
    | _ => simp [ServerFrame.WellFormed, ResponseBody.keys] at hf
  | _ => simp [ServerFrame.isResponse] at hresponse

/-- The `try` block after the header, in a client that is not stopping. -/
theorem dispatch_at (p : Parameters μ) {f : ServerFrame} (hf : f.WellFormed) {b : BinaryBuffer}
    (hb : b.At f.encodeBody) (s : State μ) :
    endTry (dispatch p f.command.toUInt16 f.version b s) = s.take p f := by
  have hinvoke : ∀ handler, findHandler f.command.toUInt16 f.version = some handler →
      dispatch p f.command.toUInt16 f.version b s = handler.invoke p b s := by
    intro handler h
    rw [dispatch, h]
  cases f with
  | publishConfirm c =>
    rw [hinvoke .publishConfirm rfl, Handler.invoke, handlePublishConfirm,
      report_at (PublishConfirmCommand.readBody_reads hf) hb]
    rfl
  | publishError c =>
    rw [hinvoke .publishError rfl, Handler.invoke, handlePublishError,
      report_at (PublishErrorCommand.readBody_reads hf) hb]
    rfl
  | deliver version c =>
    have hfind : findHandler CommandKey.deliver.toUInt16 version = some (.deliver version) := by
      rcases hf.1 with rfl | rfl <;> rfl
    rw [hinvoke _ hfind]
    exact handleDeliver_at p hf.2 hb s
  | creditError c =>
    rw [hinvoke .credit rfl, Handler.invoke, handleCredit, report_at c.readBody_reads hb]
    rfl
  | metadataUpdate c =>
    rw [hinvoke .metadataUpdate rfl]
    exact handleMetadataUpdate_at p hf.1 hf.2 hb s
  | tune c =>
    rw [hinvoke .tune rfl]
    exact handleTune_at c hb s
  | close r =>
    rw [hinvoke .close rfl]
    exact handleClose_at hf hb s
  | heartbeat =>
    rw [hinvoke .heartbeat rfl]
    rfl
  | response key correlationId body =>
    by_cases hkey : key = .close
    · obtain ⟨_, code, heq⟩ := eq_closeResponse hf rfl hkey
      cases heq
      rw [hinvoke .close rfl]
      exact handleClose_response hb s
    · rw [hinvoke _ (findHandler_response hf.1 hkey), Handler.invoke, handleResponse_at hf.2 hb]
      exact (if_neg hkey).symm

/-- The bytes of a frame do to a client what the frame does. -/
theorem processFrame_at (p : Parameters μ) {f : ServerFrame} (hf : f.WellFormed) {b : BinaryBuffer}
    (hb : b.At f.encode) (s : State μ) : catchFrame (processFrame p b s) = handle p s f := by
  obtain ⟨b', hheader, hbody⟩ := readHeader_at hb
  rw [processFrame, hheader, handle]
  dsimp only
  rw [key_and]
  by_cases hs : s.status = .stopping
  · rw [if_neg (not_not.2 hs), if_pos hs]
    simp only [key_isResponse, toUInt16_eq_close]
    split
    · rename_i hclose
      obtain ⟨correlationId, code, rfl⟩ := eq_closeResponse hf hclose.1 hclose.2
      have hresponse : handleResponse .generic b' s = .ok () (s.respond correlationId .generic) :=
        handleResponse_at hf.2 hbody s
      show catchFrame (EStateM.bind _ _ s) = _
      rw [EStateM.bind, hresponse]
      rfl
    · rename_i hclose
      exact (skip_eq hclose).symm
  · rw [if_pos hs, if_neg hs, catchFrame_then]
    exact dispatch_at p hf hbody s

end Hareflow.Client.Frames

namespace Hareflow.Client.Inbound

open Foundations Wire Connection
open Frames (Parameters catchFrame processFrame)

variable {μ : Type}

/-! ## The two machines -/

/-- What the other threads of a client do to it between two steps of the frame thread. -/
def others (p : Parameters μ) (client : Frames.State μ) : Frames.Act → Option (Frames.State μ)
  | .frame _ | .readFails _ => none
  | a => Frames.step p client a

/-- A client and the frames that it will be handed. -/
structure Feed (μ : Type) where
  queue : List ServerFrame
  client : Frames.State μ

namespace Feed

inductive Act
  /-- The frame thread is handed the next frame. -/
  | frame
  /-- Its read fails: there is no frame left. -/
  | readFails (e : IOException)
  | other (a : Frames.Act)
  deriving DecidableEq, Repr

def step (p : Parameters μ) (s : Feed μ) : Act → Option (Feed μ)
  | .frame =>
    match s.queue with
    | [] => none
    | f :: queue =>
      if s.client.loop = .running then some ⟨queue, Frames.handle p s.client f⟩ else none
  | .readFails e =>
    if s.client.loop = .running ∧ s.queue = [] then
      some { s with client := catchFrame (.error (.io e) s.client) }
    else none
  | .other a => (others p s.client a).map fun client => { s with client }

def machine (p : Parameters μ) (queue : List ServerFrame) (client : Frames.State μ) :
    Machine (Feed μ) Act where
  Init s := s = ⟨queue, client⟩
  step := step p

end Feed

/-- A connection and the client that reads from it. -/
structure State (μ : Type) where
  reader : Reader.State
  client : Frames.State μ
  /-- The promise of `read()` that the frame thread waits for. -/
  waiting : Option ℕ := none
  /-- The record of the number of buffers that it got. -/
  taken : ℕ := 0

/-- `m_connection->read().get()` returns a buffer, which is processed, or throws. -/
def State.got (s : State μ) (p : Parameters μ) : Except IOException BinaryBuffer → State μ
  | .ok buffer =>
    { s with
      waiting := none, taken := s.taken + 1
      client := catchFrame (processFrame p buffer s.client) }
  | .error e => { s with waiting := none, client := catchFrame (.error (.io e) s.client) }

/-- What has become of the promise that the frame thread waits for. -/
def State.result (s : State μ) : Option (Except IOException BinaryBuffer) :=
  s.waiting.bind fun promise => s.reader.completed.lookup promise

inductive Act
  /-- The frame thread calls `read()`. -/
  | read
  /-- The strand runs a handler. -/
  | strand (a : Reader.Act)
  /-- The frame thread has the result of its read. -/
  | get
  | other (a : Frames.Act)
  deriving DecidableEq, Repr

/-- One step; only the frame thread calls `read()`. -/
def step (p : Parameters μ) (fails : Bool) (s : State μ) : Act → Option (State μ)
  | .read =>
    if s.client.loop = .running ∧ s.waiting = none then
      (Reader.step fails s.reader .read).map fun reader =>
        { s with reader, waiting := some s.reader.calls }
    else none
  | .strand .read => none
  | .strand a => (Reader.step fails s.reader a).map fun reader => { s with reader }
  | .get => s.result.map fun result => s.got p result
  | .other a => (others p s.client a).map fun client => { s with client }

def start (bytes : Bytes) (client : Frames.State μ) : State μ := { reader := Reader.start bytes, client }

def machine (p : Parameters μ) (bytes : Bytes) (fails : Bool) (client : Frames.State μ) :
    Machine (State μ) Act where
  Init s := s = start bytes client
  step := step p fails

/-! ## One read at a time -/

/-- Where the read of the frame thread is, after `taken` buffers that it got before. -/
inductive Phase (r : Reader.State) (taken : ℕ) : Option ℕ → Prop
  | idle (hwaiting : r.waiting = []) (htaken : (Reader.successes r.completed).length = taken) :
    Phase r taken none
  | asked {i : ℕ} (hwaiting : r.waiting = [i])
    (htaken : (Reader.successes r.completed).length = taken) : Phase r taken (some i)
  | answered {i : ℕ} {b : BinaryBuffer} {earlier : List (ℕ × BinaryBuffer)} (hwaiting : r.waiting = [])
    (hresult : r.completed.lookup i = some (.ok b))
    (hsuccesses : Reader.successes r.completed = earlier ++ [(i, b)])
    (htaken : earlier.length = taken) : Phase r taken (some i)
  | failed {i : ℕ} {e : IOException} (hwaiting : r.waiting = []) (hdrained : Reader.Drained r)
    (hresult : r.completed.lookup i = some (.error e))
    (htaken : (Reader.successes r.completed).length = taken) : Phase r taken (some i)

namespace Phase

variable {r r' : Reader.State} {taken i : ℕ} {waiting : Option ℕ}

/-- A step that leaves the promises alone. -/
theorem keep (h : Phase r taken waiting) (hwaiting : r'.waiting = r.waiting)
    (hcompleted : r'.completed = r.completed) (hdrained : Reader.Drained r → Reader.Drained r') :
    Phase r' taken waiting := by
  cases h with
  | idle hw ht => exact .idle (hwaiting.trans hw) (by rw [hcompleted]; exact ht)
  | asked hw ht => exact .asked (hwaiting.trans hw) (by rw [hcompleted]; exact ht)
  | answered hw hr hs ht =>
    exact .answered (hwaiting.trans hw) (by rw [hcompleted]; exact hr) (by rw [hcompleted]; exact hs) ht
  | failed hw hd hr ht =>
    exact .failed (hwaiting.trans hw) (hdrained hd) (by rw [hcompleted]; exact hr)
      (by rw [hcompleted]; exact ht)

theorem lookup_append {completed : Reader.Results} (h : i ∉ completed.map Prod.fst)
    (result : Except IOException BinaryBuffer) :
    (completed ++ [(i, result)]).lookup i = some result := by
  have hnone : completed.lookup i = none := by
    rw [List.lookup_eq_none_iff]
    intro q hq
    have hne : q.1 ≠ i := fun heq => h (heq ▸ List.mem_map_of_mem hq)
    simpa using Ne.symm hne
  rw [List.lookup_append, hnone, Option.none_or, List.lookup_cons_self]

variable {ps : List Bytes} {k : ℕ}

/-- The promise that waits has no result yet. -/
theorem not_mem_completed (hinv : Reader.Inv ps k r) (h : i ∈ r.waiting) :
    i ∉ r.completed.map Prod.fst := by
  have hnodup := hinv.promises.once.nodup_iff.2 List.nodup_range
  exact fun hi => (List.nodup_append.1 hnodup).2.2 i hi i h rfl

/-- The promise that waits gets its buffer. -/
theorem answer (hinv : Reader.Inv ps k r) (hwaiting : r.waiting = [i])
    (htaken : (Reader.successes r.completed).length = taken) {b : BinaryBuffer}
    (hcompleted : r'.completed = r.completed ++ [(i, .ok b)]) (hwaiting' : r'.waiting = []) :
    Phase r' taken (some i) := by
  have hresult : r'.completed.lookup i = some (.ok b) := by
    rw [hcompleted]
    exact lookup_append (not_mem_completed hinv (by simp [hwaiting])) _
  exact .answered hwaiting' hresult (by rw [hcompleted, Reader.successes_ok]) htaken

/-- The promise that waits fails, with nothing left to be read. -/
theorem fail (hinv : Reader.Inv ps k r) (hwaiting : r.waiting = [i])
    (htaken : (Reader.successes r.completed).length = taken) {e : IOException}
    (hcompleted : r'.completed = r.completed ++ [(i, .error e)]) (hwaiting' : r'.waiting = [])
    (hdrained : Reader.Drained r') : Phase r' taken (some i) := by
  have hresult : r'.completed.lookup i = some (.error e) := by
    rw [hcompleted]
    exact lookup_append (not_mem_completed hinv (by simp [hwaiting])) _
  refine .failed hwaiting' hdrained hresult ?_
  rw [hcompleted, Reader.successes_error]
  exact htaken

/-- Only the read of the frame thread is posted. -/
theorem of_posted (h : Phase r taken waiting) {j : ℕ} {posted : List ℕ}
    (hposted : r.posted = j :: posted) :
    waiting = some j ∧ r.waiting = [j] ∧ posted = [] ∧ r.pendingRead = none ∧
      (Reader.successes r.completed).length = taken := by
  have hne : r.waiting ≠ [] := by simp [Reader.State.waiting, hposted]
  cases h with
  | idle hw ht => exact absurd hw hne
  | asked hw ht =>
    have hone := hw
    rw [Reader.State.waiting, hposted] at hone
    cases hpending : r.pendingRead with
    | none =>
      rw [hpending] at hone
      obtain ⟨rfl, hnil⟩ := List.cons.inj hone
      exact ⟨rfl, hw, hnil, rfl, ht⟩
    | some m => simp [hpending] at hone
  | answered hw => exact absurd hw hne
  | failed hw => exact absurd hw hne

/-- Only the read of the frame thread is pending. -/
theorem of_pending (h : Phase r taken waiting) {j : ℕ} (hpending : r.pendingRead = some j) :
    waiting = some j ∧ r.waiting = [j] ∧ r.posted = [] ∧
      (Reader.successes r.completed).length = taken := by
  have hne : r.waiting ≠ [] := by simp [Reader.State.waiting, hpending]
  cases h with
  | idle hw ht => exact absurd hw hne
  | asked hw ht =>
    have hone := hw
    rw [Reader.State.waiting, hpending] at hone
    obtain ⟨rfl, hnil⟩ := List.cons.inj hone
    exact ⟨rfl, hw, hnil, ht⟩
  | answered hw => exact absurd hw hne
  | failed hw => exact absurd hw hne

/-- The strand runs the handler of the read. -/
theorem handle (h : Phase r taken waiting) (hinv : Reader.Inv ps k r) {j : ℕ} {posted : List ℕ}
    (hposted : r.posted = j :: posted) :
    Phase ({ r with posted }.handleRead j) taken waiting := by
  obtain ⟨rfl, hwaiting, rfl, hpending, htaken⟩ := h.of_posted hposted
  rw [Reader.State.handleRead, if_neg (by simp [hpending])]
  split
  · exact answer hinv hwaiting htaken rfl (by simp [Reader.State.waiting, Reader.State.complete, hpending])
  · rename_i hinbox
    split
    · rename_i hfailed
      exact fail hinv hwaiting htaken rfl
        (by simp [Reader.State.waiting, Reader.State.complete, hpending])
        ⟨hfailed, hinv.failed.1 hfailed, hinbox, hpending⟩
    · exact .asked rfl htaken

/-- The read chain goes on after a length prefix. -/
theorem callback (h : Phase r taken waiting) (hgoing : r.chain ≠ .stopped) (input : List UInt8)
    (b : BinaryBuffer) : Phase ({ r with input }.callback b) taken waiting := by
  have hkeep : ∀ chain, Phase { r with input, chain } taken waiting := fun chain =>
    h.keep rfl rfl fun hd => absurd hd.stopped hgoing
  rw [Reader.State.callback]
  split
  · exact hkeep _
  · split
    · exact hkeep _
    · exact hkeep _

/-- The buffer of a frame is handed over. -/
theorem post (h : Phase r taken waiting) (hinv : Reader.Inv ps k r) (hgoing : r.chain ≠ .stopped)
    (input : List UInt8) (b : BinaryBuffer) :
    Phase ({ r with input }.postToInbox b) taken waiting := by
  rw [Reader.State.postToInbox]
  split
  · rename_i j hpending
    obtain ⟨rfl, hwaiting, hposted, htaken⟩ := h.of_pending hpending
    exact answer hinv hwaiting htaken rfl hposted
  · exact h.keep rfl rfl fun hd => absurd hd.stopped hgoing

/-- The read chain ends. -/
theorem chainFails (h : Phase r taken waiting) (hinv : Reader.Inv ps k r) (hgoing : r.chain ≠ .stopped)
    (what : String) : Phase (r.fail what) taken waiting := by
  rw [Reader.State.fail]
  split
  · rename_i j hpending
    obtain ⟨rfl, hwaiting, hposted, htaken⟩ := h.of_pending hpending
    have hinbox : r.inbox = [] := (hinv.slot (by simp [hpending])).1
    exact fail hinv hwaiting htaken rfl hposted ⟨rfl, rfl, hinbox, rfl⟩
  · exact h.keep rfl rfl fun hd => absurd hd.stopped hgoing

/-- The handlers of the strand keep to the one read. -/
theorem strand (h : Phase r taken waiting) (hinv : Reader.Inv ps k r) {fails : Bool} {a : Reader.Act}
    (ha : a ≠ .read) (hstep : Reader.step fails r a = some r') : Phase r' taken waiting := by
  cases a with
  | read => exact absurd rfl ha
  | handle =>
    simp only [Reader.step] at hstep
    split at hstep
    · cases hstep
    · rename_i j posted hposted
      obtain rfl := Option.some.inj hstep
      exact h.handle hinv hposted
  | arrive =>
    cases hchain : r.chain with
    | length b =>
      simp only [Reader.step, hchain] at hstep
      split at hstep
      · cases hstep
      · obtain rfl := Option.some.inj hstep
        exact h.callback (by simp [hchain]) _ _
    | payload b =>
      simp only [Reader.step, hchain] at hstep
      split at hstep
      · cases hstep
      · obtain rfl := Option.some.inj hstep
        exact h.post hinv (by simp [hchain]) _ _
    | stopped => simp [Reader.step, hchain] at hstep
    | escaped e => simp [Reader.step, hchain] at hstep
  | error what =>
    simp only [Reader.step] at hstep
    split at hstep
    · cases hstep
    · rename_i n hrequested
      have hgoing : r.chain ≠ .stopped := by
        intro hstopped
        simp [hstopped, Reader.Chain.requested] at hrequested
      split at hstep
      · obtain rfl := Option.some.inj hstep
        exact h.chainFails hinv hgoing what
      · cases hstep

end Phase

/-! ## The refinement -/

/-- The frames of which all bytes are among the first `k`. -/
def arrived (fs : List ServerFrame) (k : ℕ) : List ServerFrame :=
  fs.take (Reader.complete (fs.map ServerFrame.encode) k).length

/-- A client that reads from a connection, and one that is handed the frames that arrive. -/
structure Refines (fs : List ServerFrame) (k : ℕ) (s : State μ) (t : Feed μ) : Prop where
  client : t.client = s.client
  queue : t.queue = (arrived fs k).drop s.taken
  reader : Reader.Inv (fs.map ServerFrame.encode) k s.reader
  phase : Phase s.reader s.taken s.waiting
  running : s.waiting ≠ none → s.client.loop = .running

/-- What the client that is handed the frames does meanwhile. -/
def answer (s : State μ) (a : Act) (_ : State μ) : List Feed.Act :=
  match a with
  | .get =>
    match s.result with
    | some (.ok _) => [.frame]
    | some (.error e) => [.readFails e]
    | none => []
  | .other a => [.other a]
  | .read | .strand _ => []

theorem others_loop {p : Parameters μ} {client client' : Frames.State μ} {a : Frames.Act}
    (h : others p client a = some client') : client'.loop = client.loop := by
  cases a with
  | frame | readFails => cases h
  | setStatus status =>
    obtain rfl := Option.some.inj h
    rfl
  | request a =>
    obtain ⟨requests, -, rfl⟩ := Frames.step_request h
    rfl

theorem encode_ne_nil (f : ServerFrame) : f.encode ≠ [] := by
  intro h
  have hlen := congrArg List.length h
  simp [ServerFrame.encode] at hlen

namespace Refines

variable {fs : List ServerFrame} {k : ℕ} {s : State μ} {t : Feed μ}

theorem received_isPrefix (h : Refines fs k s t) :
    s.reader.received <+: (arrived fs k).map ServerFrame.encode := by
  have hpre := h.reader.framed.received_isPrefix
  have hcomplete := Reader.complete_isPrefix (fs.map ServerFrame.encode) k
  rw [arrived, List.map_take, ← List.prefix_iff_eq_take.1 hcomplete]
  exact hpre

/-- The buffer that the frame thread gets is that of the next frame. -/
theorem next (h : Refines fs k s t) {i : ℕ} {b : BinaryBuffer} {earlier : List (ℕ × BinaryBuffer)}
    (hsuccesses : Reader.successes s.reader.completed = earlier ++ [(i, b)])
    (htaken : earlier.length = s.taken) :
    ∃ f ∈ fs, t.queue = f :: (arrived fs k).drop (s.taken + 1) ∧ b.At f.encode := by
  have hbuffer : s.reader.buffers[s.taken]? = some b := by
    simp [Reader.State.buffers, hsuccesses, ← htaken]
  have hreceived : s.reader.received[s.taken]? = some (Reader.unread b) := by
    simp [Reader.State.received, hbuffer]
  obtain ⟨rest, hrest⟩ := h.received_isPrefix
  have hlt := (List.getElem?_eq_some_iff.1 hreceived).1
  have hencoded : ((arrived fs k).map ServerFrame.encode)[s.taken]? = some (Reader.unread b) := by
    rw [← hrest, List.getElem?_append_left hlt, hreceived]
  rw [List.getElem?_map] at hencoded
  obtain ⟨f, hf, hencode⟩ := Option.map_eq_some_iff.1 hencoded
  obtain ⟨hlt', rfl⟩ := List.getElem?_eq_some_iff.1 hf
  refine ⟨_, List.mem_of_mem_take (List.getElem_mem hlt'), ?_,
    Reader.at_of_unread (h.reader.cursor b (List.mem_of_getElem? hbuffer)) hencode.symm
      (encode_ne_nil _)⟩
  rw [h.queue, List.drop_eq_getElem_cons hlt']

/-- When a read has failed, the frame thread has got every frame that arrived. -/
theorem queue_eq_nil (h : Refines fs k s t) (hdrained : Reader.Drained s.reader)
    (htaken : (Reader.successes s.reader.completed).length = s.taken) : t.queue = [] := by
  have hframed := h.reader.framed
  rw [hdrained.stopped] at hframed
  have hreceived : s.reader.received = Reader.complete (fs.map ServerFrame.encode) k := hframed
  have hlen := congrArg List.length hreceived
  simp only [Reader.State.received, Reader.State.buffers, hdrained.inbox, List.append_nil,
    List.length_map, htaken] at hlen
  rw [h.queue, List.drop_eq_nil_iff, arrived, List.length_take, ← hlen]
  exact Nat.min_le_left ..

/-- The frame thread has a buffer, and the other client is handed its frame. -/
theorem gotFrame (hfs : ∀ f ∈ fs, f.WellFormed ∧ f.encode.length ≤ Reader.maxPayload)
    {p : Parameters μ} (h : Refines fs k s t) {i : ℕ} {b : BinaryBuffer}
    {earlier : List (ℕ × BinaryBuffer)} (hloop : s.client.loop = .running)
    (hwaiting : s.reader.waiting = [])
    (hsuccesses : Reader.successes s.reader.completed = earlier ++ [(i, b)])
    (htaken : earlier.length = s.taken) :
    ∃ t', Feed.step p t .frame = some t' ∧ Refines fs k (s.got p (.ok b)) t' := by
  obtain ⟨f, hf, hqueue, hat⟩ := h.next hsuccesses htaken
  refine ⟨⟨(arrived fs k).drop (s.taken + 1), Frames.handle p s.client f⟩, ?_, ?_⟩
  · simp only [Feed.step, hqueue, h.client, if_pos hloop]
  · refine ⟨(Frames.processFrame_at p (hfs f hf).1 hat s.client).symm, rfl, h.reader, ?_, by
      simp [State.got]⟩
    exact .idle hwaiting (by simp [State.got, hsuccesses, htaken])

/-- The read of the frame thread has failed, and the other client has no frame left. -/
theorem gotFailure {p : Parameters μ} (h : Refines fs k s t) (hloop : s.client.loop = .running)
    (hwaiting : s.reader.waiting = []) (hdrained : Reader.Drained s.reader)
    (htaken : (Reader.successes s.reader.completed).length = s.taken) (e : IOException) :
    ∃ t', Feed.step p t (.readFails e) = some t' ∧ Refines fs k (s.got p (.error e)) t' := by
  have hqueue := h.queue_eq_nil hdrained htaken
  refine ⟨{ t with client := catchFrame (.error (.io e) s.client) }, ?_, ?_⟩
  · simp only [Feed.step, h.client, hqueue, hloop, and_self, if_true]
  · exact ⟨rfl, h.queue, h.reader, .idle hwaiting htaken, by simp [State.got]⟩

/-- The frame thread has the result of its read. -/
theorem get (hfs : ∀ f ∈ fs, f.WellFormed ∧ f.encode.length ≤ Reader.maxPayload)
    {p : Parameters μ} {queue : List ServerFrame} {client : Frames.State μ} {s' : State μ}
    (h : Refines fs k s t) (hstep : s.result.map (fun result => s.got p result) = some s') :
    ∃ t', (Feed.machine p queue client).run t (answer s .get s') = some t' ∧ Refines fs k s' t' := by
  obtain ⟨result, hresult, rfl⟩ := Option.map_eq_some_iff.1 hstep
  obtain ⟨i, hi, hlookup⟩ := Option.bind_eq_some_iff.1 hresult
  have hloop : s.client.loop = .running := h.running (by simp [hi])
  have hphase := h.phase
  rw [hi] at hphase
  cases hphase with
  | asked hwaiting htaken =>
    have hnot := Phase.not_mem_completed h.reader (i := i) (by simp [hwaiting])
    obtain ⟨l₁, l₂, heq, -⟩ := List.lookup_eq_some_iff.1 hlookup
    exact absurd (by simp [heq]) hnot
  | answered hwaiting hok hsuccesses htaken =>
    obtain rfl := Option.some.inj (hlookup.symm.trans hok)
    obtain ⟨t', ht', hrefines⟩ := h.gotFrame hfs (p := p) hloop hwaiting hsuccesses htaken
    exact ⟨t', by simp only [answer, hresult]; exact Machine.run_cons.2 ⟨t', ht', rfl⟩, hrefines⟩
  | failed hwaiting hdrained herror htaken =>
    obtain rfl := Option.some.inj (hlookup.symm.trans herror)
    obtain ⟨t', ht', hrefines⟩ := h.gotFailure (p := p) hloop hwaiting hdrained htaken _
    exact ⟨t', by simp only [answer, hresult]; exact Machine.run_cons.2 ⟨t', ht', rfl⟩, hrefines⟩

/-- Each step of the client that reads is answered by the one that is handed the frames. -/
theorem step (hfs : ∀ f ∈ fs, f.WellFormed ∧ f.encode.length ≤ Reader.maxPayload)
    {p : Parameters μ} {fails : Bool} {queue : List ServerFrame} {client : Frames.State μ} {s' : State μ}
    {a : Act} (h : Refines fs k s t) (hstep : Inbound.step p fails s a = some s') :
    ∃ t', (Feed.machine p queue client).run t (answer s a s') = some t' ∧ Refines fs k s' t' := by
  have hsize : ∀ q ∈ fs.map ServerFrame.encode, q.length ≤ Reader.maxPayload := by
    intro q hq
    obtain ⟨f, hf, rfl⟩ := List.mem_map.1 hq
    exact (hfs f hf).2
  cases a with
  | read =>
    obtain ⟨⟨hloop, hidle⟩, hstep⟩ := Option.ite_none_right_eq_some.1 hstep
    obtain ⟨reader, hread, rfl⟩ := Option.map_eq_some_iff.1 hstep
    have hphase := h.phase
    rw [hidle] at hphase
    refine ⟨t, rfl, h.client, h.queue, Reader.inv_step hsize h.reader hread, ?_, fun _ => hloop⟩
    obtain rfl := Option.some.inj hread
    cases hphase with
    | idle hwaiting htaken =>
      obtain ⟨hpending, hposted⟩ := List.append_eq_nil_iff.1 hwaiting
      exact .asked (by simp [Reader.State.waiting, hposted, Option.toList_eq_nil_iff.1 hpending]) htaken
  | strand a =>
    have ha : a ≠ .read := by
      rintro rfl
      cases hstep
    have hmap : (Reader.step fails s.reader a).map (fun reader => { s with reader }) = some s' := by
      cases a <;> first | exact hstep | exact absurd rfl ha
    obtain ⟨reader, hreader, rfl⟩ := Option.map_eq_some_iff.1 hmap
    exact ⟨t, rfl, h.client, h.queue, Reader.inv_step hsize h.reader hreader,
      h.phase.strand h.reader ha hreader, h.running⟩
  | get => exact h.get hfs hstep
  | other a =>
    obtain ⟨client', hclient, rfl⟩ := Option.map_eq_some_iff.1 hstep
    refine ⟨{ t with client := client' }, ?_, rfl, h.queue, h.reader, h.phase, fun hw => ?_⟩
    · refine Machine.run_cons.2 ⟨_, ?_, rfl⟩
      show (others p t.client a).map _ = _
      rw [h.client, hclient]
      rfl
    · rw [others_loop hclient]
      exact h.running hw

end Refines

theorem refines_start (fs : List ServerFrame) (k : ℕ) (client : Frames.State μ) :
    Refines fs k (start ((Reader.wire (fs.map ServerFrame.encode)).take k) client)
      ⟨arrived fs k, client⟩ where
  client := rfl
  queue := rfl
  reader := Reader.inv_start _ k
  phase := .idle rfl rfl
  running h := absurd rfl h

/-- **The frames of the broker arrive as frames.** The broker writes well-formed frames of any kind,
of whose bytes the first `k` arrive and then the stream fails or not. In any interleaving of the
handlers of the strand, the frame thread and the other threads, the client does what it would do if it
were handed, one by one and in their order, the frames of which all bytes arrive, and were told of the
failure only after the last of them. -/
theorem frames_arrive (p : Parameters μ) (fs : List ServerFrame)
    (hfs : ∀ f ∈ fs, f.WellFormed ∧ f.encode.length ≤ 2 ^ 32 - 5) (k : ℕ) (fails : Bool)
    (client : Frames.State μ) (as : List Act) (s : State μ) :
    let bytes := (Reader.wire (fs.map ServerFrame.encode)).take k
    (machine p bytes fails client).run (start bytes client) as = some s →
      (Feed.machine p (arrived fs k) client).run ⟨arrived fs k, client⟩
          ((machine p bytes fails client).record answer (start bytes client) as) =
        some ⟨(arrived fs k).drop s.taken, s.client⟩ := by
  intro bytes h
  obtain ⟨⟨queue, client'⟩, ht, hrefines⟩ := Machine.run_simulates (R := Refines fs k)
    (N := Feed.machine p (arrived fs k) client) (fun hrel hstep => hrel.step hfs hstep)
    (refines_start fs k client) h
  obtain rfl : client' = s.client := hrefines.client
  obtain rfl : queue = (arrived fs k).drop s.taken := hrefines.queue
  exact ht

/-- A confirm of two messages, a heartbeat, and a frame of which a part arrives. -/
def threeFrames : List ServerFrame :=
  [.publishConfirm ⟨1, [5, 6]⟩, .heartbeat, .tune ⟨1024, 60⟩]

/-- A client with a confirm listener. -/
def confirming : Parameters Bytes := { publishConfirmListener := true, decode := .ok }

/-- The frame thread reads three times; the third read fails. -/
def threeReads : List Act :=
  [.read, .strand .handle, .strand .arrive, .strand .arrive, .get, .strand .arrive, .strand .arrive,
    .read, .strand .handle, .get, .read, .strand .arrive, .strand (.error "Connection reset"),
    .strand .handle, .get]

/-- The bytes that arrive end in the third frame. -/
def fortyFourBytes : Bytes := (Reader.wire (threeFrames.map ServerFrame.encode)).take 44

theorem frames_arrive_threeFrames :
    ∃ s, (machine confirming fortyFourBytes true { maxFrameSize := 0, heartbeat := 0 }).run
        (start fortyFourBytes { maxFrameSize := 0, heartbeat := 0 }) threeReads = some s ∧
      s.client.calls = [.publishConfirm 1 5, .publishConfirm 1 6] ∧
      (Feed.machine confirming (arrived threeFrames 44) { maxFrameSize := 0, heartbeat := 0 }).run
        ⟨arrived threeFrames 44, { maxFrameSize := 0, heartbeat := 0 }⟩
        [.frame, .frame, .readFails ⟨"Connection failed unexpectedly"⟩] = some ⟨[], s.client⟩ := by
  have hrun : ((machine confirming fortyFourBytes true { maxFrameSize := 0, heartbeat := 0 }).run
      (start fortyFourBytes { maxFrameSize := 0, heartbeat := 0 }) threeReads).any (fun s =>
        decide (s.client.calls = [.publishConfirm 1 5, .publishConfirm 1 6] ∧
          (arrived threeFrames 44).drop s.taken = [])) = true := by
    decide +kernel
  have hanswers : (machine confirming fortyFourBytes true { maxFrameSize := 0, heartbeat := 0 }).record
      answer (start fortyFourBytes { maxFrameSize := 0, heartbeat := 0 }) threeReads =
        [.frame, .frame, .readFails ⟨"Connection failed unexpectedly"⟩] := by
    decide +kernel
  have hfs : ∀ f ∈ threeFrames, f.WellFormed ∧ f.encode.length ≤ 2 ^ 32 - 5 := by
    intro f hf
    rcases List.mem_cons.1 hf with rfl | hf
    · exact ⟨show 2 ≤ int32Max by decide, by decide⟩
    rcases List.mem_cons.1 hf with rfl | hf
    · exact ⟨trivial, by decide⟩
    · obtain rfl := List.mem_singleton.1 hf
      exact ⟨trivial, by decide⟩
  obtain ⟨s, hs, hafter⟩ := (Option.any_eq_true ..).1 hrun
  obtain ⟨hcalls, htaken⟩ := of_decide_eq_true hafter
  have harrive := frames_arrive confirming threeFrames hfs 44 true _ threeReads s hs
  rw [htaken] at harrive
  exact ⟨s, hs, hcalls, hanswers ▸ harrive⟩

end Hareflow.Client.Inbound
