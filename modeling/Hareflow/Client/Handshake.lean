import Hareflow.Client.Framing
import Hareflow.Client.FrameHandlers
import Hareflow.Client.Lifecycle
import Hareflow.Client.Versions
import Hareflow.Wire.ServerFrame

/-!
# The handshake

`start()` makes four requests, and a fifth one if the version of the server allows it. Between the
third and the fourth the server sends a tune frame, which is not an answer of a request: the frame
thread negotiates the limits, answers, and sets a promise that `start()` waits for. From then on the
connection sends a heartbeat whenever it has been idle.

Here the client meets a server that is strict about the order of what it receives. The parties are
joined by two queues of frames, and every interleaving of `start()`, the frame thread, the server, the
heartbeats of both sides and the failures of `start()` is a run of one machine.

`Stage` is the message sequence chart of the handshake, with the frames that are under way at each
point (`Stage.state`) and what comes next (`Stage.next`). `Stage.step_chart` says that the parties
follow the chart, and `Follows.step` that they do so when heartbeats come in between.
-/

namespace Hareflow.Client.Handshake

open Foundations Wire
open Connection (IOException)
open Lifecycle (Handshake)

/-! ## The client -/

structure Parameters where
  user : Bytes
  password : Bytes
  virtualHost : Bytes
  clientProperties : Properties
  /-- `m_max_frame_size`, as requested. -/
  maxFrameSize : UInt32
  /-- `m_heartbeat` in seconds, as requested. -/
  heartbeat : UInt32

/-- What `start()` may throw. -/
inductive Exception
  | stream (e : StreamException)
  /-- `TimeoutException`. -/
  | timeout (what : String)
  | io (e : IOException)
  deriving DecidableEq, Repr

inductive StartPc
  /-- About to send a request. -/
  | sending (h : Handshake)
  /-- In `wait_for`. -/
  | waiting (h : Handshake)
  /-- Before the exchange of `Starting` for `Started`. -/
  | ready
  | returned
  | threw (e : Exception)
  deriving DecidableEq, Repr

/-- What `start()` and the frame thread use of a client. Nobody else makes requests before `start()`
has returned, so that at most one is outstanding. -/
structure Starter where
  pc : StartPc := .sending .peerProperties
  correlationSequence : UInt32 := 0
  /-- The id in `m_outstanding_requests`. -/
  outstanding : Option UInt32 := none
  /-- The response that the future of the request has. -/
  result : Option ResponseBody := none
  maxFrameSize : UInt32
  heartbeat : UInt32
  /-- The writer-idle handler is set. -/
  idleHandler : Bool := false
  /-- `m_tune_promise` has its value. -/
  tuned : Bool := false
  /-- A promise was set a second time, and the process is terminated. -/
  escaped : Bool := false
  serverProperties : StringMap := ∅
  connectionProperties : StringMap := ∅

/-- The mechanism `PLAIN`. -/
def plain : Bytes := "PLAIN".toList.map fun c => UInt8.ofNat c.toNat

/-- The blob of `authenticate`. -/
def Parameters.saslBlob (p : Parameters) : Bytes := 0 :: (p.user ++ 0 :: p.password)

/-- `SUPPORTED_COMMAND_VERSIONS`. -/
def supportedCommandVersions : List CommandVersion := [⟨CommandKey.deliver.toUInt16, 1, 2⟩]

/-- The request of `peer_properties`, `sasl_handshake`, `authenticate`, `open` and
`maybe_exchange_command_versions`. -/
def request (p : Parameters) (id : UInt32) : Handshake → Option ClientFrame
  | .peerProperties => some (.peerPropertiesRequest id p.clientProperties)
  | .saslHandshake => some (.saslHandshakeRequest id)
  | .saslAuthenticate => some (.saslAuthenticateRequest id plain p.saslBlob)
  | .tune => none
  | .open => some (.openRequest id p.virtualHost)
  | .exchangeCommandVersions =>
    some (.exchangeCommandVersionsRequest id supportedCommandVersions)

namespace Starter

/-- `start()` throws. A call that ends with an exception drops its id. -/
def throw (c : Starter) (e : Exception) : Starter :=
  { c with pc := .threw e, outstanding := none, result := none }

/-- `start()` goes on after an answer. -/
def proceed (c : Starter) (h : Handshake) : Starter :=
  let pc := match h.next (Versions.supportsCommandVersionsExchange c.serverProperties) with
    | none => .ready
    | some .tune => .waiting .tune
    | some h => .sending h
  { c with pc, result := none }

/-- `send_request_check_response_code`, once the future has the response. -/
def check (c : Starter) (code : ResponseCode) (go : Starter) : Starter :=
  if code ≠ .ok then c.throw (.stream (.responseError code)) else go

/-- What `start()` does with the response of a request. -/
def answer (c : Starter) : Handshake → ResponseBody → Starter
  | .peerProperties, .peerProperties code properties =>
    c.check code (Starter.proceed { c with serverProperties := properties }
      .peerProperties)
  | .saslHandshake, .saslHandshake code mechanisms =>
    c.check code (if plain ∈ mechanisms then c.proceed .saslHandshake
      else c.throw (.stream (.stream "Server does not support PLAIN authentication")))
  | .saslAuthenticate, .saslAuthenticate code _ => c.check code (c.proceed .saslAuthenticate)
  | .open, .open code properties =>
    c.check code (Starter.proceed
      { c with connectionProperties := properties } .open)
  -- A refusal is caught and logged.
  | .exchangeCommandVersions, .exchangeCommandVersions _ _ => c.proceed .exchangeCommandVersions
  | _, _ => c.throw (.stream (.stream "Unexpected type for response object"))

/-- `handle_tune`. -/
def handleTune (c : Starter) (command : ServerTuneCommand) : Starter × List ClientFrame :=
  let c := { c with
    heartbeat := Frames.negociateValue c.heartbeat command.heartbeat
    maxFrameSize := Frames.negociateValue c.maxFrameSize command.frameSize }
  let frame := ClientFrame.clientTuneCommand c.maxFrameSize c.heartbeat
  match sendFrame c.maxFrameSize frame.toSerializable with
  -- The exception is caught by `handle_frames`.
  | .error _ => (c, [])
  | .ok _ =>
    ({ c with
      idleHandler := c.idleHandler || decide (c.heartbeat ≠ 0), tuned := true,
      escaped := c.escaped || c.tuned }, [frame])

/-- What the frame thread does with a frame. -/
def handle (c : Starter) : ServerFrame → Starter × List ClientFrame
  | .response _ correlationId body =>
    if c.outstanding = some correlationId then
      ({ c with outstanding := none, result := some body }, [])
    else (c, [])
  | .tune command => c.handleTune command
  -- The other frames do not concern `start()`.
  | _ => (c, [])

/-- A step of `start()`, with the frames that it sends. -/
def start (p : Parameters) (c : Starter) : Option (Starter × List ClientFrame) :=
  match c.pc with
  | .sending h =>
    let id := c.correlationSequence + 1
    (request p id h).map fun frame =>
      match sendFrame c.maxFrameSize frame.toSerializable with
      | .error e => ({ c with correlationSequence := id }.throw (.stream e), [])
      | .ok _ =>
        ({ c with pc := .waiting h, correlationSequence := id, outstanding := some id }, [frame])
  | .waiting .tune => if c.tuned then some (c.proceed .tune, []) else none
  | .waiting h => c.result.map fun body => (c.answer h body, [])
  | .ready => some ({ c with pc := .returned }, [])
  | .returned | .threw _ => none

/-- `wait_for` times out. -/
def timeout (c : Starter) : Option Starter :=
  match c.pc with
  | .waiting .tune =>
    if c.tuned then none
    else some (c.throw (.timeout "Timeout while waiting for server tune frame"))
  | .waiting _ =>
    if c.result.isSome then none
    else some (c.throw (.timeout "Timeout while waiting for response"))
  | _ => none

/-- The connection is lost: the write of a request fails with `e`, or `shutdown` fails the outstanding
request. -/
def disconnect (c : Starter) (e : IOException) : Option Starter :=
  match c.pc with
  | .sending _ => some ({ c with correlationSequence := c.correlationSequence + 1 }.throw (.io e))
  | .waiting .tune => none
  | .waiting _ =>
    if c.result.isSome then none
    else some (c.throw (.io ⟨"Connection shutdown while waiting for response"⟩))
  | _ => none

end Starter

/-! ## The server -/

/-- A server, as far as a client can tell. -/
structure Server where
  properties : StringMap
  mechanisms : List Bytes
  /-- The answer to a user and a password. -/
  authenticationCode : Bytes → Bytes → ResponseCode
  limits : ServerTuneCommand
  /-- The answer to a virtual host. -/
  openCode : Bytes → ResponseCode
  connectionProperties : StringMap
  /-- The server knows the command `ExchangeCommandVersions`. -/
  knowsExchange : Bool
  exchangeCode : ResponseCode
  commandVersions : List CommandVersion

/-- What the server waits for. -/
inductive Phase
  | peerProperties
  | saslHandshake
  | saslAuthenticate
  | tune
  | open
  | opened
  /-- The client was refused, and nothing more is expected. -/
  | refused
  deriving DecidableEq, Repr

/-- The server's side of a connection. -/
structure Session where
  phase : Phase := .peerProperties
  /-- The limits in the answer to the tune frame. -/
  limits : Option (UInt32 × UInt32) := none
  /-- The versions that the client has announced. -/
  versions : Option (List CommandVersion) := none
  /-- Something came out of order, and the server closes the connection. -/
  violated : Bool := false

/-- The user and the password of a blob for `PLAIN`; its first part is empty. -/
def parsePlain : Bytes → Option (Bytes × Bytes)
  | [] => none
  | c :: rest =>
    if c ≠ 0 then none
    else match rest.dropWhile (· ≠ 0) with
      | [] => none
      | _ :: password => some (rest.takeWhile (· ≠ 0), password)

/-- The answer to an authentication. -/
def Server.authenticate (v : Server) (mechanism blob : Bytes) : ResponseCode :=
  if mechanism ∉ v.mechanisms ∨ mechanism ≠ plain then .saslMechanismNotSupported
  else match parsePlain blob with
    | none => .saslError
    | some (user, password) => v.authenticationCode user password

namespace Session

def violate (s : Session) : Session × List ServerFrame := ({ s with violated := true }, [])

/-- The server takes a frame. It accepts each request only at its place, and heartbeats only after
the answer to the tune frame. -/
def take (v : Server) (s : Session) : ClientFrame → Session × List ServerFrame
  | .peerPropertiesRequest id _ =>
    if s.phase = .peerProperties then
      ({ s with phase := .saslHandshake },
        [.response .peerProperties id (.peerProperties .ok v.properties)])
    else s.violate
  | .saslHandshakeRequest id =>
    if s.phase = .saslHandshake then
      ({ s with phase := .saslAuthenticate },
        [.response .saslHandshake id (.saslHandshake .ok v.mechanisms)])
    else s.violate
  | .saslAuthenticateRequest id mechanism blob =>
    if s.phase = .saslAuthenticate then
      let code := v.authenticate mechanism blob
      let response := ServerFrame.response .saslAuthenticate id (.saslAuthenticate code [])
      if code = .ok then ({ s with phase := .tune }, [response, .tune v.limits])
      else ({ s with phase := .refused }, [response])
    else s.violate
  | .clientTuneCommand frameSize heartbeat =>
    if s.phase = .tune then ({ s with phase := .open, limits := some (frameSize, heartbeat) }, [])
    else s.violate
  | .openRequest id virtualHost =>
    if s.phase = .open then
      let code := v.openCode virtualHost
      ({ s with phase := if code = .ok then .opened else .refused },
        [.response .open id (.open code v.connectionProperties)])
    else s.violate
  | .exchangeCommandVersionsRequest id versions =>
    if s.phase = .opened ∧ v.knowsExchange = true then
      ({ s with versions := some versions },
        [.response .exchangeCommandVersions id
          (.exchangeCommandVersions v.exchangeCode v.commandVersions)])
    else s.violate
  | .clientHeartbeatCommand => if s.limits.isSome then (s, []) else s.violate
  | _ => s.violate

theorem take_saslAuthenticate (v : Server) (s : Session) (id : UInt32) (mechanism blob : Bytes) :
    s.take v (.saslAuthenticateRequest id mechanism blob) =
      if s.phase = .saslAuthenticate then
        if v.authenticate mechanism blob = .ok then
          ({ s with phase := .tune }, [.response .saslAuthenticate id
            (.saslAuthenticate (v.authenticate mechanism blob) []), .tune v.limits])
        else ({ s with phase := .refused }, [.response .saslAuthenticate id
          (.saslAuthenticate (v.authenticate mechanism blob) [])])
      else s.violate := rfl

theorem take_clientTune (v : Server) (s : Session) (frameSize heartbeat : UInt32) :
    s.take v (.clientTuneCommand frameSize heartbeat) =
      if s.phase = .tune then ({ s with phase := .open, limits := some (frameSize, heartbeat) }, [])
      else s.violate := rfl

theorem take_exchangeCommandVersions (v : Server) (s : Session) (id : UInt32)
    (versions : List CommandVersion) :
    s.take v (.exchangeCommandVersionsRequest id versions) =
      if s.phase = .opened ∧ v.knowsExchange = true then
        ({ s with versions := some versions }, [.response .exchangeCommandVersions id
          (.exchangeCommandVersions v.exchangeCode v.commandVersions)])
      else s.violate := rfl

end Session

/-! ## The machine -/

structure State where
  client : Starter
  session : Session := {}
  /-- The frames under way to the server. -/
  toServer : List ClientFrame := []
  /-- The frames under way to the client. -/
  toClient : List ServerFrame := []

inductive Act
  /-- A step of `start()`. -/
  | start
  | timeout
  | disconnect (e : IOException)
  /-- The frame thread takes a frame. -/
  | frames
  /-- The server takes a frame. -/
  | server
  /-- The writer-idle handler of the client sends a heartbeat. -/
  | clientBeat
  /-- The server sends a heartbeat. -/
  | serverBeat
  deriving DecidableEq, Repr

def Act.isBeat : Act → Bool
  | clientBeat | serverBeat => true
  | _ => false

def step (p : Parameters) (v : Server) (s : State) : Act → Option State
  | .start => (s.client.start p).map fun r =>
    { s with client := r.1, toServer := s.toServer ++ r.2 }
  | .timeout => s.client.timeout.map fun c => { s with client := c }
  | .disconnect e => (s.client.disconnect e).map fun c => { s with client := c }
  | .frames =>
    match s.toClient with
    | [] => none
    | f :: rest =>
      let r := s.client.handle f
      some { s with client := r.1, toServer := s.toServer ++ r.2, toClient := rest }
  | .server =>
    match s.toServer with
    | [] => none
    | f :: rest =>
      let r := s.session.take v f
      some { s with session := r.1, toServer := rest, toClient := s.toClient ++ r.2 }
  | .clientBeat =>
    if s.client.idleHandler then
      some { s with toServer := s.toServer ++ [.clientHeartbeatCommand] }
    else none
  | .serverBeat =>
    if s.session.limits.isSome then some { s with toClient := s.toClient ++ [.heartbeat] } else none

/-- The client and the server after the connection has been made. -/
def init (p : Parameters) : State where
  client := { maxFrameSize := p.maxFrameSize, heartbeat := p.heartbeat }

def machine (p : Parameters) (v : Server) : Machine State Act where
  Init s := s = init p
  step := step p v

/-- The limits that both sides should have in the end. -/
def agreedFrameSize (p : Parameters) (v : Server) : UInt32 :=
  Frames.negociateValue p.maxFrameSize v.limits.frameSize

def agreedHeartbeat (p : Parameters) (v : Server) : UInt32 :=
  Frames.negociateValue p.heartbeat v.limits.heartbeat

/-- Whether the versions are exchanged. -/
def exchanges (v : Server) : Bool := Versions.supportsCommandVersionsExchange v.properties

/-! ## The chart -/

/-- How far the tune frame has come. -/
inductive Tune
  /-- The frame is under way to the client. -/
  | sent
  /-- The answer is under way to the server. -/
  | answered
  | taken
  deriving DecidableEq, Repr

def Tune.rank : Tune → ℕ
  | sent => 0
  | answered => 1
  | taken => 2

/-- The points of the handshake. A request is to be sent, is under way to the server, is answered with
the response under way to the client, and is answered with the response in the future. -/
inductive Stage
  | propertiesSending | propertiesRequested | propertiesResponded | propertiesAnswered
  | mechanismsSending | mechanismsRequested | mechanismsResponded | mechanismsAnswered
  | authSending | authRequested | authResponded
  /-- The tune frame follows the response, and the frame thread does not wait for `start()`. -/
  | authAnswered (t : Tune)
  | tuning (t : Tune)
  /-- The request to open may be sent before the server has taken the answer to its tune frame. -/
  | openSending (taken : Bool)
  | openRequested (taken : Bool)
  | openResponded | openAnswered
  | exchangeSending | exchangeRequested | exchangeResponded | exchangeAnswered
  | ready
  | returned
  deriving DecidableEq, Repr

section

variable (p : Parameters) (v : Server)

namespace Starter

/-- The client before it knows the server. -/
def unaware : Starter := { maxFrameSize := p.maxFrameSize, heartbeat := p.heartbeat }

/-- The client with the properties of the server. -/
def aware : Starter := { unaware p with serverProperties := v.properties }

/-- The client with the limits. -/
def limited : Starter :=
  { aware p v with
    maxFrameSize := agreedFrameSize p v, heartbeat := agreedHeartbeat p v,
    idleHandler := decide (agreedHeartbeat p v ≠ 0), tuned := true }

/-- The client with its connection open. -/
def connected : Starter := { limited p v with connectionProperties := v.connectionProperties }

variable (c : Starter) (h : Handshake) (id : UInt32)

/-- Before the request that gets the id after this one. -/
def atSending : Starter := { c with pc := .sending h, correlationSequence := id }

/-- The request is outstanding. -/
def atWaiting : Starter :=
  { c with pc := .waiting h, correlationSequence := id, outstanding := some id }

/-- The response is there. -/
def atAnswered (body : ResponseBody) : Starter :=
  { c with pc := .waiting h, correlationSequence := id, result := some body }

end Starter

/-- The answer to the authentication. -/
def authCode : ResponseCode := v.authenticate plain p.saslBlob

/-- The client's side of the tune frame, after the authentication. -/
def Tune.client : Tune → Starter
  | sent => .aware p v
  | answered | taken => .limited p v

def Tune.session : Tune → Session
  | sent | answered => { phase := .tune }
  | taken => { phase := .open, limits := some (agreedFrameSize p v, agreedHeartbeat p v) }

def tuneAnswer : ClientFrame := .clientTuneCommand (agreedFrameSize p v) (agreedHeartbeat p v)

def Tune.toServer : Tune → List ClientFrame
  | answered => [tuneAnswer p v]
  | sent | taken => []

def Tune.toClient : Tune → List ServerFrame
  | sent => [.tune v.limits]
  | answered | taken => []

/-- The server after the request to open. -/
def openedSession : Session :=
  { phase := if v.openCode p.virtualHost = .ok then .opened else .refused,
    limits := some (agreedFrameSize p v, agreedHeartbeat p v) }

/-- The server after the exchange of versions. -/
def exchangedSession : Session :=
  { openedSession p v with versions := some supportedCommandVersions }

namespace Stage

/-- **The message sequence chart**: both parties and the frames under way, at each point. -/
def state : Stage → State
  | propertiesSending => ⟨(Starter.unaware p).atSending .peerProperties 0, {}, [], []⟩
  | propertiesRequested => ⟨(Starter.unaware p).atWaiting .peerProperties 1, {},
      [.peerPropertiesRequest 1 p.clientProperties], []⟩
  | propertiesResponded => ⟨(Starter.unaware p).atWaiting .peerProperties 1,
      { phase := .saslHandshake }, [],
      [.response .peerProperties 1 (.peerProperties .ok v.properties)]⟩
  | propertiesAnswered => ⟨(Starter.unaware p).atAnswered .peerProperties 1
      (.peerProperties .ok v.properties), { phase := .saslHandshake }, [], []⟩
  | mechanismsSending => ⟨(Starter.aware p v).atSending .saslHandshake 1,
      { phase := .saslHandshake }, [], []⟩
  | mechanismsRequested => ⟨(Starter.aware p v).atWaiting .saslHandshake 2,
      { phase := .saslHandshake }, [.saslHandshakeRequest 2], []⟩
  | mechanismsResponded => ⟨(Starter.aware p v).atWaiting .saslHandshake 2,
      { phase := .saslAuthenticate }, [],
      [.response .saslHandshake 2 (.saslHandshake .ok v.mechanisms)]⟩
  | mechanismsAnswered => ⟨(Starter.aware p v).atAnswered .saslHandshake 2
      (.saslHandshake .ok v.mechanisms), { phase := .saslAuthenticate }, [], []⟩
  | authSending => ⟨(Starter.aware p v).atSending .saslAuthenticate 2,
      { phase := .saslAuthenticate }, [], []⟩
  | authRequested => ⟨(Starter.aware p v).atWaiting .saslAuthenticate 3,
      { phase := .saslAuthenticate }, [.saslAuthenticateRequest 3 plain p.saslBlob], []⟩
  | authResponded => ⟨(Starter.aware p v).atWaiting .saslAuthenticate 3,
      { phase := if authCode p v = .ok then .tune else .refused }, [],
      .response .saslAuthenticate 3 (.saslAuthenticate (authCode p v) []) ::
        if authCode p v = .ok then [.tune v.limits] else []⟩
  | authAnswered .sent => ⟨(Starter.aware p v).atAnswered .saslAuthenticate 3
      (.saslAuthenticate (authCode p v) []),
      { phase := if authCode p v = .ok then .tune else .refused }, [],
      if authCode p v = .ok then [.tune v.limits] else []⟩
  | authAnswered t => ⟨(t.client p v).atAnswered .saslAuthenticate 3
      (.saslAuthenticate .ok []), t.session p v, t.toServer p v, []⟩
  | tuning t => ⟨{ t.client p v with pc := .waiting .tune, correlationSequence := 3 },
      t.session p v, t.toServer p v, t.toClient v⟩
  | openSending taken => ⟨(Starter.limited p v).atSending .open 3,
      (if taken then Tune.taken else .answered).session p v,
      (if taken then Tune.taken else .answered).toServer p v, []⟩
  | openRequested taken => ⟨(Starter.limited p v).atWaiting .open 4,
      (if taken then Tune.taken else .answered).session p v,
      (if taken then Tune.taken else .answered).toServer p v ++ [.openRequest 4 p.virtualHost], []⟩
  | openResponded => ⟨(Starter.limited p v).atWaiting .open 4, openedSession p v, [],
      [.response .open 4 (.open (v.openCode p.virtualHost) v.connectionProperties)]⟩
  | openAnswered => ⟨(Starter.limited p v).atAnswered .open 4
      (.open (v.openCode p.virtualHost) v.connectionProperties), openedSession p v, [], []⟩
  | exchangeSending => ⟨(Starter.connected p v).atSending .exchangeCommandVersions 4,
      openedSession p v, [], []⟩
  | exchangeRequested => ⟨(Starter.connected p v).atWaiting .exchangeCommandVersions 5,
      openedSession p v, [.exchangeCommandVersionsRequest 5 supportedCommandVersions], []⟩
  | exchangeResponded => ⟨(Starter.connected p v).atWaiting .exchangeCommandVersions 5,
      exchangedSession p v, [], [.response .exchangeCommandVersions 5
        (.exchangeCommandVersions v.exchangeCode v.commandVersions)]⟩
  | exchangeAnswered => ⟨(Starter.connected p v).atAnswered .exchangeCommandVersions 5
      (.exchangeCommandVersions v.exchangeCode v.commandVersions), exchangedSession p v, [], []⟩
  | ready => ⟨{ Starter.connected p v with
        pc := .ready, correlationSequence := if exchanges v then 5 else 4 },
      if exchanges v then exchangedSession p v else openedSession p v, [], []⟩
  | returned => ⟨{ Starter.connected p v with
        pc := .returned, correlationSequence := if exchanges v then 5 else 4 },
      if exchanges v then exchangedSession p v else openedSession p v, [], []⟩

/-- What `start()`, the frame thread and the server do next; `start()` may throw. -/
def next : Stage → Act → Option (Stage ⊕ Exception)
  | propertiesSending, .start => some (.inl propertiesRequested)
  | propertiesRequested, .server => some (.inl propertiesResponded)
  | propertiesResponded, .frames => some (.inl propertiesAnswered)
  | propertiesAnswered, .start => some (.inl mechanismsSending)
  | mechanismsSending, .start => some (.inl mechanismsRequested)
  | mechanismsRequested, .server => some (.inl mechanismsResponded)
  | mechanismsResponded, .frames => some (.inl mechanismsAnswered)
  | mechanismsAnswered, .start =>
    some (if plain ∈ v.mechanisms then .inl authSending
      else .inr (.stream (.stream "Server does not support PLAIN authentication")))
  | authSending, .start => some (.inl authRequested)
  | authRequested, .server => some (.inl authResponded)
  | authResponded, .frames => some (.inl (authAnswered .sent))
  | authAnswered .sent, .start =>
    some (if authCode p v = .ok then .inl (tuning .sent)
      else .inr (.stream (.responseError (authCode p v))))
  | authAnswered .sent, .frames =>
    if authCode p v = .ok then some (.inl (authAnswered .answered)) else none
  | authAnswered .answered, .server => some (.inl (authAnswered .taken))
  | authAnswered t, .start => some (.inl (tuning t))
  | tuning .sent, .frames => some (.inl (tuning .answered))
  | tuning .answered, .server => some (.inl (tuning .taken))
  | tuning .answered, .start => some (.inl (openSending false))
  | tuning .taken, .start => some (.inl (openSending true))
  | openSending false, .server => some (.inl (openSending true))
  | openSending taken, .start => some (.inl (openRequested taken))
  | openRequested false, .server => some (.inl (openRequested true))
  | openRequested true, .server => some (.inl openResponded)
  | openResponded, .frames => some (.inl openAnswered)
  | openAnswered, .start =>
    some (if v.openCode p.virtualHost = .ok then
        .inl (if exchanges v then exchangeSending else ready)
      else .inr (.stream (.responseError (v.openCode p.virtualHost))))
  | exchangeSending, .start => some (.inl exchangeRequested)
  | exchangeRequested, .server => some (.inl exchangeResponded)
  | exchangeResponded, .frames => some (.inl exchangeAnswered)
  | exchangeAnswered, .start => some (.inl ready)
  | ready, .start => some (.inl returned)
  | _, _ => none

/-- What the server has answered by then. -/
def Possible : Stage → Prop
  | authAnswered .answered | authAnswered .taken | tuning _ | openSending _ | openRequested _
  | openResponded | openAnswered => authCode p v = .ok
  | exchangeSending | exchangeRequested | exchangeResponded | exchangeAnswered =>
    authCode p v = .ok ∧ v.openCode p.virtualHost = .ok ∧ exchanges v = true
  | ready | returned => authCode p v = .ok ∧ v.openCode p.virtualHost = .ok
  | _ => True

end Stage

/-- `send_frame` does not throw. -/
def Sends (maxFrameSize : UInt32) (frame : ClientFrame) : Prop :=
  ∃ buffer, sendFrame maxFrameSize frame.toSerializable = .ok buffer

/-- The frames of the handshake fit into the limits at their time. -/
structure Fits : Prop where
  properties : Sends p.maxFrameSize (.peerPropertiesRequest 1 p.clientProperties)
  mechanisms : Sends p.maxFrameSize (.saslHandshakeRequest 2)
  authenticate : Sends p.maxFrameSize (.saslAuthenticateRequest 3 plain p.saslBlob)
  tune : Sends (agreedFrameSize p v) (tuneAnswer p v)
  opening : Sends (agreedFrameSize p v) (.openRequest 4 p.virtualHost)
  exchange : Sends (agreedFrameSize p v) (.exchangeCommandVersionsRequest 5 supportedCommandVersions)

/-- Why `start()` may throw. -/
inductive Reason : Exception → Prop
  | timeout (what : String) : Reason (.timeout what)
  | io (e : IOException) : Reason (.io e)
  | mechanism (h : plain ∉ v.mechanisms) :
    Reason (.stream (.stream "Server does not support PLAIN authentication"))
  | authentication (h : authCode p v ≠ .ok) : Reason (.stream (.responseError (authCode p v)))
  | virtualHost (h : v.openCode p.virtualHost ≠ .ok) :
    Reason (.stream (.responseError (v.openCode p.virtualHost)))

/-- `start()` has thrown. -/
def State.failed (s : State) (n : UInt32) (e : Exception) : State :=
  { s with client := { s.client with correlationSequence := n }.throw e }

/-- Where a step of the chart leads. -/
def Stage.result (g : Stage) : Stage ⊕ Exception → State
  | .inl g' => g'.state p v
  | .inr e => (g.state p v).failed (g.state p v).client.correlationSequence e

variable {p v}

theorem Starter.start_sending {c : Starter} {h : Handshake} {frame : ClientFrame}
    (hpc : c.pc = .sending h) (hframe : request p (c.correlationSequence + 1) h = some frame)
    (hsends : Sends c.maxFrameSize frame) :
    c.start p = some ({ c with
      pc := .waiting h, correlationSequence := c.correlationSequence + 1
      outstanding := some (c.correlationSequence + 1) }, [frame]) := by
  obtain ⟨buffer, hbuffer⟩ := hsends
  simp only [Starter.start, hpc, hframe, Option.map_some, hbuffer]

theorem Starter.check_ok (c go : Starter) : c.check .ok go = go := rfl

theorem Starter.check_of_ne (c go : Starter) {code : ResponseCode} (h : code ≠ .ok) :
    c.check code go = c.throw (.stream (.responseError code)) :=
  if_pos h

/-- The gate for the exchange of versions. -/
theorem Starter.proceed_open {c : Starter} (h : c.serverProperties = v.properties) :
    c.proceed .open = { c with
      pc := if exchanges v then .sending .exchangeCommandVersions else .ready, result := none } := by
  unfold Starter.proceed exchanges
  rw [h]
  cases Versions.supportsCommandVersionsExchange v.properties <;> rfl

/-- The frame thread answers the tune frame of the server. -/
theorem step_frames_tune (hfits : Fits p v) {s : State} {rest : List ServerFrame}
    (hqueue : s.toClient = .tune v.limits :: rest) (hsize : s.client.maxFrameSize = p.maxFrameSize)
    (hbeat : s.client.heartbeat = p.heartbeat) :
    step p v s .frames = some { s with
      client := { s.client with
        maxFrameSize := agreedFrameSize p v
        heartbeat := agreedHeartbeat p v
        idleHandler := s.client.idleHandler || decide (agreedHeartbeat p v ≠ 0)
        tuned := true
        escaped := s.client.escaped || s.client.tuned }
      toServer := s.toServer ++ [tuneAnswer p v]
      toClient := rest } := by
  obtain ⟨buffer, hbuffer⟩ := hfits.tune
  simp only [agreedFrameSize, agreedHeartbeat, tuneAnswer] at hbuffer ⊢
  simp only [step, hqueue, Starter.handle, Starter.handleTune, hsize, hbeat, hbuffer]
  rfl

namespace Stage

/-- The server follows the chart. -/
theorem step_server_state (hgate : exchanges v = true → v.knowsExchange = true) {g : Stage}
    (hg : g.Possible p v) :
    step p v (g.state p v) .server = (g.next p v .server).map (g.result p v) := by
  cases g with
  | authAnswered t => cases t <;> rfl
  | tuning t => cases t <;> rfl
  | openSending taken => cases taken <;> rfl
  | openRequested taken => cases taken <;> rfl
  | authRequested =>
    simp only [step, state, Session.take_saslAuthenticate, next, result, Option.map_some, if_true]
    split <;> simp_all [authCode]
  | exchangeRequested =>
    simp [step, state, Session.take_exchangeCommandVersions, next, result, openedSession,
      exchangedSession, hg.2.1, hgate hg.2.2]
  | _ => rfl

/-- So does the frame thread. -/
theorem step_frames_state (hfits : Fits p v) (g : Stage) :
    step p v (g.state p v) .frames = (g.next p v .frames).map (g.result p v) := by
  cases g with
  | authAnswered t =>
    cases t with
    | sent =>
      by_cases hcode : authCode p v = .ok
      · have hqueue : ((authAnswered .sent).state p v).toClient = [.tune v.limits] := if_pos hcode
        rw [step_frames_tune hfits hqueue rfl rfl, next, if_pos hcode]
        simp only [state, hcode]
        rfl
      · simp only [step, state, next, hcode, if_false, Option.map_none]
    | answered => rfl
    | taken => rfl
  | tuning t =>
    cases t with
    | sent => exact step_frames_tune hfits rfl rfl rfl
    | answered => rfl
    | taken => rfl
  | openSending taken => cases taken <;> rfl
  | openRequested taken => cases taken <;> rfl
  | _ => rfl

/-- So does `start()`. -/
theorem step_start_state (hfits : Fits p v) {g : Stage} (hg : g.Possible p v) :
    step p v (g.state p v) .start = (g.next p v .start).map (g.result p v) := by
  cases g with
  | propertiesSending =>
    rw [step, Starter.start_sending rfl rfl hfits.properties]
    rfl
  | propertiesAnswered =>
    simp only [step, state, Starter.start, Starter.atAnswered, Option.map_some, Starter.answer,
      Starter.check]
    rfl
  | mechanismsSending =>
    rw [step, Starter.start_sending rfl rfl hfits.mechanisms]
    rfl
  | mechanismsAnswered =>
    simp only [step, state, next, Starter.start, Starter.atAnswered, Option.map_some, Starter.answer]
    split <;> rfl
  | authSending =>
    rw [step, Starter.start_sending rfl rfl hfits.authenticate]
    rfl
  | authAnswered t =>
    cases t with
    | sent =>
      simp only [step, state, next, result, State.failed, Starter.start, Starter.atAnswered,
        Option.map_some, Starter.answer]
      by_cases hcode : authCode p v = .ok
      · simp only [hcode, Starter.check_ok]
        rfl
      · simp only [hcode, Starter.check_of_ne _ _ hcode]
        rfl
    | answered => rfl
    | taken => rfl
  | tuning t => cases t <;> rfl
  | openSending taken =>
    rw [step, Starter.start_sending rfl rfl hfits.opening]
    cases taken <;> rfl
  | openRequested taken => cases taken <;> rfl
  | openAnswered =>
    simp only [step, state, next, result, State.failed, Starter.start, Starter.atAnswered,
      Option.map_some, Starter.answer]
    by_cases hcode : v.openCode p.virtualHost = .ok
    · simp only [hcode, Starter.check_ok]
      rw [Starter.proceed_open rfl]
      cases exchanges v <;> rfl
    · simp only [hcode, Starter.check_of_ne _ _ hcode]
      rfl
  | exchangeSending =>
    rw [step, Starter.start_sending rfl rfl hfits.exchange]
    rfl
  | exchangeAnswered =>
    simp only [next, Option.map_some, result, state, hg.2.2]
    rfl
  | _ => rfl

/-- The number of steps that lead to a point, at most. -/
def rank : Stage → ℕ
  | propertiesSending => 0
  | propertiesRequested => 1
  | propertiesResponded => 2
  | propertiesAnswered => 3
  | mechanismsSending => 4
  | mechanismsRequested => 5
  | mechanismsResponded => 6
  | mechanismsAnswered => 7
  | authSending => 8
  | authRequested => 9
  | authResponded => 10
  | authAnswered t => 11 + t.rank
  | tuning t => 12 + t.rank
  | openSending taken => 14 + taken.toNat
  | openRequested taken => 15 + taken.toNat
  | openResponded => 17
  | openAnswered => 18
  | exchangeSending => 19
  | exchangeRequested => 20
  | exchangeResponded => 21
  | exchangeAnswered => 22
  | ready => 23
  | returned => 24

theorem rank_le (g : Stage) : g.rank ≤ 24 := by
  cases g with
  | authAnswered t => cases t <;> decide
  | tuning t => cases t <;> decide
  | openSending taken => cases taken <;> decide
  | openRequested taken => cases taken <;> decide
  | _ => decide

/-- A step of the chart leads forward, or `start()` has a reason to throw. -/
theorem next_forward {g : Stage} {a : Act} {r : Stage ⊕ Exception} (hg : g.Possible p v)
    (h : g.next p v a = some r) :
    r.elim (fun g' => g'.Possible p v ∧ g.rank < g'.rank) (fun e => Reason p v e ∧ a = .start) := by
  cases g with
  | mechanismsAnswered =>
    cases a <;> cases h
    split
    · exact ⟨trivial, by decide⟩
    · exact ⟨.mechanism ‹_›, rfl⟩
  | authAnswered t =>
    cases t with
    | sent =>
      by_cases hcode : authCode p v = .ok
      · cases a <;> simp only [next, hcode, if_true] at h <;> cases h <;> exact ⟨hcode, by decide⟩
      · cases a <;> simp only [next, hcode, if_false] at h <;> cases h
        exact ⟨.authentication hcode, rfl⟩
    | answered => cases a <;> cases h <;> exact ⟨hg, by decide⟩
    | taken => cases a <;> cases h; exact ⟨hg, by decide⟩
  | tuning t => cases t <;> cases a <;> cases h <;> exact ⟨hg, by decide⟩
  | openSending taken => cases taken <;> cases a <;> cases h <;> exact ⟨hg, by decide⟩
  | openRequested taken => cases taken <;> cases a <;> cases h <;> exact ⟨hg, by decide⟩
  | openAnswered =>
    cases a <;> cases h
    split
    · rename_i hcode
      split
      · exact ⟨⟨hg, hcode, ‹_›⟩, by decide⟩
      · exact ⟨⟨hg, hcode⟩, by decide⟩
    · exact ⟨.virtualHost ‹_›, rfl⟩
  | exchangeAnswered => cases a <;> cases h; exact ⟨⟨hg.1, hg.2.1⟩, by decide⟩
  | _ => cases a <;> cases h <;> exact ⟨hg, by decide⟩

/-- A handshake that goes on can go on by a step of `start()`, unless a frame is under way. -/
theorem next_start_isSome {g : Stage} (hg : g ≠ returned) (hserver : (g.state p v).toServer = [])
    (hclient : (g.state p v).toClient = []) : (g.next p v .start).isSome = true := by
  cases g with
  | authAnswered t => cases t <;> rfl
  | tuning t => cases t <;> first | rfl | cases hclient
  | openSending taken => cases taken <;> rfl
  | openRequested taken => cases taken <;> cases hserver
  | returned => exact absurd rfl hg
  | _ => first | rfl | (cases hclient; done) | cases hserver

/-- The idle handler is set after the answer to the tune frame was sent. -/
theorem tuneAnswer_of_idleHandler {g : Stage} (h : (g.state p v).client.idleHandler = true) :
    (g.state p v).session.limits.isSome = true ∨ tuneAnswer p v ∈ (g.state p v).toServer := by
  cases g with
  | authAnswered t =>
    cases t with
    | sent => cases h
    | answered => exact .inr List.mem_cons_self
    | taken => exact .inl rfl
  | tuning t =>
    cases t with
    | sent => cases h
    | answered => exact .inr List.mem_cons_self
    | taken => exact .inl rfl
  | openSending taken =>
    cases taken with
    | false => exact .inr List.mem_cons_self
    | true => exact .inl rfl
  | openRequested taken =>
    cases taken with
    | false => exact .inr List.mem_cons_self
    | true => exact .inl rfl
  | openResponded | openAnswered | exchangeSending | exchangeRequested | exchangeResponded
  | exchangeAnswered => exact .inl rfl
  | ready | returned =>
    simp only [state]
    cases exchanges v <;> exact .inl rfl
  | _ => cases h

/-- The answer to the tune frame is the first thing that the server takes after its tune frame. -/
theorem phase_of_tuneAnswer {g : Stage} {rest : List ClientFrame}
    (h : (g.state p v).toServer = tuneAnswer p v :: rest) : (g.state p v).session.phase = .tune := by
  cases g with
  | authAnswered t => cases t <;> first | rfl | cases h
  | tuning t => cases t <;> first | rfl | cases h
  | openSending taken => cases taken <;> first | rfl | cases h
  | openRequested taken => cases taken <;> first | rfl | cases h
  | _ => cases h

theorem not_violated (g : Stage) : (g.state p v).session.violated = false := by
  cases g with
  | authAnswered t => cases t <;> rfl
  | tuning t => cases t <;> rfl
  | openSending taken => cases taken <;> rfl
  | openRequested taken => cases taken <;> rfl
  | ready | returned =>
    simp only [state]
    cases exchanges v <;> rfl
  | _ => rfl

theorem not_escaped (g : Stage) : (g.state p v).client.escaped = false := by
  cases g with
  | authAnswered t => cases t <;> rfl
  | tuning t => cases t <;> rfl
  | _ => rfl

end Stage

/-! ## Heartbeats -/

namespace State

/-- The frames under way without the heartbeats. -/
def view (s : State) : State :=
  { s with
    toServer := s.toServer.filter (· ≠ .clientHeartbeatCommand)
    toClient := s.toClient.filter (· ≠ .heartbeat) }

/-- The number of heartbeats under way. -/
def beats (s : State) : ℕ :=
  s.toServer.count .clientHeartbeatCommand + s.toClient.count .heartbeat

end State

/-- `start()` and the frame thread do not send heartbeats. -/
theorem request_ne_beat {id : UInt32} {h : Handshake} {frame : ClientFrame}
    (hframe : request p id h = some frame) : frame ≠ .clientHeartbeatCommand := by
  rintro rfl
  cases h <;> cases hframe

theorem Starter.start_ne_beat {c : Starter} {r : Starter × List ClientFrame}
    (h : c.start p = some r) : .clientHeartbeatCommand ∉ r.2 := by
  unfold Starter.start at h
  split at h
  · obtain ⟨frame, hframe, rfl⟩ := Option.map_eq_some_iff.1 h
    split
    · simp
    · simpa using (request_ne_beat hframe).symm
  · split at h <;> cases h
    simp
  · obtain ⟨body, -, rfl⟩ := Option.map_eq_some_iff.1 h
    simp
  · cases h
    simp
  · cases h
  · cases h

theorem Starter.handle_ne_beat (c : Starter) (f : ServerFrame) :
    .clientHeartbeatCommand ∉ (c.handle f).2 := by
  cases f with
  | response key id body =>
    simp only [Starter.handle]
    split <;> simp
  | tune command =>
    simp only [Starter.handle, Starter.handleTune]
    split <;> simp
  | _ => simp [Starter.handle]

/-- The answers of the server are not heartbeats. -/
theorem Session.take_ne_beat (s : Session) (f : ClientFrame) : .heartbeat ∉ (s.take v f).2 := by
  unfold Session.take
  cases f <;> dsimp only [Session.violate] <;> repeat' split
  all_goals simp

/-- The server never forgets the limits, and gets them from the answer to its tune frame. -/
theorem Session.limits_take {s : Session} {f : ClientFrame}
    (h : s.limits.isSome = true ∨ f = tuneAnswer p v ∧ s.phase = .tune) :
    (s.take v f).1.limits.isSome = true := by
  obtain h | ⟨rfl, hphase⟩ := h
  · unfold Session.take
    cases f <;> dsimp only [Session.violate] <;> repeat' split
    all_goals first | exact h | rfl
  · simp [tuneAnswer, Session.take_clientTune, hphase]

/-- What a step is, up to heartbeats. -/
inductive Moves (p : Parameters) (v : Server) (s : State) (a : Act) (t : State) : Prop
  | sendBeat (ha : a.isBeat = true) (hview : t.view = s.view) (hbeats : t.beats = s.beats + 1)
  | takeBeat (ha : a.isBeat = false) (hview : t.view = s.view) (hbeats : t.beats + 1 = s.beats)
  | move (ha : a.isBeat = false) (hstep : step p v s.view a = some t.view)
    (hbeats : t.beats = s.beats)

theorem filter_ne_eq_self {α : Type} [DecidableEq α] {b : α} {l : List α} (h : b ∉ l) :
    l.filter (fun x => !decide (x = b)) = l := by
  refine List.filter_eq_self.2 fun x hx => ?_
  have hne : x ≠ b := fun heq => h (heq ▸ hx)
  simpa using hne

theorem step_view {s t : State} {a : Act}
    (hlate : ∀ rest, s.toServer = .clientHeartbeatCommand :: rest → s.session.limits.isSome = true)
    (h : step p v s a = some t) : Moves p v s a t := by
  cases a with
  | start =>
    obtain ⟨r, hr, rfl⟩ := Option.map_eq_some_iff.1 h
    have hbeat := Starter.start_ne_beat hr
    refine .move rfl ?_ ?_
    · simp [step, State.view, hr, filter_ne_eq_self hbeat]
    · simp [State.beats, List.count_append, List.count_eq_zero.2 hbeat]
  | timeout =>
    obtain ⟨c, hc, rfl⟩ := Option.map_eq_some_iff.1 h
    refine .move rfl ?_ rfl
    simp [step, State.view, hc]
  | disconnect e =>
    obtain ⟨c, hc, rfl⟩ := Option.map_eq_some_iff.1 h
    refine .move rfl ?_ rfl
    simp [step, State.view, hc]
  | frames =>
    simp only [step] at h
    split at h
    · cases h
    · rename_i f rest hqueue
      cases h
      by_cases hf : f = .heartbeat
      · subst hf
        refine .takeBeat rfl ?_ ?_
        · simp [State.view, hqueue, Starter.handle]
        · simp [State.beats, hqueue, Starter.handle]
          omega
      · have hbeat := Starter.handle_ne_beat s.client f
        refine .move rfl ?_ ?_
        · simp [step, State.view, hqueue, hf, filter_ne_eq_self hbeat]
        · simp [State.beats, hqueue, List.count_append, List.count_eq_zero.2 hbeat, hf]
  | server =>
    simp only [step] at h
    split at h
    · cases h
    · rename_i f rest hqueue
      cases h
      by_cases hf : f = .clientHeartbeatCommand
      · subst hf
        have htake : s.session.take v .clientHeartbeatCommand = (s.session, []) :=
          if_pos (hlate rest hqueue)
        refine .takeBeat rfl ?_ ?_
        · simp [State.view, hqueue, htake]
        · simp [State.beats, hqueue, htake]
          omega
      · have hbeat := Session.take_ne_beat (v := v) s.session f
        refine .move rfl ?_ ?_
        · simp [step, State.view, hqueue, hf, filter_ne_eq_self hbeat]
        · simp [State.beats, hqueue, List.count_append, List.count_eq_zero.2 hbeat, hf]
  | clientBeat =>
    simp only [step] at h
    split at h <;> cases h
    refine .sendBeat rfl ?_ ?_
    · simp [State.view]
    · simp [State.beats]
      omega
  | serverBeat =>
    simp only [step] at h
    split at h <;> cases h
    refine .sendBeat rfl ?_ ?_
    · simp [State.view]
    · simp [State.beats]
      omega

/-- No heartbeat comes before the answer to the tune frame; `tuned` is whether the server has it. -/
def beatsLate (p : Parameters) (v : Server) : Bool → List ClientFrame → Bool
  | _, [] => true
  | tuned, f :: rest =>
    if f = .clientHeartbeatCommand then tuned && beatsLate p v tuned rest
    else beatsLate p v (tuned || decide (f = tuneAnswer p v)) rest

theorem beatsLate_append (tuned : Bool) (fs fs' : List ClientFrame) :
    beatsLate p v tuned (fs ++ fs') = (beatsLate p v tuned fs &&
      beatsLate p v (tuned || decide (tuneAnswer p v ∈ fs)) fs') := by
  induction fs generalizing tuned with
  | nil => simp [beatsLate]
  | cons f fs ih =>
    rw [List.cons_append, beatsLate, beatsLate]
    split
    · rename_i hf
      have hne : ¬tuneAnswer p v = f := by simp [hf, tuneAnswer]
      simp [ih, hne, Bool.and_assoc]
    · simp [ih, Bool.or_assoc, eq_comm]

theorem beatsLate_of_ne {tuned : Bool} {fs : List ClientFrame} (h : .clientHeartbeatCommand ∉ fs) :
    beatsLate p v tuned fs = true := by
  induction fs generalizing tuned with
  | nil => rfl
  | cons f fs ih =>
    simp only [List.mem_cons, not_or] at h
    rw [beatsLate, if_neg (Ne.symm h.1), ih h.2]

theorem beatsLate_mono {tuned : Bool} {fs : List ClientFrame} (h : beatsLate p v tuned fs = true) :
    beatsLate p v true fs = true := by
  induction fs generalizing tuned with
  | nil => rfl
  | cons f fs ih =>
    rw [beatsLate] at h ⊢
    split at h
    · rename_i hf
      simp only [Bool.and_eq_true] at h
      simpa [hf] using ih h.2
    · rename_i hf
      simpa [hf] using ih h

/-- The server takes a frame. -/
theorem beatsLate_tail {tuned tuned' : Bool} {f : ClientFrame} {rest : List ClientFrame}
    (h : beatsLate p v tuned (f :: rest) = true)
    (htuned : tuned = true ∨ f = tuneAnswer p v → tuned' = true) :
    beatsLate p v tuned' rest = true := by
  rw [beatsLate] at h
  cases tuned' with
  | true =>
    split at h
    · exact beatsLate_mono (Bool.and_eq_true_iff.1 h).2
    · exact beatsLate_mono h
  | false =>
    have hnot : ¬(tuned = true ∨ f = tuneAnswer p v) := fun hor => Bool.false_ne_true (htuned hor)
    simp only [not_or, Bool.not_eq_true] at hnot
    simp only [hnot] at h
    split at h
    · cases h
    · simpa using h

namespace Stage

/-- The state at a point, after `start()` has thrown or not. -/
def seen (p : Parameters) (v : Server) (g : Stage) : Option (UInt32 × Exception) → State
  | none => g.state p v
  | some (n, e) => (g.state p v).failed n e

/-- The steps so far. -/
def steps (g : Stage) (e : Option (UInt32 × Exception)) : ℕ := g.rank + e.toList.length

end Stage

/-! ## Runs -/

theorem Starter.handle_throw (c : Starter) (n : UInt32) (e : Exception) (f : ServerFrame) :
    ({ c with correlationSequence := n }.throw e).handle f =
      ({ (c.handle f).1 with correlationSequence := n }.throw e, (c.handle f).2) := by
  cases f with
  | response key id body =>
    by_cases hid : c.outstanding = some id <;> simp [Starter.handle, Starter.throw, hid]
  | tune command =>
    simp only [Starter.handle, Starter.handleTune, Starter.throw]
    split <;> rfl
  | _ => rfl

/-- The other parties do not notice that `start()` has thrown. -/
theorem step_failed (s : State) (n : UInt32) (e : Exception) {a : Act}
    (ha : a = .frames ∨ a = .server) :
    step p v (s.failed n e) a = (step p v s a).map fun t => t.failed n e := by
  obtain rfl | rfl := ha
  · cases hqueue : s.toClient with
    | nil => simp [step, State.failed, hqueue]
    | cons f rest => simp [step, State.failed, hqueue, Starter.handle_throw]
  · cases hqueue : s.toServer with
    | nil => simp [step, State.failed, hqueue]
    | cons f rest => simp [step, State.failed, hqueue]

theorem Starter.timeout_eq {c c' : Starter} (h : c.timeout = some c') :
    ∃ what, c' = c.throw (.timeout what) := by
  unfold Starter.timeout at h
  split at h
  · split at h <;> cases h
    exact ⟨_, rfl⟩
  · split at h <;> cases h
    exact ⟨_, rfl⟩
  · cases h

theorem Starter.disconnect_eq {c c' : Starter} {e : IOException} (h : c.disconnect e = some c') :
    ∃ n e', c' = { c with correlationSequence := n }.throw (.io e') := by
  unfold Starter.disconnect at h
  split at h
  · cases h
    exact ⟨_, _, rfl⟩
  · cases h
  · split at h <;> cases h
    exact ⟨c.correlationSequence, _, rfl⟩
  · cases h

namespace Stage

/-- The state is at a point of the chart that comes after the given one. -/
def Ahead (p : Parameters) (v : Server) (g : Stage) (e : Option (UInt32 × Exception)) (t : State) :
    Prop :=
  ∃ g' e', Possible p v g' ∧ (∀ x ∈ e', Reason p v x.2) ∧ t = g'.seen p v e' ∧
    g.steps e < g'.steps e'

theorem ahead_failed {g : Stage} (hg : g.Possible p v) (n : UInt32) {x : Exception}
    (hx : Reason p v x) : Ahead p v g none ((g.state p v).failed n x) := by
  refine ⟨g, some (n, x), hg, ?_, rfl, ?_⟩
  · rintro _ ⟨⟩
    exact hx
  · simp [steps]

/-- A step of one of the three parties. -/
theorem step_chart (hfits : Fits p v) (hgate : exchanges v = true → v.knowsExchange = true)
    {g : Stage} (hg : g.Possible p v) {a : Act} (ha : a = .start ∨ a = .frames ∨ a = .server) :
    step p v (g.state p v) a = (g.next p v a).map (g.result p v) := by
  obtain rfl | rfl | rfl := ha
  · exact step_start_state hfits hg
  · exact step_frames_state hfits g
  · exact step_server_state hgate hg

theorem ahead_of_chart (hfits : Fits p v) (hgate : exchanges v = true → v.knowsExchange = true)
    {g : Stage} (hg : g.Possible p v) {a : Act} (ha : a = .start ∨ a = .frames ∨ a = .server)
    {t : State} (h : step p v (g.state p v) a = some t) : Ahead p v g none t := by
  rw [step_chart hfits hgate hg ha] at h
  obtain ⟨r, hr, rfl⟩ := Option.map_eq_some_iff.1 h
  have hforward := next_forward hg hr
  cases r with
  | inl g' => exact ⟨g', none, hforward.1, by simp, rfl, by simpa [steps] using hforward.2⟩
  | inr x => exact ahead_failed hg _ hforward.1

theorem ahead_of_failed (hfits : Fits p v) (hgate : exchanges v = true → v.knowsExchange = true)
    {g : Stage} (hg : g.Possible p v) {n : UInt32} {x : Exception} (hx : Reason p v x) {a : Act}
    (ha : a = .frames ∨ a = .server) {t : State}
    (h : step p v ((g.state p v).failed n x) a = some t) : Ahead p v g (some (n, x)) t := by
  rw [step_failed _ _ _ ha, step_chart hfits hgate hg (.inr ha), Option.map_map] at h
  obtain ⟨r, hr, rfl⟩ := Option.map_eq_some_iff.1 h
  have hforward := next_forward hg hr
  cases r with
  | inl g' =>
    refine ⟨g', some (n, x), hforward.1, ?_, rfl, by simpa [steps] using hforward.2⟩
    rintro _ ⟨⟩
    exact hx
  | inr x =>
    -- Only `start()` throws.
    obtain ⟨-, rfl⟩ := hforward
    simp at ha

/-- The chart as a whole: what a step leads to, whether `start()` has thrown or not. -/
theorem step_seen (hfits : Fits p v) (hgate : exchanges v = true → v.knowsExchange = true)
    {g : Stage} {e : Option (UInt32 × Exception)} {a : Act} {t : State} (hg : g.Possible p v)
    (he : ∀ x ∈ e, Reason p v x.2) (ha : a.isBeat = false)
    (h : step p v (g.seen p v e) a = some t) : Ahead p v g e t := by
  cases e with
  | none =>
    cases a with
    | start => exact ahead_of_chart hfits hgate hg (.inl rfl) h
    | frames => exact ahead_of_chart hfits hgate hg (.inr (.inl rfl)) h
    | server => exact ahead_of_chart hfits hgate hg (.inr (.inr rfl)) h
    | timeout =>
      obtain ⟨c, hc, rfl⟩ := Option.map_eq_some_iff.1 h
      obtain ⟨what, rfl⟩ := Starter.timeout_eq hc
      exact ahead_failed hg _ (.timeout what)
    | disconnect io =>
      obtain ⟨c, hc, rfl⟩ := Option.map_eq_some_iff.1 h
      obtain ⟨n, io', rfl⟩ := Starter.disconnect_eq hc
      exact ahead_failed hg n (.io io')
    | clientBeat | serverBeat => cases ha
  | some x =>
    cases a with
    | frames => exact ahead_of_failed hfits hgate hg (he x rfl) (.inl rfl) h
    | server => exact ahead_of_failed hfits hgate hg (he x rfl) (.inr rfl) h
    | start | timeout | disconnect => cases h
    | clientBeat | serverBeat => cases ha

end Stage

/-- Up to heartbeats, which come late enough, the parties are at the point `g`. -/
structure Follows (p : Parameters) (v : Server) (g : Stage) (e : Option (UInt32 × Exception))
    (s : State) : Prop where
  possible : g.Possible p v
  reason : ∀ x ∈ e, Reason p v x.2
  view : s.view = g.seen p v e
  late : beatsLate p v s.session.limits.isSome s.toServer = true

namespace Stage

theorem seen_session (g : Stage) (e : Option (UInt32 × Exception)) :
    (g.seen p v e).session = (g.state p v).session := by
  cases e <;> rfl

theorem seen_toServer (g : Stage) (e : Option (UInt32 × Exception)) :
    (g.seen p v e).toServer = (g.state p v).toServer := by
  cases e <;> rfl

theorem seen_idleHandler (g : Stage) (e : Option (UInt32 × Exception)) :
    (g.seen p v e).client.idleHandler = (g.state p v).client.idleHandler := by
  cases e <;> rfl

end Stage

namespace Follows

variable {g : Stage} {e : Option (UInt32 × Exception)} {s t : State} {a : Act}

theorem session_eq (h : Follows p v g e s) : s.session = (g.state p v).session := by
  rw [← g.seen_session e, ← h.view]
  rfl

theorem toServer_eq (h : Follows p v g e s) :
    s.toServer.filter (· ≠ .clientHeartbeatCommand) = (g.state p v).toServer := by
  rw [← g.seen_toServer e, ← h.view]
  rfl

theorem client_eq (h : Follows p v g e s) : s.client = (g.seen p v e).client := by
  rw [← h.view]
  rfl

/-- A heartbeat that the server takes comes late enough. -/
theorem limits_of_head (h : Follows p v g e s) (rest : List ClientFrame)
    (hqueue : s.toServer = .clientHeartbeatCommand :: rest) : s.session.limits.isSome = true := by
  have hlate := h.late
  rw [hqueue, beatsLate, if_pos rfl, Bool.and_eq_true] at hlate
  exact hlate.1

/-- The heartbeats stay late. -/
theorem late_step (h : Follows p v g e s) (hstep : step p v s a = some t) :
    beatsLate p v t.session.limits.isSome t.toServer = true := by
  have hsent : ∀ {fs}, .clientHeartbeatCommand ∉ fs →
      beatsLate p v s.session.limits.isSome (s.toServer ++ fs) = true := fun hfs => by
    rw [beatsLate_append, h.late, beatsLate_of_ne hfs]
    rfl
  cases a with
  | start =>
    obtain ⟨r, hr, rfl⟩ := Option.map_eq_some_iff.1 hstep
    exact hsent (Starter.start_ne_beat hr)
  | timeout =>
    obtain ⟨c, hc, rfl⟩ := Option.map_eq_some_iff.1 hstep
    exact h.late
  | disconnect io =>
    obtain ⟨c, hc, rfl⟩ := Option.map_eq_some_iff.1 hstep
    exact h.late
  | frames =>
    simp only [step] at hstep
    split at hstep <;> cases hstep
    exact hsent (Starter.handle_ne_beat _ _)
  | server =>
    simp only [step] at hstep
    split at hstep
    · cases hstep
    · rename_i f rest hqueue
      cases hstep
      refine beatsLate_tail (hqueue ▸ h.late) fun hor => Session.limits_take (p := p) ?_
      refine hor.imp_right fun hf => ⟨hf, ?_⟩
      have hhead := h.toServer_eq
      rw [hqueue, hf, List.filter_cons_of_pos (by simp [tuneAnswer])] at hhead
      rw [h.session_eq]
      exact Stage.phase_of_tuneAnswer hhead.symm
  | clientBeat =>
    simp only [step] at hstep
    split at hstep
    · rename_i hidle
      cases hstep
      rw [h.client_eq, g.seen_idleHandler e] at hidle
      rw [beatsLate_append, h.late]
      obtain hlimits | hanswer := Stage.tuneAnswer_of_idleHandler hidle
      · rw [← h.session_eq] at hlimits
        simp [beatsLate, hlimits]
      · rw [← h.toServer_eq] at hanswer
        simp [beatsLate, List.mem_of_mem_filter hanswer]
    · cases hstep
  | serverBeat =>
    simp only [step] at hstep
    split at hstep <;> cases hstep
    exact h.late

/-- **The parties follow the chart**, up to heartbeats. Each step leads forward, sends a heartbeat or
takes one. -/
theorem step (hfits : Fits p v) (hgate : exchanges v = true → v.knowsExchange = true)
    (h : Follows p v g e s) (hstep : Handshake.step p v s a = some t) :
    ∃ g' e', Follows p v g' e' t ∧
      g.steps e + t.beats + 1 ≤ g'.steps e' + s.beats + 2 * [a].countP Act.isBeat := by
  have hlate := h.late_step hstep
  cases step_view h.limits_of_head hstep with
  | sendBeat ha hview hbeats =>
    refine ⟨g, e, ⟨h.possible, h.reason, hview.trans h.view, hlate⟩, ?_⟩
    simp [ha]
    omega
  | takeBeat ha hview hbeats =>
    refine ⟨g, e, ⟨h.possible, h.reason, hview.trans h.view, hlate⟩, ?_⟩
    omega
  | move ha hmove hbeats =>
    rw [h.view] at hmove
    obtain ⟨g', e', hg', he', hview, hlt⟩ := Stage.step_seen hfits hgate h.possible h.reason ha hmove
    refine ⟨g', e', ⟨hg', he', hview, hlate⟩, ?_⟩
    omega

/-- So it is along every run, the length of which is the number of steps forward and of the heartbeats
sent and taken. -/
theorem run (hfits : Fits p v) (hgate : exchanges v = true → v.knowsExchange = true) {as : List Act}
    (h : Follows p v g e s) (hrun : (machine p v).run s as = some t) :
    ∃ g' e', Follows p v g' e' t ∧
      g.steps e + t.beats + as.length ≤ g'.steps e' + s.beats + 2 * as.countP Act.isBeat := by
  induction as generalizing g e s with
  | nil =>
    obtain rfl := Option.some.inj hrun
    exact ⟨g, e, h, by simp⟩
  | cons a as ih =>
    obtain ⟨u, hu, hrun⟩ := Machine.run_cons.1 hrun
    obtain ⟨g₁, e₁, h₁, hle₁⟩ := h.step hfits hgate hu
    obtain ⟨g₂, e₂, h₂, hle₂⟩ := ih h₁ hrun
    refine ⟨g₂, e₂, h₂, ?_⟩
    rw [show a :: as = [a] ++ as from rfl, List.countP_append, List.length_append,
      List.length_singleton]
    omega

end Follows

theorem follows_init : Follows p v .propertiesSending none (init p) :=
  ⟨trivial, by simp, rfl, rfl⟩

/-! ## The result -/

/-- The user and the password arrive, unless a byte of the user ends it early. -/
theorem parsePlain_saslBlob (h : 0 ∉ p.user) :
    parsePlain p.saslBlob = some (p.user, p.password) := by
  have huser : ∀ c ∈ p.user, (!decide (c = 0)) = true := fun c hc => by
    have hne : c ≠ 0 := fun heq => h (heq ▸ hc)
    simpa using hne
  simp [parsePlain, Parameters.saslBlob, List.takeWhile_append_of_pos huser,
    List.dropWhile_append_of_pos huser]

theorem authenticationCode_of_ok (huser : 0 ∉ p.user) (h : authCode p v = .ok) :
    v.authenticationCode p.user p.password = .ok := by
  unfold authCode Server.authenticate at h
  rw [parsePlain_saslBlob huser] at h
  split at h
  · cases h
  · exact h

/-- What both sides know when `start()` has returned. -/
structure Agreed (p : Parameters) (v : Server) (s : State) : Prop where
  opened : s.session.phase = .opened
  authenticated : 0 ∉ p.user → v.authenticationCode p.user p.password = .ok
  allowed : v.openCode p.virtualHost = .ok
  limits : s.session.limits = some (s.client.maxFrameSize, s.client.heartbeat)
  maxFrameSize : s.client.maxFrameSize = agreedFrameSize p v
  heartbeat : s.client.heartbeat = agreedHeartbeat p v
  serverProperties : s.client.serverProperties = v.properties
  connectionProperties : s.client.connectionProperties = v.connectionProperties
  versions : s.session.versions = if exchanges v then some supportedCommandVersions else none
  /-- Nothing of the handshake is left over. -/
  toServer : ∀ f ∈ s.toServer, f = .clientHeartbeatCommand
  toClient : ∀ f ∈ s.toClient, f = .heartbeat

namespace Follows

variable {g : Stage} {e : Option (UInt32 × Exception)} {s : State}

/-- `start()` returns at the last point of the chart only. -/
theorem returned (h : Follows p v g e s) (hpc : s.client.pc = .returned) :
    g = .returned ∧ e = none := by
  rw [h.client_eq] at hpc
  cases e with
  | none =>
    refine ⟨?_, rfl⟩
    cases g with
    | returned => rfl
    | authAnswered t => cases t <;> cases hpc
    | _ => cases hpc
  | some x => cases hpc

theorem agreed (h : Follows p v g e s) (hpc : s.client.pc = .returned) : Agreed p v s := by
  obtain ⟨rfl, rfl⟩ := h.returned hpc
  obtain ⟨hauth, hopen⟩ := h.possible
  have hclient : s.client = { Starter.connected p v with
    pc := .returned, correlationSequence := if exchanges v then 5 else 4 } := h.client_eq
  have hsession : s.session = if exchanges v then exchangedSession p v else openedSession p v :=
    h.session_eq
  have htoServer : s.toServer.filter (· ≠ .clientHeartbeatCommand) = [] := h.toServer_eq
  have htoClient : s.toClient.filter (· ≠ .heartbeat) = [] := congrArg State.toClient h.view
  constructor
  case authenticated => exact fun huser => authenticationCode_of_ok huser hauth
  case allowed => exact hopen
  case toServer => simpa using htoServer
  case toClient => simpa using htoClient
  all_goals cases hgate : exchanges v <;>
    simp [hclient, hsession, hgate, exchangedSession, openedSession, hopen, Starter.connected,
      Starter.limited, Starter.aware]

/-- Until `start()` is over, one of the parties can go on. -/
theorem progress (hfits : Fits p v) (h : Follows p v g e s) (hpc : s.client.pc ≠ .returned)
    (hthrew : ∀ x, s.client.pc ≠ .threw x) :
    ∃ a ∈ [Act.start, .frames, .server], (Handshake.step p v s a).isSome = true := by
  cases hserver : s.toServer with
  | cons f rest => exact ⟨.server, by simp, by simp [Handshake.step, hserver]⟩
  | nil =>
    cases hclient : s.toClient with
    | cons f rest => exact ⟨.frames, by simp, by simp [Handshake.step, hclient]⟩
    | nil =>
      have hview : s = g.seen p v e := by
        rw [← h.view, State.view, hserver, hclient]
        cases s
        simp_all
      cases e with
      | some x => exact absurd (congrArg (·.client.pc) hview) (hthrew x.2)
      | none =>
        refine ⟨.start, by simp, ?_⟩
        rw [hview, Stage.seen, Stage.step_start_state hfits h.possible, Option.isSome_map]
        have hne : g ≠ .returned := by
          rintro rfl
          exact hpc (congrArg (·.client.pc) hview)
        have hs : s.toServer = (g.state p v).toServer := congrArg State.toServer hview
        have hc : s.toClient = (g.state p v).toClient := congrArg State.toClient hview
        exact Stage.next_start_isSome hne (hs ▸ hserver) (hc ▸ hclient)

/-- `start()` throws for a reason. -/
theorem reason_of_threw (h : Follows p v g e s) {x : Exception} (hpc : s.client.pc = .threw x) :
    Reason p v x := by
  rw [h.client_eq] at hpc
  cases e with
  | none =>
    cases g with
    | authAnswered t => cases t <;> cases hpc
    | _ => cases hpc
  | some y =>
    obtain rfl : y.2 = x := by injection hpc
    exact h.reason y rfl

theorem not_escaped (h : Follows p v g e s) : s.client.escaped = false := by
  rw [h.client_eq]
  cases e <;> exact g.not_escaped

end Follows

/-- **The handshake.** A client whose frames fit meets a server that announces its version truthfully.
In every interleaving, with heartbeats of both sides and with failures of `start()`:
* the server never gets anything out of order, and no promise of the client is set twice;
* if `start()` returns, the two sides agree, and the versions were exchanged if the server's allows it;
* if `start()` throws, then for a timeout, a lost connection or a refusal;
* until then one of `start()`, the frame thread and the server can go on, and there are at most 25 steps
  beside the sending and the taking of heartbeats. -/
theorem handshake_agrees (p : Parameters) (v : Server) (hfits : Fits p v)
    (hgate : exchanges v = true → v.knowsExchange = true) (as : List Act) (s : State)
    (h : (machine p v).run (init p) as = some s) :
    s.session.violated = false ∧ s.client.escaped = false ∧
      (s.client.pc = .returned → Agreed p v s) ∧
      (∀ e, s.client.pc = .threw e → Reason p v e) ∧
      (s.client.pc ≠ .returned → (∀ e, s.client.pc ≠ .threw e) →
        ∃ a ∈ [Act.start, .frames, .server], (step p v s a).isSome = true) ∧
      as.length ≤ 25 + 2 * as.countP Act.isBeat := by
  obtain ⟨g, e, hs, hlength⟩ := follows_init.run hfits hgate h
  refine ⟨?_, hs.not_escaped, hs.agreed, fun e => hs.reason_of_threw, hs.progress hfits, ?_⟩
  · rw [hs.session_eq]
    exact g.not_violated
  · have hrank := g.rank_le
    have hthrew : e.toList.length ≤ 1 := by cases e <;> simp
    have hinit : (init p).beats = 0 := rfl
    simp only [Stage.steps, hinit] at hlength
    omega

/-- The user `u` with an empty password, and no limits of their own. -/
def guest : Parameters := ⟨[117], [], [47], [], 0, 60⟩

/-- A server of the version 3.11.0. -/
def recent : Server where
  properties := StringMap.insert ∅ (Versions.versionKey, [51, 46, 49, 49, 46, 48])
  mechanisms := [plain]
  authenticationCode := fun user _ => if user = [117] then .ok else .authenticationFailure
  limits := ⟨1048576, 30⟩
  openCode := fun _ => .ok
  connectionProperties := ∅
  knowsExchange := true
  exchangeCode := .ok
  commandVersions := []

/-- The request to open is sent before the server has the answer to its tune frame, and heartbeats
come in between. -/
def earlyOpen : List Act :=
  [.start, .server, .frames, .start, .start, .server, .frames, .start, .start, .server, .frames,
    .frames, .start, .start, .start, .clientBeat, .server, .serverBeat, .server, .server, .frames,
    .frames, .start, .start, .server, .frames, .start, .start]

theorem handshake_agrees_earlyOpen :
    ∃ s, (machine guest recent).run (init guest) earlyOpen = some s ∧ s.client.pc = .returned ∧
      Agreed guest recent s := by
  have hfits : Fits guest recent :=
    ⟨⟨_, rfl⟩, ⟨_, rfl⟩, ⟨_, rfl⟩, ⟨_, rfl⟩, ⟨_, rfl⟩, ⟨_, rfl⟩⟩
  refine ⟨_, rfl, rfl, ?_⟩
  exact (handshake_agrees guest recent hfits (fun _ => rfl) earlyOpen _ rfl).2.2.1 rfl

end

end Hareflow.Client.Handshake
