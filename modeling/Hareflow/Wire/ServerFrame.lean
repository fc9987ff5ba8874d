import Hareflow.Wire.Peer

/-!
# What the peer writes

The frames of the server, as the broker writes them; the source has only their readers. `ServerFrame`
lists them with their fields, `ServerFrame.encode` gives the bytes, and for each class there is the
lemma that its `read_body` reads the fields back, whatever follows.

A response carries the key of its request with the top bit set. The class of its body goes with the
key (`ResponseBody.keys`), and a body of the wrong class is not a frame.
-/

namespace Hareflow.Wire

open BinaryBuffer

/-! ## Commands and requests -/

namespace PublishConfirmCommand

def encodeBody (c : PublishConfirmCommand) : Bytes :=
  [c.publisherId] ++ encodeArray (fun id => bigEndian 8 id.toNat) c.sequences

theorem readBody_reads {c : PublishConfirmCommand} (h : c.sequences.length ≤ int32Max) :
    Reads readBody c.encodeBody c :=
  (Reads.readByte _).bind <| (Reads.readArray h fun id _ => Reads.readUlong id).map
    (PublishConfirmCommand.mk c.publisherId)

end PublishConfirmCommand

def PublishingError.encode (e : PublishingError) : Bytes :=
  bigEndian 8 e.sequence.toNat ++ bigEndian 2 e.code.toNat

namespace PublishErrorCommand

def encodeBody (c : PublishErrorCommand) : Bytes :=
  [c.publisherId] ++ encodeArray PublishingError.encode c.publishingErrors

theorem readBody_reads {c : PublishErrorCommand} (h : c.publishingErrors.length ≤ int32Max) :
    Reads readBody c.encodeBody c :=
  (Reads.readByte _).bind <| (Reads.readArray h fun e _ => (Reads.readUlong e.sequence).bind <|
    (Reads.readUshort e.code).map (PublishingError.mk e.sequence)).map
      (PublishErrorCommand.mk c.publisherId)

end PublishErrorCommand

namespace CreditErrorCommand

def encodeBody (c : CreditErrorCommand) : Bytes :=
  bigEndian 2 c.responseCode.value.toNat ++ [c.subscriptionId]

theorem readBody_reads (c : CreditErrorCommand) : Reads readBody c.encodeBody c :=
  (Reads.readUshort _).bind <| (Reads.readByte _).map (CreditErrorCommand.mk c.responseCode)

end CreditErrorCommand

namespace MetadataUpdateCommand

/-- The name of the stream follows one of the codes only. -/
def encodeBody (c : MetadataUpdateCommand) : Bytes :=
  bigEndian 2 c.responseCode.value.toNat ++
    if c.responseCode = .streamNotAvailable then encodeString c.streamName else []

/-- A name stands only where it is written. -/
def WellFormed (c : MetadataUpdateCommand) : Prop :=
  c.responseCode ≠ .streamNotAvailable → c.streamName = []

theorem readBody_reads {c : MetadataUpdateCommand} (hname : c.streamName.length ≤ int16Max)
    (hwell : c.WellFormed) : Reads readBody c.encodeBody c := by
  obtain ⟨⟨code⟩, name⟩ := c
  refine (Reads.readUshort code).bind ?_
  by_cases hcode : ResponseCode.mk code = .streamNotAvailable
  · simp only [if_pos hcode]
    exact (Reads.readString hname).map (MetadataUpdateCommand.mk ⟨code⟩)
  · obtain rfl : name = [] := hwell hcode
    simp only [if_neg hcode, pure_bind]
    exact Reads.pure _

end MetadataUpdateCommand

namespace ServerTuneCommand

def encodeBody (c : ServerTuneCommand) : Bytes :=
  bigEndian 4 c.frameSize.toNat ++ bigEndian 4 c.heartbeat.toNat

theorem readBody_reads (c : ServerTuneCommand) : Reads readBody c.encodeBody c :=
  (Reads.readUint _).bind <| (Reads.readUint _).map (ServerTuneCommand.mk c.frameSize)

end ServerTuneCommand

namespace ServerCloseRequest

/-- The correlation id of the header, and the body. -/
def encode (r : ServerCloseRequest) : Bytes :=
  bigEndian 4 r.correlationId.toNat ++
    (bigEndian 2 r.closingCode.toNat ++ encodeString r.closingReason)

theorem deserialize_reads {r : ServerCloseRequest} (h : r.closingReason.length ≤ int16Max) :
    Reads deserialize r.encode r :=
  (Reads.readUint _).bind <| (Reads.readUshort _).bind <|
    (Reads.readString h).map (ServerCloseRequest.mk r.correlationId r.closingCode)

end ServerCloseRequest

/-! ## Responses -/

def Broker.encode (b : Broker) : Bytes :=
  bigEndian 2 b.reference.toNat ++ (encodeString b.host ++ bigEndian 4 b.port.toNat)

theorem Broker.read_reads {b : Broker} (h : b.host.length ≤ int16Max) :
    Reads Broker.read b.encode b :=
  (Reads.readUshort _).bind <| (Reads.readString h).bind <|
    (Reads.readUint _).map (Broker.mk b.reference b.host)

def StreamMetadata.encode (m : StreamMetadata) : Bytes :=
  encodeString m.streamName ++ (bigEndian 2 m.code.toNat ++ (bigEndian 2 m.leader.toNat ++
    encodeArray (fun reference => bigEndian 2 reference.toNat) m.replicas))

theorem StreamMetadata.read_reads {m : StreamMetadata} (hname : m.streamName.length ≤ int16Max)
    (hreplicas : m.replicas.length ≤ int32Max) : Reads StreamMetadata.read m.encode m :=
  (Reads.readString hname).bind <| (Reads.readUshort _).bind <| (Reads.readUshort _).bind <|
    (Reads.readArray hreplicas fun reference _ => Reads.readUshort reference).map
      (StreamMetadata.mk m.streamName m.code m.leader)

namespace ResponseBody

/-- The commands that a body is the answer to. -/
def keys : ResponseBody → List CommandKey
  | generic _ =>
    [.subscribe, .unsubscribe, .declarePublisher, .deletePublisher, .create, .delete, .close]
  | queryPublisherSequence .. => [.queryPublisherSequence]
  | queryOffset .. => [.queryOffset]
  | metadata .. => [.metadata]
  | peerProperties .. => [.peerProperties]
  | saslHandshake .. => [.saslHandshake]
  | saslAuthenticate .. => [.saslAuthenticate]
  | «open» .. => [.open]
  | exchangeCommandVersions .. => [.exchangeCommandVersions]

def encode : ResponseBody → Bytes
  | generic code => bigEndian 2 code.value.toNat
  | queryPublisherSequence code sequence =>
    bigEndian 2 code.value.toNat ++ bigEndian 8 sequence.toNat
  | queryOffset code offset => bigEndian 2 code.value.toNat ++ bigEndian 8 offset.toNat
  | metadata brokers streamMetadata =>
    encodeArray Broker.encode brokers ++ encodeArray StreamMetadata.encode streamMetadata
  | peerProperties code properties =>
    bigEndian 2 code.value.toNat ++ encodeArray encodeProperty properties.entries
  | saslHandshake code mechanisms =>
    bigEndian 2 code.value.toNat ++ encodeArray encodeString mechanisms
  | saslAuthenticate code saslOpaqueData =>
    bigEndian 2 code.value.toNat ++ if code = .saslChallenge then encodeBlob saslOpaqueData else []
  | «open» code connectionProperties =>
    bigEndian 2 code.value.toNat ++ encodeArray encodeProperty connectionProperties.entries
  | exchangeCommandVersions code commandVersions =>
    bigEndian 2 code.value.toNat ++ encodeArray CommandVersion.encode commandVersions

/-- The strings among the fields of a body. -/
def strings : ResponseBody → List Bytes
  | metadata brokers streamMetadata =>
    brokers.map Broker.host ++ streamMetadata.map StreamMetadata.streamName
  | peerProperties _ properties | «open» _ properties =>
    properties.entries.flatMap fun p => [p.1, p.2]
  | saslHandshake _ mechanisms => mechanisms
  | _ => []

/-- The lengths of the arrays and blobs among the fields of a body. -/
def lengths : ResponseBody → List ℕ
  | metadata brokers streamMetadata =>
    brokers.length :: streamMetadata.length :: streamMetadata.map fun m => m.replicas.length
  | peerProperties _ properties | «open» _ properties => [properties.entries.length]
  | saslHandshake _ mechanisms => [mechanisms.length]
  | saslAuthenticate _ saslOpaqueData => [saslOpaqueData.length]
  | exchangeCommandVersions _ commandVersions => [commandVersions.length]
  | _ => []

/-- Everything is short enough for its length field, and a challenge stands only where it is written. -/
structure WellFormed (body : ResponseBody) : Prop where
  strings : ∀ s ∈ body.strings, s.length ≤ int16Max
  lengths : ∀ n ∈ body.lengths, n ≤ int32Max
  challenge : ∀ code data, body = .saslAuthenticate code data → code ≠ .saslChallenge → data = []

theorem readMetadata_reads {brokers : List Broker} {streamMetadata : List StreamMetadata}
    (h : (metadata brokers streamMetadata).WellFormed) :
    Reads readMetadata (metadata brokers streamMetadata).encode (metadata brokers streamMetadata) := by
  obtain ⟨hstrings, hlengths, -⟩ := h
  simp only [strings, List.forall_mem_append, List.forall_mem_map] at hstrings
  simp only [lengths, List.forall_mem_cons, List.forall_mem_map] at hlengths
  exact (Reads.readArray hlengths.1 fun b hb => Broker.read_reads (hstrings.1 b hb)).bind <|
    (Reads.readArray hlengths.2.1 fun m hm =>
      StreamMetadata.read_reads (hstrings.2 m hm) (hlengths.2.2 m hm)).map (metadata brokers)

/-- A code and a map of properties. -/
theorem codeProperties_reads {properties : StringMap}
    {body : ResponseCode → StringMap → ResponseBody} (code : ResponseCode)
    (hstrings : ∀ s ∈ properties.entries.flatMap fun p => [p.1, p.2], s.length ≤ int16Max)
    (hlength : properties.entries.length ≤ int32Max) :
    Reads (do
      let responseCode ← readUshort
      let properties ← StringMap.read
      return body ⟨responseCode⟩ properties)
      (bigEndian 2 code.value.toNat ++ encodeArray encodeProperty properties.entries)
      (body code properties) := by
  refine (Reads.readUshort _).bind <| (StringMap.read_reads hlength fun p hp => ?_).map (body code)
  exact ⟨hstrings _ (List.mem_flatMap.2 ⟨p, hp, by simp⟩),
    hstrings _ (List.mem_flatMap.2 ⟨p, hp, by simp⟩)⟩

theorem readSaslAuthenticate_reads {code : ResponseCode} {data : Bytes}
    (h : (saslAuthenticate code data).WellFormed) :
    Reads readSaslAuthenticate (saslAuthenticate code data).encode (saslAuthenticate code data) := by
  obtain ⟨code⟩ := code
  refine (Reads.readUshort code).bind ?_
  by_cases hcode : ResponseCode.mk code = .saslChallenge
  · simp only [if_pos hcode]
    exact (Reads.readBlob (h.lengths _ (by simp [lengths]))).map (saslAuthenticate ⟨code⟩)
  · obtain rfl : data = [] := h.challenge ⟨code⟩ data rfl hcode
    simp only [if_neg hcode, pure_bind]
    exact Reads.pure _

end ResponseBody

/-! ## Frames -/

inductive ServerFrame
  | publishConfirm (command : PublishConfirmCommand)
  | publishError (command : PublishErrorCommand)
  | deliver (version : UInt16) (command : DeliverCommand)
  | creditError (command : CreditErrorCommand)
  | metadataUpdate (command : MetadataUpdateCommand)
  | tune (command : ServerTuneCommand)
  | close (request : ServerCloseRequest)
  | heartbeat
  | response (key : CommandKey) (correlationId : UInt32) (body : ResponseBody)
  deriving DecidableEq, Repr

namespace ServerFrame

/-- The key of the command. -/
def command : ServerFrame → CommandKey
  | publishConfirm _ => .publishConfirm
  | publishError _ => .publishError
  | deliver .. => .deliver
  | creditError _ => .credit
  | metadataUpdate _ => .metadataUpdate
  | tune _ => .tune
  | close _ => .close
  | heartbeat => .heartbeat
  | response key .. => key

def isResponse : ServerFrame → Bool
  | response .. => true
  | _ => false

/-- The key on the wire; a response has the top bit set. -/
def key (f : ServerFrame) : UInt16 :=
  if f.isResponse then f.command.toUInt16 ||| 0x8000 else f.command.toUInt16

def version : ServerFrame → UInt16
  | deliver version _ => version
  | _ => 1

def encodeBody : ServerFrame → Bytes
  | publishConfirm command => command.encodeBody
  | publishError command => command.encodeBody
  | deliver _ command => command.encodeBody
  | creditError command => command.encodeBody
  | metadataUpdate command => command.encodeBody
  | tune command => command.encodeBody
  | close request => request.encode
  | heartbeat => []
  | response _ correlationId body => bigEndian 4 correlationId.toNat ++ body.encode

/-- The bytes of a frame after its length prefix. -/
def encode (f : ServerFrame) : Bytes :=
  bigEndian 2 f.key.toNat ++ (bigEndian 2 f.version.toNat ++ f.encodeBody)

/-- A frame that a broker sends: of a version that was negotiated, with fields that are short enough
for their length fields. -/
def WellFormed : ServerFrame → Prop
  | publishConfirm command => command.sequences.length ≤ int32Max
  | publishError command => command.publishingErrors.length ≤ int32Max
  | deliver version command => (version = 1 ∨ version = 2) ∧ command.WellFormed version
  | metadataUpdate command => command.streamName.length ≤ int16Max ∧ command.WellFormed
  | close request => request.closingReason.length ≤ int16Max
  | response key _ body => key ∈ body.keys ∧ body.WellFormed
  | creditError _ | tune _ | heartbeat => True

end ServerFrame

end Hareflow.Wire
