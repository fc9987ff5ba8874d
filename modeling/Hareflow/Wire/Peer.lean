import Hareflow.Wire.ServerCommands
import Hareflow.Wire.StringMap

/-!
# What the peer reads

The frames of the client are for the broker, and only their writers are in the source. `ClientFrame.read`
is the reader that the layout of the frames is meant for: the key, the version and, for a request or a
response, the correlation id, then the fields in the order of their declaration. It says what the frames
mean, and `ClientFrame.read_reads` that they mean it: what is written is read back, whatever follows.

The offset of an offset specification is on the wire only if its type calls for one. For the other types
it is zero in every specification that can be made.
-/

namespace Hareflow.Wire

open BinaryBuffer

def PublishCommand.Message.read : Reader PublishCommand.Message := do
  let publishingId ← readUlong
  let body ← readBlob
  return ⟨publishingId, body⟩

def OffsetSpecification.read : Reader OffsetSpecification := do
  let type ← readUshort
  let offset ← if type == offsetOffset || type == offsetTimestamp then readUlong else pure 0
  return ⟨type, offset⟩

/-- A specification as the factory functions of the class make them. -/
def OffsetSpecification.WellFormed (o : OffsetSpecification) : Prop :=
  (o.isOffset || o.isTimestamp) = false → o.offset = 0

instance (o : OffsetSpecification) : Decidable o.WellFormed :=
  inferInstanceAs (Decidable ((o.isOffset || o.isTimestamp) = false → o.offset = 0))

namespace ClientFrame

/-- What follows the key and the version. -/
def readRest (key : UInt16) : Reader ClientFrame :=
  match key with
  | 0x0001 => do
    let correlationId ← readUint
    let publisherId ← readByte
    let publisherName ← readString
    let streamName ← readString
    return declarePublisherRequest correlationId publisherId publisherName streamName
  | 0x0002 => do
    let publisherId ← readByte
    let messages ← readArray PublishCommand.Message.read
    return publishCommand ⟨publisherId, messages⟩
  | 0x0005 => do
    let correlationId ← readUint
    let publisherName ← readString
    let streamName ← readString
    return queryPublisherSequenceRequest correlationId publisherName streamName
  | 0x0006 => do
    let correlationId ← readUint
    let publisherId ← readByte
    return deletePublisherRequest correlationId publisherId
  | 0x0007 => do
    let correlationId ← readUint
    let subscriptionId ← readByte
    let streamName ← readString
    let offset ← OffsetSpecification.read
    let credit ← readUshort
    let properties ← readArray readProperty
    return subscribeRequest correlationId subscriptionId streamName offset credit properties
  | 0x0009 => do
    let subscriptionId ← readByte
    let credit ← readUshort
    return creditCommand subscriptionId credit
  | 0x000a => do
    let reference ← readString
    let streamName ← readString
    let offset ← readUlong
    return storeOffsetCommand reference streamName offset
  | 0x000b => do
    let correlationId ← readUint
    let reference ← readString
    let streamName ← readString
    return queryOffsetRequest correlationId reference streamName
  | 0x000c => do
    let correlationId ← readUint
    let subscriptionId ← readByte
    return unsubscribeRequest correlationId subscriptionId
  | 0x000d => do
    let correlationId ← readUint
    let streamName ← readString
    let arguments ← readArray readProperty
    return createRequest correlationId streamName arguments
  | 0x000e => do
    let correlationId ← readUint
    let streamName ← readString
    return deleteRequest correlationId streamName
  | 0x000f => do
    let correlationId ← readUint
    let streamNames ← readArray readString
    return metadataRequest correlationId streamNames
  | 0x0011 => do
    let correlationId ← readUint
    let properties ← readArray readProperty
    return peerPropertiesRequest correlationId properties
  | 0x0012 => do
    let correlationId ← readUint
    return saslHandshakeRequest correlationId
  | 0x0013 => do
    let correlationId ← readUint
    let mechanism ← readString
    let saslOpaqueData ← readBlob
    return saslAuthenticateRequest correlationId mechanism saslOpaqueData
  | 0x8014 => do
    let frameSize ← readUint
    let heartbeat ← readUint
    return clientTuneCommand frameSize heartbeat
  | 0x0015 => do
    let correlationId ← readUint
    let virtualHost ← readString
    return openRequest correlationId virtualHost
  | 0x0016 => do
    let correlationId ← readUint
    let code ← readUshort
    let reason ← readString
    return clientCloseRequest correlationId code reason
  | 0x8016 => do
    let correlationId ← readUint
    let responseCode ← readUshort
    return clientCloseResponse correlationId responseCode
  | 0x0017 => return clientHeartbeatCommand
  | 0x001b => do
    let correlationId ← readUint
    let commandVersions ← readArray CommandVersion.read
    return exchangeCommandVersionsRequest correlationId commandVersions
  | _ => throw (.stream "Unknown command")

/-- A frame after its length prefix. -/
def read : Reader ClientFrame := do
  let key ← readUshort
  let version ← readUshort
  if version = ClientCommand.version then readRest key else throw (.stream "Unknown version")

/-- The frame says everything that it has in its fields. -/
def WellFormed : ClientFrame → Prop
  | subscribeRequest _ _ _ offset _ _ => offset.WellFormed
  | _ => True

end ClientFrame

/-! ## What is written is read back -/

theorem PublishCommand.Message.read_reads {m : PublishCommand.Message}
    (h : m.body.length ≤ int32Max) : Reads Message.read m.encode m :=
  (Reads.readUlong _).bind ((Reads.readBlob h).map (PublishCommand.Message.mk m.publishingId))

theorem OffsetSpecification.read_reads {o : OffsetSpecification} (h : o.WellFormed) :
    Reads OffsetSpecification.read (bigEndian 2 o.type.toNat ++
      if o.isOffset || o.isTimestamp then bigEndian 8 o.offset.toNat else []) o := by
  refine (Reads.readUshort o.type).bind ?_
  cases hcond : o.isOffset || o.isTimestamp with
  | true =>
    have htype : (o.type == offsetOffset || o.type == offsetTimestamp) = true := hcond
    simp only [htype, if_true]
    exact (Reads.readUlong o.offset).map (OffsetSpecification.mk o.type)
  | false =>
    have htype : (o.type == offsetOffset || o.type == offsetTimestamp) = false := hcond
    simp only [htype, Bool.false_eq_true, if_false, pure_bind]
    have hzero : o = ⟨o.type, 0⟩ := by
      rw [← h hcond]
    rw [hzero]
    exact Reads.pure _

theorem CommandVersion.read_reads (v : CommandVersion) : Reads CommandVersion.read v.encode v :=
  (Reads.readUshort _).bind <| (Reads.readUshort _).bind <|
    (Reads.readUshort _).map (CommandVersion.mk v.key v.minVersion)

theorem readProperties_reads {ps : Properties} (hlen : ps.length ≤ int32Max)
    (h : ∀ p ∈ ps, p.1.length ≤ int16Max ∧ p.2.length ≤ int16Max) :
    Reads (readArray readProperty) (encodeArray encodeProperty ps) ps :=
  Reads.readArray hlen fun p hp => readProperty_reads (h p hp).1 (h p hp).2

namespace ClientFrame

/-- The correlation id, if the frame has one, and the fields. -/
def encodeRest (f : ClientFrame) : Bytes :=
  (match f.correlationId with
    | none => []
    | some id => bigEndian 4 id.toNat) ++ f.encodeBody

theorem encode_eq (f : ClientFrame) : f.encode =
    bigEndian 2 f.key.toNat ++ (bigEndian 2 ClientCommand.version.toNat ++ f.encodeRest) := by
  simp only [encode, encodeHeader, encodeRest]
  cases f.correlationId <;> simp

/-- The fields of a frame are read back in their order. -/
theorem readRest_reads {f : ClientFrame} (hfits : f.Fits) (hwell : f.WellFormed) :
    Reads (readRest f.key) f.encodeRest f := by
  obtain ⟨hstrings, hblobs, harrays⟩ := hfits
  have hid := Reads.readUint
  cases f with
  | declarePublisherRequest id publisherId publisherName streamName =>
    simp only [strings, List.forall_mem_cons] at hstrings
    exact (hid id).bind <| (Reads.readByte _).bind <| (Reads.readString hstrings.1).bind <|
      (Reads.readString hstrings.2.1).map (declarePublisherRequest id publisherId publisherName)
  | publishCommand c =>
    simp only [blobs, List.forall_mem_map] at hblobs
    simp only [arrayLengths, List.forall_mem_singleton] at harrays
    exact (Reads.readByte _).bind <|
      (Reads.readArray harrays fun m hm => PublishCommand.Message.read_reads (hblobs m hm)).map
        fun messages => publishCommand ⟨c.publisherId, messages⟩
  | queryPublisherSequenceRequest id publisherName streamName =>
    simp only [strings, List.forall_mem_cons] at hstrings
    exact (hid id).bind <| (Reads.readString hstrings.1).bind <|
      (Reads.readString hstrings.2.1).map (queryPublisherSequenceRequest id publisherName)
  | deletePublisherRequest id publisherId =>
    exact (hid id).bind <| (Reads.readByte _).map (deletePublisherRequest id)
  | subscribeRequest id subscriptionId streamName offset credit properties =>
    simp only [strings, List.forall_mem_cons, Properties.forall_mem_strings] at hstrings
    simp only [arrayLengths, List.forall_mem_singleton] at harrays
    -- the type and the offset are read as one
    have hbytes : (subscribeRequest id subscriptionId streamName offset credit properties).encodeRest =
        bigEndian 4 id.toNat ++ ([subscriptionId] ++ (encodeString streamName ++
          ((bigEndian 2 offset.type.toNat ++
            if offset.isOffset || offset.isTimestamp then bigEndian 8 offset.offset.toNat else []) ++
          (bigEndian 2 credit.toNat ++ encodeArray encodeProperty properties)))) := by
      simp [encodeRest, encodeBody, correlationId]
    rw [hbytes]
    exact (hid id).bind <| (Reads.readByte _).bind <| (Reads.readString hstrings.1).bind <|
      (OffsetSpecification.read_reads hwell).bind <| (Reads.readUshort _).bind <|
      (readProperties_reads harrays hstrings.2).map
        (subscribeRequest id subscriptionId streamName offset credit)
  | creditCommand subscriptionId credit =>
    exact (Reads.readByte _).bind <| (Reads.readUshort _).map (creditCommand subscriptionId)
  | storeOffsetCommand reference streamName offset =>
    simp only [strings, List.forall_mem_cons] at hstrings
    exact (Reads.readString hstrings.1).bind <| (Reads.readString hstrings.2.1).bind <|
      (Reads.readUlong _).map (storeOffsetCommand reference streamName)
  | queryOffsetRequest id reference streamName =>
    simp only [strings, List.forall_mem_cons] at hstrings
    exact (hid id).bind <| (Reads.readString hstrings.1).bind <|
      (Reads.readString hstrings.2.1).map (queryOffsetRequest id reference)
  | unsubscribeRequest id subscriptionId =>
    exact (hid id).bind <| (Reads.readByte _).map (unsubscribeRequest id)
  | createRequest id streamName arguments =>
    simp only [strings, List.forall_mem_cons, Properties.forall_mem_strings] at hstrings
    simp only [arrayLengths, List.forall_mem_singleton] at harrays
    exact (hid id).bind <| (Reads.readString hstrings.1).bind <|
      (readProperties_reads harrays hstrings.2).map (createRequest id streamName)
  | deleteRequest id streamName =>
    simp only [strings, List.forall_mem_singleton] at hstrings
    exact (hid id).bind <| (Reads.readString hstrings).map (deleteRequest id)
  | metadataRequest id streamNames =>
    simp only [arrayLengths, List.forall_mem_singleton] at harrays
    exact (hid id).bind <|
      (Reads.readArray harrays fun s hs => Reads.readString (hstrings s hs)).map (metadataRequest id)
  | peerPropertiesRequest id properties =>
    simp only [strings, Properties.forall_mem_strings] at hstrings
    simp only [arrayLengths, List.forall_mem_singleton] at harrays
    exact (hid id).bind <| (readProperties_reads harrays hstrings).map (peerPropertiesRequest id)
  | saslHandshakeRequest id => exact (hid id).map saslHandshakeRequest
  | saslAuthenticateRequest id mechanism saslOpaqueData =>
    simp only [strings, List.forall_mem_singleton] at hstrings
    simp only [blobs, List.forall_mem_singleton] at hblobs
    exact (hid id).bind <| (Reads.readString hstrings).bind <|
      (Reads.readBlob hblobs).map (saslAuthenticateRequest id mechanism)
  | clientTuneCommand frameSize heartbeat =>
    exact (hid frameSize).bind <| (hid heartbeat).map (clientTuneCommand frameSize)
  | openRequest id virtualHost =>
    simp only [strings, List.forall_mem_singleton] at hstrings
    exact (hid id).bind <| (Reads.readString hstrings).map (openRequest id)
  | clientCloseRequest id code reason =>
    simp only [strings, List.forall_mem_singleton] at hstrings
    exact (hid id).bind <| (Reads.readUshort _).bind <|
      (Reads.readString hstrings).map (clientCloseRequest id code)
  | clientCloseResponse id responseCode =>
    exact (hid id).bind <| (Reads.readUshort _).map (clientCloseResponse id)
  | clientHeartbeatCommand => exact Reads.pure _
  | exchangeCommandVersionsRequest id commandVersions =>
    simp only [arrayLengths, List.forall_mem_singleton] at harrays
    exact (hid id).bind <| (Reads.readArray harrays fun v _ => CommandVersion.read_reads v).map
      (exchangeCommandVersionsRequest id)

/-- A frame within its limits is read back, whatever follows it. -/
theorem read_reads {f : ClientFrame} (hfits : f.Fits) (hwell : f.WellFormed) :
    Reads read f.encode f := by
  rw [encode_eq]
  refine (Reads.readUshort _).bind ((Reads.readUshort _).bind ?_)
  rw [if_pos rfl]
  exact readRest_reads hfits hwell

end ClientFrame

end Hareflow.Wire
