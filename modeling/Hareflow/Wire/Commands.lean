import Mathlib.Algebra.Order.BigOperators.Group.List
import Mathlib.Algebra.Order.Ring.Nat
import Hareflow.Wire.PublishCommand

/-!
# The frames of the client

Every command, request and response that the client sends. `ClientFrame` has one constructor for
each class, with the fields of the class; its key, the size of its body and the writer of its body
are the functions of the class. The size and the writer are written separately in the source, and
the length prefix of a frame is the former.

`ClientFrame.encodeBody` is the byte string of a body. `ClientFrame.writeBody_encodes` says that the
writer appends it when the strings, the blobs and the arrays of the frame are within their limits,
and `ClientFrame.length_encodeBody` that the announced size is its length.
-/

namespace Hareflow.Wire

open BinaryBuffer

/-- `ClientRequestOrResponse`: a command with a correlation id in its header. -/
structure ClientRequestOrResponse where
  key : UInt16
  correlationId : UInt32
  bodySize : ℕ
  writeBody : Writer

namespace ClientRequestOrResponse

/-- The two bytes of the key, the two of the version and the four of the correlation id. -/
def headerSize : ℕ := 2 + 2 + 4

def writeHeader (r : ClientRequestOrResponse) : Writer := fun b => do
  let b ← b.writeUshort r.key
  let b ← b.writeUshort ClientCommand.version
  b.writeUint r.correlationId

def toSerializable (r : ClientRequestOrResponse) : Serializable where
  serializedSize := headerSize + r.bodySize
  serialize := fun b => do
    let b ← r.writeHeader b
    r.writeBody b

end ClientRequestOrResponse

/-! ## The fields -/

/-- A `std::string` or a blob. -/
abbrev Bytes := List UInt8

/-- `Properties`: the entries of the map in the order of its iteration. -/
abbrev Properties := List (Bytes × Bytes)

/-- The keys and values of a map. -/
def Properties.strings (ps : Properties) : List Bytes := ps.flatMap fun p => [p.1, p.2]

@[simp] theorem Properties.forall_mem_strings {ps : Properties} {P : Bytes → Prop} :
    (∀ s ∈ ps.strings, P s) ↔ ∀ p ∈ ps, P p.1 ∧ P p.2 := by
  simp only [strings, List.forall_mem_flatMap, List.forall_mem_cons]
  simp

def writeProperty (p : Bytes × Bytes) : Writer := fun b => do
  let b ← b.writeString p.1
  b.writeString p.2

def propertySize (p : Bytes × Bytes) : ℕ := serializedSizeString p.1 + serializedSizeString p.2

/-- `OffsetSpecification` as it goes over the wire. -/
structure OffsetSpecification where
  type : UInt16
  offset : UInt64
  deriving DecidableEq, Repr

/-- `OFFSET_OFFSET`. -/
def OffsetSpecification.offsetOffset : UInt16 := 4

/-- `OFFSET_TIMESTAMP`. -/
def OffsetSpecification.offsetTimestamp : UInt16 := 5

def OffsetSpecification.isOffset (o : OffsetSpecification) : Bool := o.type == offsetOffset

def OffsetSpecification.isTimestamp (o : OffsetSpecification) : Bool := o.type == offsetTimestamp

/-- The conditional field of `SubscribeRequest::write_body`. -/
def OffsetSpecification.writeOffset (o : OffsetSpecification) : Writer := fun b =>
  if o.isOffset || o.isTimestamp then b.writeUlong o.offset else .ok b

structure CommandVersion where
  key : UInt16
  minVersion : UInt16
  maxVersion : UInt16
  deriving DecidableEq, Repr

def CommandVersion.write (v : CommandVersion) : Writer := fun b => do
  let b ← b.writeUshort v.key
  let b ← b.writeUshort v.minVersion
  b.writeUshort v.maxVersion

/-! ## The frames -/

/-- The client commands, requests and responses with their fields. -/
inductive ClientFrame
  | declarePublisherRequest (correlationId : UInt32) (publisherId : UInt8)
      (publisherName streamName : Bytes)
  | publishCommand (command : PublishCommand)
  | queryPublisherSequenceRequest (correlationId : UInt32) (publisherName streamName : Bytes)
  | deletePublisherRequest (correlationId : UInt32) (publisherId : UInt8)
  | subscribeRequest (correlationId : UInt32) (subscriptionId : UInt8) (streamName : Bytes)
      (offset : OffsetSpecification) (credit : UInt16) (properties : Properties)
  | creditCommand (subscriptionId : UInt8) (credit : UInt16)
  | storeOffsetCommand (reference streamName : Bytes) (offset : UInt64)
  | queryOffsetRequest (correlationId : UInt32) (reference streamName : Bytes)
  | unsubscribeRequest (correlationId : UInt32) (subscriptionId : UInt8)
  | createRequest (correlationId : UInt32) (streamName : Bytes) (arguments : Properties)
  | deleteRequest (correlationId : UInt32) (streamName : Bytes)
  | metadataRequest (correlationId : UInt32) (streamNames : List Bytes)
  | peerPropertiesRequest (correlationId : UInt32) (properties : Properties)
  | saslHandshakeRequest (correlationId : UInt32)
  | saslAuthenticateRequest (correlationId : UInt32) (mechanism saslOpaqueData : Bytes)
  | clientTuneCommand (frameSize heartbeat : UInt32)
  | openRequest (correlationId : UInt32) (virtualHost : Bytes)
  | clientCloseRequest (correlationId : UInt32) (code : UInt16) (reason : Bytes)
  | clientCloseResponse (correlationId : UInt32) (responseCode : UInt16)
  | clientHeartbeatCommand
  | exchangeCommandVersionsRequest (correlationId : UInt32) (commandVersions : List CommandVersion)
  deriving DecidableEq, Repr

namespace ClientFrame

/-- The key that the constructor of the class sets; the client's answers have the top bit set. -/
def key : ClientFrame → UInt16
  | declarePublisherRequest .. => CommandKey.declarePublisher.toUInt16
  | publishCommand .. => PublishCommand.key
  | queryPublisherSequenceRequest .. => CommandKey.queryPublisherSequence.toUInt16
  | deletePublisherRequest .. => CommandKey.deletePublisher.toUInt16
  | subscribeRequest .. => CommandKey.subscribe.toUInt16
  | creditCommand .. => CommandKey.credit.toUInt16
  | storeOffsetCommand .. => CommandKey.storeOffset.toUInt16
  | queryOffsetRequest .. => CommandKey.queryOffset.toUInt16
  | unsubscribeRequest .. => CommandKey.unsubscribe.toUInt16
  | createRequest .. => CommandKey.create.toUInt16
  | deleteRequest .. => CommandKey.delete.toUInt16
  | metadataRequest .. => CommandKey.metadata.toUInt16
  | peerPropertiesRequest .. => CommandKey.peerProperties.toUInt16
  | saslHandshakeRequest .. => CommandKey.saslHandshake.toUInt16
  | saslAuthenticateRequest .. => CommandKey.saslAuthenticate.toUInt16
  | clientTuneCommand .. => 0x8000 ||| CommandKey.tune.toUInt16
  | openRequest .. => CommandKey.open.toUInt16
  | clientCloseRequest .. => CommandKey.close.toUInt16
  | clientCloseResponse .. => 0x8000 ||| CommandKey.close.toUInt16
  | clientHeartbeatCommand => CommandKey.heartbeat.toUInt16
  | exchangeCommandVersionsRequest .. => CommandKey.exchangeCommandVersions.toUInt16

/-- The correlation id of a `ClientRequestOrResponse`; a `ClientCommand` has none. -/
def correlationId : ClientFrame → Option UInt32
  | publishCommand .. | creditCommand .. | storeOffsetCommand .. | clientTuneCommand ..
  | clientHeartbeatCommand => none
  | declarePublisherRequest id .. | queryPublisherSequenceRequest id ..
  | deletePublisherRequest id .. | subscribeRequest id .. | queryOffsetRequest id ..
  | unsubscribeRequest id .. | createRequest id .. | deleteRequest id .. | metadataRequest id ..
  | peerPropertiesRequest id .. | saslHandshakeRequest id | saslAuthenticateRequest id ..
  | openRequest id .. | clientCloseRequest id .. | clientCloseResponse id ..
  | exchangeCommandVersionsRequest id .. => some id

/-- `body_size`. -/
def bodySize : ClientFrame → ℕ
  | declarePublisherRequest _ _ publisherName streamName =>
    1 + serializedSizeString publisherName + serializedSizeString streamName
  | publishCommand command => command.bodySize
  | queryPublisherSequenceRequest _ publisherName streamName =>
    serializedSizeString publisherName + serializedSizeString streamName
  | deletePublisherRequest .. => 1
  | subscribeRequest _ _ streamName offset _ properties =>
    let size := 1 + serializedSizeString streamName + 2
    let size := if offset.isOffset || offset.isTimestamp then size + 8 else size
    size + 2 + serializedSizeArray propertySize properties
  | creditCommand .. => 1 + 2
  | storeOffsetCommand reference streamName _ =>
    serializedSizeString reference + serializedSizeString streamName + 8
  | queryOffsetRequest _ reference streamName =>
    serializedSizeString reference + serializedSizeString streamName
  | unsubscribeRequest .. => 1
  | createRequest _ streamName arguments =>
    serializedSizeString streamName + serializedSizeArray propertySize arguments
  | deleteRequest _ streamName => serializedSizeString streamName
  | metadataRequest _ streamNames => serializedSizeArray serializedSizeString streamNames
  | peerPropertiesRequest _ properties => serializedSizeArray propertySize properties
  | saslHandshakeRequest _ => 0
  | saslAuthenticateRequest _ mechanism saslOpaqueData =>
    serializedSizeString mechanism + serializedSizeBlob saslOpaqueData
  | clientTuneCommand .. => 4 + 4
  | openRequest _ virtualHost => serializedSizeString virtualHost
  | clientCloseRequest _ _ reason => 2 + serializedSizeString reason
  | clientCloseResponse .. => 2
  | clientHeartbeatCommand => 0
  | exchangeCommandVersionsRequest _ commandVersions =>
    serializedSizeArray (fun _ => 2 + 2 + 2) commandVersions

/-- `write_body`. -/
def writeBody : ClientFrame → Writer
  | declarePublisherRequest _ publisherId publisherName streamName => fun b => do
    let b ← b.writeByte publisherId
    let b ← b.writeString publisherName
    b.writeString streamName
  | publishCommand command => command.writeBody
  | queryPublisherSequenceRequest _ publisherName streamName => fun b => do
    let b ← b.writeString publisherName
    b.writeString streamName
  | deletePublisherRequest _ publisherId => fun b => b.writeByte publisherId
  | subscribeRequest _ subscriptionId streamName offset credit properties => fun b => do
    let b ← b.writeByte subscriptionId
    let b ← b.writeString streamName
    let b ← b.writeUshort offset.type
    let b ← offset.writeOffset b
    let b ← b.writeUshort credit
    writeArray writeProperty properties b
  | creditCommand subscriptionId credit => fun b => do
    let b ← b.writeByte subscriptionId
    b.writeUshort credit
  | storeOffsetCommand reference streamName offset => fun b => do
    let b ← b.writeString reference
    let b ← b.writeString streamName
    b.writeUlong offset
  | queryOffsetRequest _ reference streamName => fun b => do
    let b ← b.writeString reference
    b.writeString streamName
  | unsubscribeRequest _ subscriptionId => fun b => b.writeByte subscriptionId
  | createRequest _ streamName arguments => fun b => do
    let b ← b.writeString streamName
    writeArray writeProperty arguments b
  | deleteRequest _ streamName => fun b => b.writeString streamName
  | metadataRequest _ streamNames => writeArray writeString streamNames
  | peerPropertiesRequest _ properties => writeArray writeProperty properties
  | saslHandshakeRequest _ => fun b => .ok b
  | saslAuthenticateRequest _ mechanism saslOpaqueData => fun b => do
    let b ← b.writeString mechanism
    b.writeBlob saslOpaqueData
  | clientTuneCommand frameSize heartbeat => fun b => do
    let b ← b.writeUint frameSize
    b.writeUint heartbeat
  | openRequest _ virtualHost => fun b => b.writeString virtualHost
  | clientCloseRequest _ code reason => fun b => do
    let b ← b.writeUshort code
    b.writeString reason
  | clientCloseResponse _ responseCode => fun b => b.writeUshort responseCode
  | clientHeartbeatCommand => fun b => .ok b
  | exchangeCommandVersionsRequest _ commandVersions =>
    writeArray CommandVersion.write commandVersions

/-- The frame as `send_frame` sees it. -/
def toSerializable (f : ClientFrame) : Serializable :=
  match f.correlationId with
  | none => ClientCommand.toSerializable ⟨f.key, f.bodySize, f.writeBody⟩
  | some id => ClientRequestOrResponse.toSerializable ⟨f.key, id, f.bodySize, f.writeBody⟩

/-! ## The limits -/

/-- The strings among the fields of a frame. -/
@[simp] def strings : ClientFrame → List Bytes
  | declarePublisherRequest _ _ publisherName streamName
  | queryPublisherSequenceRequest _ publisherName streamName => [publisherName, streamName]
  | subscribeRequest _ _ streamName _ _ properties
  | createRequest _ streamName properties =>
    streamName :: properties.strings
  | storeOffsetCommand reference streamName _
  | queryOffsetRequest _ reference streamName => [reference, streamName]
  | deleteRequest _ streamName => [streamName]
  | metadataRequest _ streamNames => streamNames
  | peerPropertiesRequest _ properties => properties.strings
  | saslAuthenticateRequest _ mechanism _ => [mechanism]
  | openRequest _ virtualHost => [virtualHost]
  | clientCloseRequest _ _ reason => [reason]
  | publishCommand .. | deletePublisherRequest .. | creditCommand .. | unsubscribeRequest ..
  | saslHandshakeRequest _ | clientTuneCommand .. | clientCloseResponse .. | clientHeartbeatCommand
  | exchangeCommandVersionsRequest .. => []

/-- The blobs among the fields of a frame. -/
@[simp] def blobs : ClientFrame → List Bytes
  | publishCommand command => command.messages.map (·.body)
  | saslAuthenticateRequest _ _ saslOpaqueData => [saslOpaqueData]
  | _ => []

/-- The lengths of the arrays and maps among the fields of a frame. -/
@[simp] def arrayLengths : ClientFrame → List ℕ
  | publishCommand command => [command.messages.length]
  | subscribeRequest _ _ _ _ _ properties | createRequest _ _ properties
  | peerPropertiesRequest _ properties => [properties.length]
  | metadataRequest _ streamNames => [streamNames.length]
  | exchangeCommandVersionsRequest _ commandVersions => [commandVersions.length]
  | _ => []

/-- Every string, blob and array of the frame is short enough for its length field. -/
structure Fits (f : ClientFrame) : Prop where
  strings : ∀ s ∈ f.strings, s.length ≤ int16Max
  blobs : ∀ s ∈ f.blobs, s.length ≤ int32Max
  arrays : ∀ n ∈ f.arrayLengths, n ≤ int32Max

theorem fits_iff (f : ClientFrame) :
    f.Fits ↔ (∀ s ∈ f.strings, s.length ≤ int16Max) ∧ (∀ s ∈ f.blobs, s.length ≤ int32Max) ∧
      ∀ n ∈ f.arrayLengths, n ≤ int32Max :=
  ⟨fun h => ⟨h.strings, h.blobs, h.arrays⟩, fun h => ⟨h.1, h.2.1, h.2.2⟩⟩

instance (f : ClientFrame) : Decidable f.Fits := decidable_of_iff _ f.fits_iff.symm

end ClientFrame

/-! ## The bytes -/

def encodeString (s : Bytes) : Bytes := shortBytes (Int16.ofNat s.length) ++ s

def encodeBlob (s : Bytes) : Bytes := intBytes (Int32.ofNat s.length) ++ s

def encodeArray {α : Type} (enc : α → Bytes) (xs : List α) : Bytes :=
  intBytes (Int32.ofNat xs.length) ++ xs.flatMap enc

def encodeProperty (p : Bytes × Bytes) : Bytes := encodeString p.1 ++ encodeString p.2

def CommandVersion.encode (v : CommandVersion) : Bytes :=
  bigEndian 2 v.key.toNat ++ (bigEndian 2 v.minVersion.toNat ++ bigEndian 2 v.maxVersion.toNat)

@[simp] theorem length_encodeString (s : Bytes) :
    (encodeString s).length = serializedSizeString s := by
  simp [encodeString, serializedSizeString]

@[simp] theorem length_encodeBlob (s : Bytes) : (encodeBlob s).length = serializedSizeBlob s := by
  simp [encodeBlob, serializedSizeBlob]

/-- An array is as long as announced when its elements are. -/
theorem length_encodeArray {α : Type} {enc : α → Bytes} {size : α → ℕ}
    (h : ∀ x, (enc x).length = size x) (xs : List α) :
    (encodeArray enc xs).length = serializedSizeArray size xs := by
  simp [encodeArray, serializedSizeArray_eq, List.length_flatMap, h]

@[simp] theorem length_encodeProperty (p : Bytes × Bytes) :
    (encodeProperty p).length = propertySize p := by
  simp [encodeProperty, propertySize]

@[simp] theorem length_encodeCommandVersion (v : CommandVersion) :
    v.encode.length = 2 + 2 + 2 := by
  simp [CommandVersion.encode]

theorem writeProperty_encodes (p : Bytes × Bytes) :
    Encodes (writeProperty p) (p.1.length ≤ int16Max ∧ p.2.length ≤ int16Max) (encodeProperty p) :=
  (Encodes.writeString p.1).bind (Encodes.writeString p.2)

theorem CommandVersion.write_encodes (v : CommandVersion) : Encodes v.write True v.encode :=
  ((Encodes.put _).bind ((Encodes.put _).bind (Encodes.put _))).congr (by simp)

theorem OffsetSpecification.writeOffset_encodes (o : OffsetSpecification) :
    Encodes o.writeOffset True
      (if o.isOffset || o.isTimestamp then bigEndian 8 o.offset.toNat else []) := by
  unfold writeOffset
  split
  · exact Encodes.put _
  · exact Encodes.nil

namespace ClientFrame

/-- The key, the version, and the correlation id of a request or response. -/
def encodeHeader (f : ClientFrame) : Bytes :=
  match f.correlationId with
  | none => bigEndian 2 f.key.toNat ++ bigEndian 2 ClientCommand.version.toNat
  | some id =>
    bigEndian 2 f.key.toNat ++ (bigEndian 2 ClientCommand.version.toNat ++ bigEndian 4 id.toNat)

/-- The fields of a frame, one after the other. -/
def encodeBody : ClientFrame → Bytes
  | declarePublisherRequest _ publisherId publisherName streamName =>
    [publisherId] ++ (encodeString publisherName ++ encodeString streamName)
  | publishCommand command =>
    [command.publisherId] ++ encodeArray PublishCommand.Message.encode command.messages
  | queryPublisherSequenceRequest _ publisherName streamName =>
    encodeString publisherName ++ encodeString streamName
  | deletePublisherRequest _ publisherId => [publisherId]
  | subscribeRequest _ subscriptionId streamName offset credit properties =>
    [subscriptionId] ++ (encodeString streamName ++ (bigEndian 2 offset.type.toNat ++
      ((if offset.isOffset || offset.isTimestamp then bigEndian 8 offset.offset.toNat else []) ++
        (bigEndian 2 credit.toNat ++ encodeArray encodeProperty properties))))
  | creditCommand subscriptionId credit => [subscriptionId] ++ bigEndian 2 credit.toNat
  | storeOffsetCommand reference streamName offset =>
    encodeString reference ++ (encodeString streamName ++ bigEndian 8 offset.toNat)
  | queryOffsetRequest _ reference streamName => encodeString reference ++ encodeString streamName
  | unsubscribeRequest _ subscriptionId => [subscriptionId]
  | createRequest _ streamName arguments =>
    encodeString streamName ++ encodeArray encodeProperty arguments
  | deleteRequest _ streamName => encodeString streamName
  | metadataRequest _ streamNames => encodeArray encodeString streamNames
  | peerPropertiesRequest _ properties => encodeArray encodeProperty properties
  | saslHandshakeRequest _ => []
  | saslAuthenticateRequest _ mechanism saslOpaqueData =>
    encodeString mechanism ++ encodeBlob saslOpaqueData
  | clientTuneCommand frameSize heartbeat =>
    bigEndian 4 frameSize.toNat ++ bigEndian 4 heartbeat.toNat
  | openRequest _ virtualHost => encodeString virtualHost
  | clientCloseRequest _ code reason => bigEndian 2 code.toNat ++ encodeString reason
  | clientCloseResponse _ responseCode => bigEndian 2 responseCode.toNat
  | clientHeartbeatCommand => []
  | exchangeCommandVersionsRequest _ commandVersions =>
    encodeArray CommandVersion.encode commandVersions

/-- The bytes of a frame after its length prefix. -/
def encode (f : ClientFrame) : Bytes := f.encodeHeader ++ f.encodeBody

/-- The announced size of a body is the length of its bytes. -/
theorem length_encodeBody (f : ClientFrame) : f.encodeBody.length = f.bodySize := by
  have hproperties := length_encodeArray length_encodeProperty
  have hstrings := length_encodeArray length_encodeString
  have hversions := length_encodeArray length_encodeCommandVersion
  have hmessages := length_encodeArray PublishCommand.Message.length_encode
  cases f with
  | subscribeRequest _ _ _ offset _ _ =>
    -- the conditional field: both sides take the same branch
    cases h : offset.isOffset || offset.isTimestamp <;>
      simp [encodeBody, bodySize, hproperties, h] <;> omega
  | publishCommand c => simp [encodeBody, bodySize, PublishCommand.bodySize, hmessages]; omega
  | _ => simp [encodeBody, bodySize, hproperties, hstrings, hversions] <;> omega

/-- The writer of a body appends its bytes, within the limits of the fields and only then. -/
theorem writeBody_encodes (f : ClientFrame) : Encodes f.writeBody f.Fits f.encodeBody := by
  have hproperties := Encodes.writeArray writeProperty_encodes
  have hstrings := Encodes.writeArray Encodes.writeString
  have hversions := Encodes.writeArray CommandVersion.write_encodes
  have hput := Encodes.put
  have hstring := Encodes.writeString
  cases f with
  | declarePublisherRequest _ publisherId publisherName streamName =>
    exact ((hput _).bind ((hstring publisherName).bind (hstring streamName))).congr
      (by simp [fits_iff])
  | publishCommand c =>
    exact c.writeBody_encodes.congr
      (by simp only [fits_iff, strings, blobs, arrayLengths, List.forall_mem_map]; simp [and_comm])
  | queryPublisherSequenceRequest _ publisherName streamName =>
    exact ((hstring publisherName).bind (hstring streamName)).congr (by simp [fits_iff])
  | deletePublisherRequest _ publisherId => exact (hput _).congr (by simp [fits_iff])
  | subscribeRequest _ subscriptionId streamName offset credit properties =>
    exact ((hput _).bind ((hstring streamName).bind ((hput _).bind
      (offset.writeOffset_encodes.bind ((hput _).bind (hproperties properties)))))).congr
      (by simp [fits_iff, and_comm, and_left_comm])
  | creditCommand subscriptionId credit =>
    exact ((hput _).bind (hput _)).congr (by simp [fits_iff])
  | storeOffsetCommand reference streamName offset =>
    exact ((hstring reference).bind ((hstring streamName).bind (hput _))).congr
      (by simp [fits_iff])
  | queryOffsetRequest _ reference streamName =>
    exact ((hstring reference).bind (hstring streamName)).congr (by simp [fits_iff])
  | unsubscribeRequest _ subscriptionId => exact (hput _).congr (by simp [fits_iff])
  | createRequest _ streamName arguments =>
    exact ((hstring streamName).bind (hproperties arguments)).congr
      (by simp [fits_iff, and_comm, and_left_comm])
  | deleteRequest _ streamName => exact (hstring streamName).congr (by simp [fits_iff])
  | metadataRequest _ streamNames =>
    exact (hstrings streamNames).congr (by simp [fits_iff, and_comm])
  | peerPropertiesRequest _ properties =>
    exact (hproperties properties).congr (by simp [fits_iff, and_comm])
  | saslHandshakeRequest _ => exact Encodes.nil.congr (by simp [fits_iff])
  | saslAuthenticateRequest _ mechanism saslOpaqueData =>
    exact ((hstring mechanism).bind (Encodes.writeBlob saslOpaqueData)).congr (by simp [fits_iff])
  | clientTuneCommand frameSize heartbeat =>
    exact ((hput _).bind (hput _)).congr (by simp [fits_iff])
  | openRequest _ virtualHost => exact (hstring virtualHost).congr (by simp [fits_iff])
  | clientCloseRequest _ code reason =>
    exact ((hput _).bind (hstring reason)).congr (by simp [fits_iff])
  | clientCloseResponse _ responseCode => exact (hput _).congr (by simp [fits_iff])
  | clientHeartbeatCommand => exact Encodes.nil.congr (by simp [fits_iff])
  | exchangeCommandVersionsRequest _ commandVersions =>
    exact (hversions commandVersions).congr (by simp [fits_iff])

/-- A frame is written as its header and its body. -/
theorem serialize_encodes (f : ClientFrame) :
    Encodes f.toSerializable.serialize f.Fits f.encode := by
  have hput := Encodes.put
  simp only [encode, encodeHeader, toSerializable]
  split
  · exact (((hput _).bind (hput _)).bind f.writeBody_encodes).congr (by simp)
  · exact (((hput _).bind ((hput _).bind (hput _))).bind f.writeBody_encodes).congr (by simp)

/-- The announced size of a frame is the length of its bytes. -/
theorem length_encode (f : ClientFrame) : f.encode.length = f.toSerializable.serializedSize := by
  simp only [encode, encodeHeader, toSerializable, List.length_append, length_encodeBody]
  split <;> simp [ClientCommand.toSerializable, ClientCommand.headerSize,
    ClientRequestOrResponse.toSerializable, ClientRequestOrResponse.headerSize]

/-! ## Sizes in the range of `std::size_t` -/

theorem serializedSizeArray_le {α : Type} {size : α → ℕ} {xs : List α} {k : ℕ}
    (hlen : xs.length ≤ int32Max) (h : ∀ x ∈ xs, size x ≤ k) :
    serializedSizeArray size xs ≤ 4 + int32Max * k := by
  have hsum : (xs.map size).sum ≤ xs.length * k := by
    simpa using List.sum_le_card_nsmul (xs.map size) k (by simpa using h)
  have hmul : xs.length * k ≤ int32Max * k := Nat.mul_le_mul_right k hlen
  rw [serializedSizeArray_eq]
  omega

theorem properties_size_le {ps : Properties} (hlen : ps.length ≤ int32Max)
    (h : ∀ p ∈ ps, p.1.length ≤ int16Max ∧ p.2.length ≤ int16Max) :
    serializedSizeArray propertySize ps ≤ 4 + int32Max * 65538 := by
  refine serializedSizeArray_le hlen fun p hp => ?_
  have := h p hp
  simp only [propertySize, serializedSizeString, int16Max] at *
  omega

/-- The size of a frame within the limits is far below `2 ^ 64`: sizes can be natural numbers here,
since a sum that wraps around belongs to a frame that its writer refuses. -/
theorem bodySize_lt_of_fits {f : ClientFrame} (h : f.Fits) : f.bodySize < 2 ^ 63 := by
  obtain ⟨hstrings, hblobs, harrays⟩ := h
  cases f with
  | publishCommand c =>
    have hmessages : serializedSizeArray PublishCommand.Message.serializedSize c.messages ≤
        4 + int32Max * (12 + int32Max) :=
      serializedSizeArray_le (by simpa using harrays) fun m hm => by
        have := hblobs m.body (List.mem_map_of_mem hm)
        rw [PublishCommand.Message.serializedSize_eq]
        omega
    simp only [bodySize, PublishCommand.bodySize, int32Max] at *
    omega
  | subscribeRequest _ _ streamName offset _ properties =>
    simp only [strings, List.forall_mem_cons, Properties.forall_mem_strings] at hstrings
    have hprops := properties_size_le (harrays _ (by simp)) hstrings.2
    have hoffset : (if offset.isOffset || offset.isTimestamp
        then 1 + serializedSizeString streamName + 2 + 8 else 1 + serializedSizeString streamName + 2) ≤
        1 + serializedSizeString streamName + 10 := by split <;> omega
    simp only [bodySize, serializedSizeString, int16Max, int32Max] at *
    omega
  | createRequest _ streamName arguments =>
    simp only [strings, List.forall_mem_cons, Properties.forall_mem_strings] at hstrings
    have hprops := properties_size_le (harrays _ (by simp)) hstrings.2
    simp only [bodySize, serializedSizeString, int16Max, int32Max] at *
    omega
  | peerPropertiesRequest _ properties =>
    simp only [strings, Properties.forall_mem_strings] at hstrings
    have hprops := properties_size_le (harrays _ (by simp)) hstrings
    simp only [bodySize, int32Max] at *
    omega
  | metadataRequest _ streamNames =>
    have hnames : serializedSizeArray serializedSizeString streamNames ≤
        4 + int32Max * (2 + int16Max) :=
      serializedSizeArray_le (by simpa using harrays) fun s hs => Nat.add_le_add_left (hstrings s hs) 2
    simp only [bodySize, int16Max, int32Max] at *
    omega
  | exchangeCommandVersionsRequest _ commandVersions =>
    have hversions : serializedSizeArray (fun _ => 2 + 2 + 2) commandVersions ≤
        4 + int32Max * 6 := serializedSizeArray_le (by simpa using harrays) fun _ _ => Nat.le_refl 6
    simp only [bodySize, int32Max] at *
    omega
  | _ =>
    simp [serializedSizeString, serializedSizeBlob, int16Max, int32Max, bodySize] at * <;> omega

end ClientFrame

end Hareflow.Wire
