import Hareflow.Wire.StringMap

/-!
# The frames of the server

The commands, requests and responses that the client receives, with the `read_body` of each class.
A reader takes what it needs from the front of the buffer; bytes behind that are ignored, and a
buffer that ends too early is refused.

A deliver command carries a chunk. Its data are copied into a buffer of their own, from which the
entries are read one by one: a simple entry is a blob, so that the first bit of its length is zero; an
entry with this bit set is a batch, which the client does not support. `DeliverCommand.encodeBody` is
the byte string of a well-formed chunk of simple entries, and `DeliverCommand.readBody_reads` says
that it is read back.
-/

namespace Hareflow.Wire

open BinaryBuffer

/-! ## Commands and requests -/

structure PublishConfirmCommand where
  publisherId : UInt8
  sequences : List UInt64
  deriving DecidableEq, Repr

def PublishConfirmCommand.readBody : Reader PublishConfirmCommand := do
  let publisherId ← readByte
  let sequences ← readArray readUlong
  return { publisherId, sequences }

structure PublishingError where
  sequence : UInt64
  code : UInt16
  deriving DecidableEq, Repr

structure PublishErrorCommand where
  publisherId : UInt8
  publishingErrors : List PublishingError
  deriving DecidableEq, Repr

def PublishErrorCommand.readBody : Reader PublishErrorCommand := do
  let publisherId ← readByte
  let publishingErrors ← readArray do
    let sequence ← readUlong
    let code ← readUshort
    return { sequence, code }
  return { publisherId, publishingErrors }

structure CreditErrorCommand where
  responseCode : ResponseCode
  subscriptionId : UInt8
  deriving DecidableEq, Repr

def CreditErrorCommand.readBody : Reader CreditErrorCommand := do
  let responseCode ← readUshort
  let subscriptionId ← readByte
  return { responseCode := ⟨responseCode⟩, subscriptionId }

structure MetadataUpdateCommand where
  responseCode : ResponseCode
  streamName : Bytes
  deriving DecidableEq, Repr

/-- The name of the stream follows one of the codes only. -/
def MetadataUpdateCommand.readBody : Reader MetadataUpdateCommand := do
  let responseCode ← readUshort
  let streamName ← if ResponseCode.mk responseCode = .streamNotAvailable then readString else pure []
  return { responseCode := ⟨responseCode⟩, streamName }

structure ServerTuneCommand where
  frameSize : UInt32
  heartbeat : UInt32
  deriving DecidableEq, Repr

def ServerTuneCommand.readBody : Reader ServerTuneCommand := do
  let frameSize ← readUint
  let heartbeat ← readUint
  return { frameSize, heartbeat }

/-- `ServerCloseRequest`, with the correlation id of its header. -/
structure ServerCloseRequest where
  correlationId : UInt32
  closingCode : UInt16
  closingReason : Bytes
  deriving DecidableEq, Repr

/-- `deserialize`: the header and the body. -/
def ServerCloseRequest.deserialize : Reader ServerCloseRequest := do
  let correlationId ← readUint
  let closingCode ← readUshort
  let closingReason ← readString
  return { correlationId, closingCode, closingReason }

/-! ## Responses -/

structure Broker where
  reference : UInt16
  host : Bytes
  port : UInt32
  deriving DecidableEq, Repr

structure StreamMetadata where
  streamName : Bytes
  code : UInt16
  leader : UInt16
  replicas : List UInt16
  deriving DecidableEq, Repr

/-- The bodies of the responses. -/
inductive ResponseBody
  | generic (responseCode : ResponseCode)
  | queryPublisherSequence (responseCode : ResponseCode) (sequence : UInt64)
  | queryOffset (responseCode : ResponseCode) (offset : UInt64)
  | metadata (brokers : List Broker) (streamMetadata : List StreamMetadata)
  | peerProperties (responseCode : ResponseCode) (properties : StringMap)
  | saslHandshake (responseCode : ResponseCode) (mechanisms : List Bytes)
  | saslAuthenticate (responseCode : ResponseCode) (saslOpaqueData : Bytes)
  | open (responseCode : ResponseCode) (connectionProperties : StringMap)
  | exchangeCommandVersions (responseCode : ResponseCode) (commandVersions : List CommandVersion)
  deriving DecidableEq, Repr

def Broker.read : Reader Broker := do
  let reference ← readUshort
  let host ← readString
  let port ← readUint
  return { reference, host, port }

def StreamMetadata.read : Reader StreamMetadata := do
  let streamName ← readString
  let code ← readUshort
  let leader ← readUshort
  let replicas ← readArray readUshort
  return { streamName, code, leader, replicas }

def CommandVersion.read : Reader CommandVersion := do
  let key ← readUshort
  let minVersion ← readUshort
  let maxVersion ← readUshort
  return { key, minVersion, maxVersion }

/-! `read_body` of each class. -/

namespace ResponseBody

def readGeneric : Reader ResponseBody := do
  let responseCode ← readUshort
  return .generic ⟨responseCode⟩

def readQueryPublisherSequence : Reader ResponseBody := do
  let responseCode ← readUshort
  let sequence ← readUlong
  return .queryPublisherSequence ⟨responseCode⟩ sequence

def readQueryOffset : Reader ResponseBody := do
  let responseCode ← readUshort
  let offset ← readUlong
  return .queryOffset ⟨responseCode⟩ offset

def readMetadata : Reader ResponseBody := do
  let brokers ← readArray Broker.read
  let streamMetadata ← readArray StreamMetadata.read
  return .metadata brokers streamMetadata

def readPeerProperties : Reader ResponseBody := do
  let responseCode ← readUshort
  let properties ← StringMap.read
  return .peerProperties ⟨responseCode⟩ properties

def readSaslHandshake : Reader ResponseBody := do
  let responseCode ← readUshort
  let mechanisms ← readArray readString
  return .saslHandshake ⟨responseCode⟩ mechanisms

def readSaslAuthenticate : Reader ResponseBody := do
  let responseCode ← readUshort
  let saslOpaqueData ← if ResponseCode.mk responseCode = .saslChallenge then readBlob else pure []
  return .saslAuthenticate ⟨responseCode⟩ saslOpaqueData

def readOpen : Reader ResponseBody := do
  let responseCode ← readUshort
  let connectionProperties ← StringMap.read
  return .open ⟨responseCode⟩ connectionProperties

def readExchangeCommandVersions : Reader ResponseBody := do
  let responseCode ← readUshort
  let commandVersions ← readArray CommandVersion.read
  return .exchangeCommandVersions ⟨responseCode⟩ commandVersions

end ResponseBody

/-! ## Deliver -/

/-- `DeliverCommand::Chunk`: the header of a chunk. -/
structure Chunk where
  magicVersion : UInt8
  chunkType : UInt8
  nbEntries : UInt16
  nbRecords : UInt32
  timestamp : Int64
  epoch : UInt64
  offset : UInt64
  chunkCrc : UInt32
  dataLen : UInt32
  trailerLen : UInt32
  reserved : UInt32
  deriving DecidableEq, Repr

def Chunk.read : Reader Chunk := do
  let magicVersion ← readByte
  let chunkType ← readByte
  let nbEntries ← readUshort
  let nbRecords ← readUint
  let timestamp ← readLong
  let epoch ← readUlong
  let offset ← readUlong
  let chunkCrc ← readUint
  let dataLen ← readUint
  let trailerLen ← readUint
  let reserved ← readUint
  return { magicVersion, chunkType, nbEntries, nbRecords, timestamp, epoch, offset, chunkCrc,
           dataLen, trailerLen, reserved }

def Chunk.encode (c : Chunk) : Bytes :=
  [c.magicVersion] ++ ([c.chunkType] ++
    (bigEndian 2 c.nbEntries.toNat ++ (bigEndian 4 c.nbRecords.toNat ++
    (bigEndian 8 c.timestamp.toUInt64.toNat ++ (bigEndian 8 c.epoch.toNat ++
    (bigEndian 8 c.offset.toNat ++ (bigEndian 4 c.chunkCrc.toNat ++
    (bigEndian 4 c.dataLen.toNat ++ (bigEndian 4 c.trailerLen.toNat ++
    bigEndian 4 c.reserved.toNat)))))))))

theorem Chunk.read_reads (c : Chunk) : Reads Chunk.read c.encode c :=
  (Reads.readByte _).bind <| (Reads.readByte _).bind <| (Reads.readUshort _).bind <|
    (Reads.readUint _).bind <| (Reads.readLong _).bind <| (Reads.readUlong _).bind <|
    (Reads.readUlong _).bind <| (Reads.readUint _).bind <| (Reads.readUint _).bind <|
    (Reads.readUint _).bind <| (Reads.readUint c.reserved).map fun reserved => { c with reserved }

structure DeliverCommand where
  subscriptionId : UInt8
  committedChunkId : Option UInt64
  chunk : Chunk
  messages : List Bytes
  deriving DecidableEq, Repr

namespace DeliverCommand

/-- The body of the loop over the entries: look at the first byte, put it back, read a blob. -/
def readEntry : Reader Bytes := do
  let byte ← readByte
  if byte &&& 0x80 ≠ 0 then
    throw (.stream "Sub entry batching is not currently supported")
  unreadByte
  readBlob

/-- The field that version 2 has added. -/
def readCommittedChunkId (version : UInt16) : Reader (Option UInt64) :=
  if 2 ≤ version then do
    let committedChunkId ← readUlong
    return some committedChunkId
  else return none

def readBody (version : UInt16) : Reader DeliverCommand := do
  let subscriptionId ← readByte
  let committedChunkId ← readCommittedChunkId version
  let chunk ← Chunk.read
  let bytes ← readBytes chunk.dataLen.toNat
  let data ← BinaryBuffer.writeBytes bytes {}
  let (messages, _) ← readElems readEntry chunk.nbEntries.toNat data
  return { subscriptionId, committedChunkId, chunk, messages }

/-! ### Well-formed chunks of simple entries -/

/-- The counts of the header are those of the entries, each entry is short enough for its length
field, and the committed chunk id is there from version 2 on. -/
structure WellFormed (version : UInt16) (c : DeliverCommand) : Prop where
  committed : c.committedChunkId.isSome = decide (2 ≤ version)
  nbEntries : c.chunk.nbEntries.toNat = c.messages.length
  dataLen : c.chunk.dataLen.toNat = (c.messages.flatMap encodeBlob).length
  lengths : ∀ m ∈ c.messages, m.length ≤ int32Max

/-- The bytes of a command: its fields, and the entries as blobs. -/
def encodeBody (c : DeliverCommand) : Bytes :=
  [c.subscriptionId] ++
    (c.committedChunkId.elim [] (fun id => bigEndian 8 id.toNat) ++
      (c.chunk.encode ++ c.messages.flatMap encodeBlob))

/-- The first byte of a length that is at most `2 ^ 31 - 1` has its top bit clear. -/
theorem first_byte_of_length {n : ℕ} (h : n ≤ int32Max) :
    UInt8.ofNat (n / 256 ^ 3) &&& 0x80 = 0 := by
  have hsmall : n / 256 ^ 3 < 128 := by
    simp only [int32Max] at h
    omega
  generalize n / 256 ^ 3 = k at hsmall
  decide +revert

/-- A blob begins with the first byte of its length. -/
theorem encodeBlob_eq {m : Bytes} (h : m.length ≤ int32Max) :
    encodeBlob m = [UInt8.ofNat (m.length / 256 ^ 3)] ++ (bigEndian 3 m.length ++ m) := by
  have hlt : m.length < 2 ^ 32 := by
    simp only [int32Max] at h
    omega
  have hlength : (Int32.ofNat m.length).toUInt32.toNat = m.length := by
    simpa using Nat.mod_eq_of_lt hlt
  rw [encodeBlob, intBytes, hlength]
  rfl

theorem unreadByte_eq (before rest : Bytes) (writeCursor : ℕ) :
    unreadByte ⟨before ++ rest, before.length + 1, writeCursor⟩ =
      .ok ((), ⟨before ++ rest, before.length, writeCursor⟩) := by
  simp [unreadByte, setReadCursor]

/-- A simple entry is read as the blob that it is. -/
theorem readEntry_reads {m : Bytes} (h : m.length ≤ int32Max) :
    Reads readEntry (encodeBlob m) m := by
  intro before rest writeCursor
  have hread := Reads.readByte (UInt8.ofNat (m.length / 256 ^ 3)) before
    (bigEndian 3 m.length ++ m ++ rest) writeCursor
  rw [← List.append_assoc _ _ rest, ← encodeBlob_eq h] at hread
  show (readByte _).bind _ = _
  rw [hread]
  show (if UInt8.ofNat (m.length / 256 ^ 3) &&& 0x80 ≠ 0 then _ else _ : Reader Bytes) _ = _
  rw [if_neg (not_not.2 (first_byte_of_length h))]
  show (unreadByte _).bind _ = _
  rw [List.length_singleton, unreadByte_eq]
  exact Reads.readBlob h before rest writeCursor

theorem readEntries_reads {messages : List Bytes} (h : ∀ m ∈ messages, m.length ≤ int32Max) :
    Reads (readElems readEntry messages.length) (messages.flatMap encodeBlob) messages :=
  Reads.readElems fun m hm => readEntry_reads (h m hm)

theorem readCommittedChunkId_reads {version : UInt16} {committedChunkId : Option UInt64}
    (h : committedChunkId.isSome = decide (2 ≤ version)) :
    Reads (readCommittedChunkId version)
      (committedChunkId.elim [] fun id => bigEndian 8 id.toNat) committedChunkId := by
  rw [readCommittedChunkId]
  cases committedChunkId with
  | none =>
    rw [if_neg (by simpa using h)]
    exact Reads.pure none
  | some id =>
    rw [if_pos (by simpa using h)]
    exact (Reads.readUlong id).map some

/-- The copy of the data of a chunk. -/
theorem writeBytes_empty {bytes : Bytes} (h : bytes.length ≤ uint32Max) :
    BinaryBuffer.writeBytes bytes {} = .ok ⟨bytes, 0, bytes.length⟩ := by
  rw [BinaryBuffer.writeBytes]
  split
  · rename_i hzero
    obtain rfl := List.length_eq_zero_iff.1 hzero
    rfl
  · have hempty : BinaryBuffer.AtEnd {} := rfl
    have hput := put_eq_append hempty (show ([] : Bytes).length + bytes.length ≤ uint32Max by simpa)
    simpa [append] using hput

theorem writeBytes_empty_of_lt {bytes : Bytes} (h : uint32Max < bytes.length) :
    BinaryBuffer.writeBytes bytes {} = .error maximumBufferSizeExceeded := by
  have hne : bytes.length ≠ 0 := by omega
  have hgrow : growBuffer bytes.length {} = .error maximumBufferSizeExceeded := if_pos h
  rw [BinaryBuffer.writeBytes, if_neg hne]
  show (growBuffer bytes.length {}).bind _ = _
  rw [hgrow]
  rfl

/-- **A well-formed deliver command is read back**, whatever follows it. -/
theorem readBody_reads {version : UInt16} {c : DeliverCommand} (h : c.WellFormed version) :
    Reads (readBody version) c.encodeBody c := by
  have hsize : (c.messages.flatMap encodeBlob).length ≤ uint32Max := by
    rw [← h.dataLen]
    have := c.chunk.dataLen.toNat_lt
    simp only [uint32Max]
    omega
  have hentries := readEntries_reads h.lengths [] [] (c.messages.flatMap encodeBlob).length
  simp only [List.nil_append, List.append_nil, List.length_nil, Nat.zero_add] at hentries
  refine (Reads.readByte _).bind ((readCommittedChunkId_reads h.committed).bind ?_)
  refine c.chunk.read_reads.bind ?_
  rw [← List.append_nil (c.messages.flatMap encodeBlob), h.dataLen, h.nbEntries]
  refine (Reads.readBytes _).bind ?_
  refine (Reads.lift (writeBytes_empty hsize)).bind (?_ : Reads _ [] _)
  exact (Reads.lift hentries).bind (Reads.pure _)

end DeliverCommand

end Hareflow.Wire
