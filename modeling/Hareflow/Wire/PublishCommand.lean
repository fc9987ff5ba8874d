import Hareflow.Wire.BinaryBuffer

/-!
# Client frames and the publish command

A frame that the client sends is a `Serializable`: it announces its size and writes itself. The
size of a `ClientCommand` is its header (key and version) and its body. This module has the keys and
the publish command, whose body is the publisher id and the array of messages, each a publishing id and
a blob.

`PublishCommand.encode` is the frame's byte string. `PublishCommand.length_encode` says that it is
as long as announced, and `PublishCommand.serialize_encodes` that it is what a command within the
limits writes and that no other command is written.
-/

namespace Hareflow.Wire

open BinaryBuffer

/-- What `send_frame` needs of a frame. -/
structure Serializable where
  serializedSize : ℕ
  serialize : Writer

/-- `CommandKey`. -/
inductive CommandKey
  | declarePublisher
  | publish
  | publishConfirm
  | publishError
  | queryPublisherSequence
  | deletePublisher
  | subscribe
  | deliver
  | credit
  | storeOffset
  | queryOffset
  | unsubscribe
  | create
  | delete
  | metadata
  | metadataUpdate
  | peerProperties
  | saslHandshake
  | saslAuthenticate
  | tune
  | «open»
  | close
  | heartbeat
  | route
  | partitions
  | exchangeCommandVersions
  deriving DecidableEq, Repr

def CommandKey.toUInt16 : CommandKey → UInt16
  | declarePublisher => 0x0001
  | publish => 0x0002
  | publishConfirm => 0x0003
  | publishError => 0x0004
  | queryPublisherSequence => 0x0005
  | deletePublisher => 0x0006
  | subscribe => 0x0007
  | deliver => 0x0008
  | credit => 0x0009
  | storeOffset => 0x000a
  | queryOffset => 0x000b
  | unsubscribe => 0x000c
  | create => 0x000d
  | delete => 0x000e
  | metadata => 0x000f
  | metadataUpdate => 0x0010
  | peerProperties => 0x0011
  | saslHandshake => 0x0012
  | saslAuthenticate => 0x0013
  | tune => 0x0014
  | «open» => 0x0015
  | close => 0x0016
  | heartbeat => 0x0017
  | route => 0x0018
  | partitions => 0x0019
  | exchangeCommandVersions => 0x001b

/-- The version that every client command is sent with. -/
def ClientCommand.version : UInt16 := 1

/-- `ClientCommand`: the key of the command, with the size and the writer of its body. -/
structure ClientCommand where
  key : UInt16
  bodySize : ℕ
  writeBody : Writer

namespace ClientCommand

/-- The two bytes of the key and the two bytes of the version. -/
def headerSize : ℕ := 2 + 2

def writeHeader (c : ClientCommand) : Writer := fun b => do
  let b ← b.writeUshort c.key
  b.writeUshort version

def toSerializable (c : ClientCommand) : Serializable where
  serializedSize := headerSize + c.bodySize
  serialize := fun b => do
    let b ← c.writeHeader b
    c.writeBody b

end ClientCommand

/-! ## The publish command -/

/-- `PublishCommand::Message`. -/
structure PublishCommand.Message where
  publishingId : UInt64
  body : List UInt8
  deriving DecidableEq, Repr

structure PublishCommand where
  publisherId : UInt8
  messages : List PublishCommand.Message
  deriving DecidableEq, Repr

namespace PublishCommand

def key : UInt16 := CommandKey.publish.toUInt16

def Message.serializedSize (m : Message) : ℕ := 8 + serializedSizeBlob m.body

def Message.write (m : Message) : Writer := fun b => do
  let b ← b.writeUlong m.publishingId
  b.writeBlob m.body

def bodySize (c : PublishCommand) : ℕ := 1 + serializedSizeArray Message.serializedSize c.messages

def writeBody (c : PublishCommand) : Writer := fun b => do
  let b ← b.writeByte c.publisherId
  writeArray Message.write c.messages b

def toClientCommand (c : PublishCommand) : ClientCommand := ⟨key, c.bodySize, c.writeBody⟩

def toSerializable (c : PublishCommand) : Serializable := c.toClientCommand.toSerializable

/-- `PublishCommand::BASE_SERIALIZED_SIZE`: the size of a publish command without messages. -/
def baseSerializedSize : ℕ := (PublishCommand.mk 0 []).toSerializable.serializedSize

example : baseSerializedSize = 9 := rfl

theorem Message.serializedSize_eq (m : Message) : m.serializedSize = 12 + m.body.length := by
  simp only [serializedSize, serializedSizeBlob]
  omega

/-- The size of a publish command is the base size and the sizes of its messages. -/
theorem serializedSize_eq (c : PublishCommand) :
    c.toSerializable.serializedSize =
      baseSerializedSize + (c.messages.map Message.serializedSize).sum := by
  simp only [toSerializable, toClientCommand, ClientCommand.toSerializable, bodySize,
    baseSerializedSize, serializedSizeArray_eq, List.map_nil, List.sum_nil]
  omega

/-! ## The bytes of a publish command -/

/-- The bytes of one message. -/
def Message.encode (m : Message) : List UInt8 :=
  bigEndian 8 m.publishingId.toNat ++ (intBytes (Int32.ofNat m.body.length) ++ m.body)

theorem Message.length_encode (m : Message) : m.encode.length = m.serializedSize := by
  simp [encode, serializedSize_eq]
  omega

/-- The bytes of a publish command: its header, the publisher id, and the array of messages. -/
def encode (c : PublishCommand) : List UInt8 :=
  (bigEndian 2 key.toNat ++ bigEndian 2 ClientCommand.version.toNat) ++
    ([c.publisherId] ++
      (intBytes (Int32.ofNat c.messages.length) ++ c.messages.flatMap Message.encode))

theorem length_flatMap_encode (ms : List Message) :
    (ms.flatMap Message.encode).length = (ms.map Message.serializedSize).sum := by
  simp [List.length_flatMap, Message.length_encode]

/-- The announced size is the size of the bytes. -/
theorem length_encode (c : PublishCommand) : c.encode.length = c.toSerializable.serializedSize := by
  rw [serializedSize_eq]
  simp only [encode, List.length_append, length_bigEndian, length_intBytes, length_flatMap_encode,
    List.length_singleton, show baseSerializedSize = 9 from rfl]
  omega

theorem Message.write_encodes (m : Message) :
    Encodes m.write (m.body.length ≤ int32Max) m.encode :=
  ((Encodes.put _).bind (Encodes.writeBlob m.body)).congr (by simp)

theorem writeBody_encodes (c : PublishCommand) :
    Encodes c.writeBody (c.messages.length ≤ int32Max ∧ ∀ m ∈ c.messages, m.body.length ≤ int32Max)
      ([c.publisherId] ++
        (intBytes (Int32.ofNat c.messages.length) ++ c.messages.flatMap Message.encode)) :=
  ((Encodes.put _).bind (Encodes.writeArray Message.write_encodes c.messages)).congr (by simp)

/-- A command within the limits writes its bytes, and no other command is written. -/
theorem serialize_encodes (c : PublishCommand) :
    Encodes c.toSerializable.serialize
      (c.messages.length ≤ int32Max ∧ ∀ m ∈ c.messages, m.body.length ≤ int32Max) c.encode :=
  (((Encodes.put _).bind (Encodes.put _)).bind c.writeBody_encodes).congr (by simp)

end PublishCommand

end Hareflow.Wire
