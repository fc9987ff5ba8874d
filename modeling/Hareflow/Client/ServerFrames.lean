import Hareflow.Wire.Decoders
import Hareflow.Client.FrameHandlers

/-!
# The decoders of the server frames

`ServerClass` lists the classes of `ServerCommand`, `ServerRequest` and `ServerResponse`, and
`ServerClass.decoder` gives the text of each `deserialize` in terms of the `read_*` functions, so
that what holds of every such composition holds of them: `ServerClass.deserialize_safe`.
-/

namespace Hareflow.Client.Frames

open Wire BinaryBuffer
open Requests (ResponseType)

/-- The classes that have a `deserialize`. A deliver command knows its version. -/
inductive ServerClass
  | publishConfirmCommand
  | publishErrorCommand
  | deliverCommand (version : UInt16)
  | creditErrorCommand
  | metadataUpdateCommand
  | serverTuneCommand
  | serverCloseRequest
  | response (type : ResponseType)
  deriving DecidableEq, Repr

variable {allowed : StreamException → Prop}

/-! ## The parts of the frames -/

section Parts

open Decoder

def publishingErrorDecoder : Decoder allowed (do
    let sequence ← BinaryBuffer.readUlong
    let code ← BinaryBuffer.readUshort
    return ({ sequence, code } : PublishingError)) :=
  .bind readUlong fun _ => .bind readUshort fun _ => .pure _

def brokerDecoder : Decoder allowed Broker.read :=
  .bind readUshort fun _ => .bind readString fun _ => .bind readUint fun _ => .pure _

def streamMetadataDecoder : Decoder allowed StreamMetadata.read :=
  .bind readString fun _ => .bind readUshort fun _ => .bind readUshort fun _ =>
    .bind (readArray readUshort .readUshort) fun _ => .pure _

def propertyDecoder : Decoder allowed readProperty :=
  .bind readString fun _ => .bind readString fun _ => .pure _

def commandVersionDecoder : Decoder allowed CommandVersion.read :=
  .bind readUshort fun _ => .bind readUshort fun _ => .bind readUshort fun _ => .pure _

theorem advances_publishingError : Advances (do
    let sequence ← BinaryBuffer.readUlong
    let code ← BinaryBuffer.readUshort
    return ({ sequence, code } : PublishingError)) 2 :=
  (Advances.readUlong.bind fun _ => Advances.readUshort.bind fun _ => .pure _).mono (by decide)

theorem advances_broker : Advances Broker.read 2 :=
  (Advances.readUshort.bind fun _ => Advances.readString.bind fun _ =>
    Advances.readUint.bind fun _ => .pure _).mono (by decide)

theorem advances_streamMetadata : Advances StreamMetadata.read 2 :=
  (Advances.readString.bind fun _ => Advances.readUshort.bind fun _ =>
    Advances.readUshort.bind fun _ => Advances.readUshort.readArray.bind fun _ => .pure _).mono
    (by decide)

theorem advances_property : Advances readProperty 2 :=
  (Advances.readString.bind fun _ => Advances.readString.bind fun _ => .pure _).mono (by decide)

theorem advances_commandVersion : Advances CommandVersion.read 2 :=
  (Advances.readUshort.bind fun _ => Advances.readUshort.bind fun _ =>
    Advances.readUshort.bind fun _ => .pure _).mono (by decide)

/-- The byte that is put back does not count. -/
theorem advances_entry : Advances DeliverCommand.readEntry 2 := by
  intro b b' m h
  obtain ⟨byte, c, hbyte, h⟩ := read_bind_eq_ok.1 h
  obtain ⟨data, c', hget, hc⟩ := read_bind_eq_ok.1 hbyte
  obtain ⟨-, -, rfl⟩ := get_eq_ok hget
  obtain ⟨-, rfl⟩ := Prod.mk.inj (Except.ok.inj hc)
  by_cases hbit : byte &&& 0x80 ≠ 0
  · rw [if_pos hbit] at h
    cases h
  · rw [if_neg hbit] at h
    obtain ⟨_, d, hback, hblob⟩ := read_bind_eq_ok.1 h
    have hcursor : d.readCursor = b.readCursor := by
      rw [unreadByte, setReadCursor] at hback
      split at hback
      · cases hback
      · cases hback
        rfl
    have hmoved := Advances.readBlob d b' m hblob
    omega

/-- The exception of `DeliverCommand`. -/
def subEntryException : StreamException := .stream "Sub entry batching is not currently supported"

def entryDecoder (h : allowed subEntryException) : Decoder allowed DeliverCommand.readEntry :=
  .bind readByte fun _ =>
    .ite (fun _ => .bind (.throw h) fun _ => .bind .unread fun _ => readBlob) fun _ =>
      .bind .unread fun _ => readBlob

def committedChunkIdDecoder (version : UInt16) :
    Decoder allowed (DeliverCommand.readCommittedChunkId version) :=
  .ite (fun _ => .bind readUlong fun _ => .pure _) fun _ => .pure _

def chunkDecoder : Decoder allowed Chunk.read :=
  .bind readByte fun _ => .bind readByte fun _ => .bind readUshort fun _ => .bind readUint fun _ =>
    .bind readLong fun _ => .bind readUlong fun _ => .bind readUlong fun _ => .bind readUint fun _ =>
    .bind readUint fun _ => .bind readUint fun _ => .bind readUint fun _ => .pure _

/-- The entries are read from a copy of the data. -/
def deliverDecoder (version : UInt16) (h : allowed subEntryException) :
    Decoder allowed (DeliverCommand.readBody version) :=
  .bind readByte fun subscriptionId => .bind (committedChunkIdDecoder version) fun committedChunkId =>
    .bind chunkDecoder fun chunk => .bind (readBytes _) fun bytes =>
      .copy (fun messages => DeliverCommand.mk subscriptionId committedChunkId chunk messages) bytes
        (.elems (entryDecoder h) advances_entry _)

def responseDecoder : (type : ResponseType) → Decoder allowed (readBody type)
  | .generic => .bind readUshort fun _ => .pure _
  | .queryPublisherSequence => .bind readUshort fun _ => .bind readUlong fun _ => .pure _
  | .queryOffset => .bind readUshort fun _ => .bind readUlong fun _ => .pure _
  | .metadata =>
    .bind (readArray brokerDecoder advances_broker) fun _ =>
      .bind (readArray streamMetadataDecoder advances_streamMetadata) fun _ => .pure _
  | .peerProperties =>
    .bind readUshort fun _ => .bind (readMap propertyDecoder advances_property) fun _ => .pure _
  | .saslHandshake =>
    .bind readUshort fun _ => .bind (readArray readString .readString) fun _ => .pure _
  | .saslAuthenticate =>
    .bind readUshort fun _ =>
      .ite (fun _ => .bind readBlob fun _ => .pure _) fun _ => .bind (.pure _) fun _ => .pure _
  | .open =>
    .bind readUshort fun _ => .bind (readMap propertyDecoder advances_property) fun _ => .pure _
  | .exchangeCommandVersions =>
    .bind readUshort fun _ =>
      .bind (readArray commandVersionDecoder advances_commandVersion) fun _ => .pure _

end Parts

/-! ## The classes -/

namespace ServerClass

open Decoder

def Value : ServerClass → Type
  | publishConfirmCommand => PublishConfirmCommand
  | publishErrorCommand => PublishErrorCommand
  | deliverCommand _ => DeliverCommand
  | creditErrorCommand => CreditErrorCommand
  | metadataUpdateCommand => MetadataUpdateCommand
  | serverTuneCommand => ServerTuneCommand
  | serverCloseRequest => ServerCloseRequest
  | response _ => UInt32 × ResponseBody

def deserialize : (c : ServerClass) → Reader c.Value
  | publishConfirmCommand => PublishConfirmCommand.readBody
  | publishErrorCommand => PublishErrorCommand.readBody
  | deliverCommand version => DeliverCommand.readBody version
  | creditErrorCommand => CreditErrorCommand.readBody
  | metadataUpdateCommand => MetadataUpdateCommand.readBody
  | serverTuneCommand => ServerTuneCommand.readBody
  | serverCloseRequest => ServerCloseRequest.deserialize
  | response type => deserializeResponse type

/-- The exceptions of a class besides `InvalidInputException`. -/
def Allowed (c : ServerClass) (e : StreamException) : Prop :=
  ∃ version, c = deliverCommand version ∧ e = subEntryException

def decoder : (c : ServerClass) → Decoder c.Allowed c.deserialize
  | publishConfirmCommand =>
    .bind readByte fun _ => .bind (readArray readUlong (Advances.readUlong.mono (by decide)))
      fun _ => .pure _
  | publishErrorCommand =>
    .bind readByte fun _ => .bind (readArray publishingErrorDecoder advances_publishingError)
      fun _ => .pure _
  | deliverCommand version => deliverDecoder version ⟨version, rfl, rfl⟩
  | creditErrorCommand => .bind readUshort fun _ => .bind readByte fun _ => .pure _
  | metadataUpdateCommand =>
    .bind readUshort fun _ =>
      .ite (fun _ => .bind readString fun _ => .pure _) fun _ => .bind (.pure _) fun _ => .pure _
  | serverTuneCommand => .bind readUint fun _ => .bind readUint fun _ => .pure _
  | serverCloseRequest =>
    .bind readUint fun _ => .bind readUshort fun _ => .bind readString fun _ => .pure _
  | response type => .bind readUint fun _ => .bind (responseDecoder type) fun _ => .pure _

/-- **Every decoder of the server frames is safe on arbitrary bytes.** It throws nothing but
`InvalidInputException`, the exception of `DeliverCommand` apart. It uses only bytes of the buffer;
its cursor does not leave the buffer, and does not go back in a completed call. If an array announces
more elements than can fit, not more than half as many elements as there are bytes left are read and
the decoder throws. What it returns does not depend on what follows. -/
theorem deserialize_safe (c : ServerClass) (b : BinaryBuffer)
    (hb : b.readCursor ≤ b.bytes.length) :
    (∀ e, c.deserialize b = .error e →
      (∃ text, e = .invalidInput text) ∨
        ∃ version, c = deliverCommand version ∧ e = subEntryException) ∧
    (∀ i size, .index i size ∈ c.decoder.trace b → i < size) ∧
    (∀ position size, .cursor position size ∈ c.decoder.trace b → position ≤ size) ∧
    (∀ before after size, .field before after size ∈ c.decoder.trace b →
      before ≤ after ∧ after ≤ size) ∧
    (∀ announced remaining completed,
      .loop announced remaining completed ∈ c.decoder.trace b → remaining < 2 * announced →
        completed ≤ remaining / 2 ∧ ∃ e, c.deserialize b = .error e) ∧
    ∀ v b', c.deserialize b = .ok (v, b') →
      b'.bytes = b.bytes ∧ b'.readCursor ≤ b.bytes.length ∧
        ∀ extra, c.deserialize (extend b extra) = .ok (v, extend b' extra) := by
  refine ⟨c.decoder.tame.throws b, fun i size => c.decoder.trace_safe hb,
    fun position size => c.decoder.trace_safe hb, fun before after size => c.decoder.trace_safe hb,
    fun announced remaining completed he hlt => ?_, fun v b' h => ?_⟩
  · obtain ⟨hle, htwo⟩ := c.decoder.trace_safe hb he
    refine ⟨by omega, ?_⟩
    cases hrun : c.deserialize b with
    | error e => exact ⟨e, rfl⟩
    | ok r =>
      have hdone : completed = announced := c.decoder.trace_complete hrun he
      omega
  · obtain ⟨hle, heq⟩ := c.decoder.tame.stays b b' v hb h
    exact ⟨by rw [heq], hle, fun extra => c.decoder.tame.extends_ok b b' v extra h⟩

/-- A handshake that announces five mechanisms in six bytes. -/
theorem deserialize_safe_saslHandshake :
    ∃ e, (response .saslHandshake).deserialize
      ⟨[0, 0, 0, 1, 0, 1, 0, 0, 0, 5, 0, 1, 65, 0, 1, 66], 0, 16⟩ = .error e :=
  ((deserialize_safe (response .saslHandshake)
    ⟨[0, 0, 0, 1, 0, 1, 0, 0, 0, 5, 0, 1, 65, 0, 1, 66], 0, 16⟩ (by decide)).2.2.2.2.1 5 6 2
      (by decide) (by decide)).2

end ServerClass

end Hareflow.Client.Frames
