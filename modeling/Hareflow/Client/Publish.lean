import Hareflow.Foundations.GreedyCut
import Hareflow.Producer.Accumulator

/-!
# Publishing encoded messages

`ClientImpl::publish_encoded` batches messages into publish commands that stay within the maximum
frame size, and `send_frame` refuses a frame that exceeds it. The accumulator has checked each
message against the same limit before. The three computations do not agree: the accumulator and the
batcher count the frame without its length prefix of four bytes, `send_frame` counts it with the
prefix. A batch that comes within four bytes of the limit is refused, and with it the messages that
follow; so is a message of more than `2 ^ 31 - 1` bytes, which the accumulator accepts and
`write_blob` does not.

The loop sends the groups of the greedy cut of its input (`publishEncoded_eq_sendBatches`), and a
group is sent when it fits with the prefix (`sendFrame_publish_isOk_iff`). Since the greedy cut is
the only one of its kind, the two say when exactly every accepted message is sent.
-/

namespace Hareflow.Client

open Foundations GreedyCut Wire Producer
open PublishCommand (Message baseSerializedSize)

/-- The buffer that `send_frame` hands to the connection. A buffer of the pool was cleared when it
was released, so `allocate_buffer` gives an empty one. -/
def sendFrame (maxFrameSize : UInt32) (frame : Serializable) :
    Except StreamException BinaryBuffer :=
  let frameDataSize := frame.serializedSize
  let frameSize := frameDataSize + 4
  if 0 < maxFrameSize.toNat ∧ maxFrameSize.toNat < frameSize then
    .error (.invalidInput s!"Maximum frame size exceeded ({maxFrameSize})")
  else do
    let buffer ← BinaryBuffer.reserve frameSize {}
    let buffer ← buffer.writeUint (UInt32.ofNat frameDataSize)
    frame.serialize buffer

/-- A frame handed to the connection: the command it carries, and its buffer. -/
structure Frame where
  command : PublishCommand
  buffer : BinaryBuffer
  deriving DecidableEq, Repr

/-- What a call of `publish_encoded` leaves behind: the frames handed to the connection, and the
exception it ended with, if any. -/
structure PublishOutcome where
  frames : List Frame
  thrown : Option StreamException
  deriving DecidableEq, Repr

/-- A frame handed over before the rest. -/
def PublishOutcome.after (f : Frame) (o : PublishOutcome) : PublishOutcome :=
  { o with frames := f :: o.frames }

/-- Send one batch; then do the rest, unless the batch is refused. -/
def sendBatch (maxFrameSize : UInt32) (publisherId : UInt8) (batch : List Message)
    (rest : PublishOutcome) : PublishOutcome :=
  match sendFrame maxFrameSize (PublishCommand.mk publisherId batch).toSerializable with
  | .error e => ⟨[], some e⟩
  | .ok buffer => rest.after ⟨⟨publisherId, batch⟩, buffer⟩

/-- The loop of `publish_encoded`, with its message batch and its current size. -/
def publishLoop (maxFrameSize : UInt32) (publisherId : UInt8) :
    List Message → ℕ → List Message → PublishOutcome
  | batch, _, [] =>
    if batch.isEmpty then ⟨[], none⟩ else sendBatch maxFrameSize publisherId batch ⟨[], none⟩
  | batch, currentSize, m :: ms =>
    let addedSize := m.serializedSize
    if 0 < maxFrameSize.toNat ∧ maxFrameSize.toNat < currentSize + addedSize then
      sendBatch maxFrameSize publisherId batch
        (publishLoop maxFrameSize publisherId [m] (baseSerializedSize + addedSize) ms)
    else publishLoop maxFrameSize publisherId (batch ++ [m]) (currentSize + addedSize) ms

def publishEncoded (maxFrameSize : UInt32) (publisherId : UInt8)
    (encodedMessages : List Message) : PublishOutcome :=
  publishLoop maxFrameSize publisherId [] baseSerializedSize encodedMessages

/-! ## The frames -/

theorem serializedSize_publish (publisherId : UInt8) (batch : List Message) :
    (PublishCommand.mk publisherId batch).toSerializable.serializedSize =
      baseSerializedSize + weight Message.serializedSize batch :=
  PublishCommand.serializedSize_eq _

/-- A message takes at least twelve bytes, its publishing id and its length. -/
theorem twelve_mul_length_le (batch : List Message) :
    12 * batch.length ≤ weight Message.serializedSize batch := by
  induction batch with
  | nil => simp
  | cons m ms ih => simp [Message.serializedSize_eq]; omega

/-- `send_frame` lets a frame of this size pass: it is within the maximum frame size, if there is
one, and within the size of a buffer, both with the length prefix. -/
def FrameFits (maxFrameSize : UInt32) (serializedSize : ℕ) : Prop :=
  (0 < maxFrameSize.toNat → serializedSize + 4 ≤ maxFrameSize.toNat) ∧
    serializedSize + 4 ≤ uint32Max

theorem toNat_le_uint32Max (v : UInt32) : v.toNat ≤ uint32Max := by
  have := v.toNat_lt
  simp only [uint32Max]
  omega

theorem frameFits_iff {maxFrameSize : UInt32} (hM : 0 < maxFrameSize.toNat) (size : ℕ) :
    FrameFits maxFrameSize size ↔ size + 4 ≤ maxFrameSize.toNat := by
  have := toNat_le_uint32Max maxFrameSize
  simp only [FrameFits]
  omega

/-- A frame that is sent has passed both size checks and has been serialized. -/
theorem of_sendFrame_ok {maxFrameSize : UInt32} {frame : Serializable} {buffer : BinaryBuffer}
    (h : sendFrame maxFrameSize frame = .ok buffer) :
    FrameFits maxFrameSize frame.serializedSize ∧ ∃ b, frame.serialize b = .ok buffer := by
  simp only [sendFrame] at h
  split at h
  · cases h
  · obtain ⟨b₁, hreserve, h⟩ := bind_eq_ok.1 h
    obtain ⟨b₂, -, h⟩ := bind_eq_ok.1 h
    rw [BinaryBuffer.reserve] at hreserve
    split at hreserve
    · cases hreserve
    · exact ⟨⟨by omega, by omega⟩, b₂, h⟩

/-- A frame that fits is its length prefix and what it writes. -/
theorem sendFrame_of_writes {maxFrameSize : UInt32} {frame : Serializable} {out : List UInt8}
    (hout : out.length = frame.serializedSize) (hwrites : Writes frame.serialize out)
    (hfits : FrameFits maxFrameSize frame.serializedSize) :
    sendFrame maxFrameSize frame = .ok (BinaryBuffer.append {}
      (bigEndian 4 (UInt32.ofNat frame.serializedSize).toNat ++ out)) := by
  obtain ⟨hM, hmax⟩ := hfits
  have hrun := (Writes.put (bigEndian 4 (UInt32.ofNat frame.serializedSize).toNat)).bind hwrites {} rfl
    (by simp only [List.length_append, length_bigEndian, hout, List.length_nil]; omega)
  simp only [sendFrame, BinaryBuffer.reserve]
  rw [if_neg (by omega), if_neg (by omega)]
  exact hrun

/-- A batch is sent when its frame fits and no body is too long for a blob. -/
theorem sendFrame_publish_isOk_iff_frameFits (maxFrameSize : UInt32) (publisherId : UInt8)
    (batch : List Message) :
    (∃ b, sendFrame maxFrameSize (PublishCommand.mk publisherId batch).toSerializable = .ok b) ↔
      FrameFits maxFrameSize (baseSerializedSize + weight Message.serializedSize batch) ∧
        ∀ m ∈ batch, m.body.length ≤ int32Max := by
  have hencodes := PublishCommand.serialize_encodes ⟨publisherId, batch⟩
  rw [← serializedSize_publish publisherId]
  constructor
  · rintro ⟨b, h⟩
    obtain ⟨hfits, c, hc⟩ := of_sendFrame_ok h
    exact ⟨hfits, (hencodes.of_ok hc).1.2⟩
  · rintro ⟨hfits, hbody⟩
    -- every message has twelve bytes of its own, so the array is short enough
    have hcount : batch.length ≤ int32Max := by
      have := twelve_mul_length_le batch
      have := hfits.2
      rw [serializedSize_publish] at this
      simp only [int32Max, uint32Max] at *
      omega
    exact ⟨_, sendFrame_of_writes (PublishCommand.length_encode _)
      (hencodes.writes ⟨hcount, hbody⟩) hfits⟩

/-- Under a maximum frame size, the frame has to fit with the length prefix. -/
theorem sendFrame_publish_isOk_iff {maxFrameSize : UInt32} (hM : 0 < maxFrameSize.toNat)
    (publisherId : UInt8) (batch : List Message) :
    (∃ b, sendFrame maxFrameSize (PublishCommand.mk publisherId batch).toSerializable = .ok b) ↔
      baseSerializedSize + weight Message.serializedSize batch + 4 ≤ maxFrameSize.toNat ∧
        ∀ m ∈ batch, m.body.length ≤ int32Max := by
  rw [sendFrame_publish_isOk_iff_frameFits, frameFits_iff hM]

/-! ## The batches -/

/-- Send the batches in order, up to the first that is refused. -/
def sendBatches (maxFrameSize : UInt32) (publisherId : UInt8) (batches : List (List Message)) :
    PublishOutcome :=
  batches.foldr (sendBatch maxFrameSize publisherId) ⟨[], none⟩

/-- The outcome of a call that sent all of `ms`: no exception, and the frames' messages are `ms`, in
order. -/
def PublishOutcome.Carries (o : PublishOutcome) (ms : List Message) : Prop :=
  o.thrown = none ∧ o.frames.flatMap (·.command.messages) = ms

instance (o : PublishOutcome) (ms : List Message) : Decidable (o.Carries ms) :=
  inferInstanceAs (Decidable (_ ∧ _))

/-- **The loop sends the groups of a greedy cut**: its current size is the base size and the weight
of its batch. -/
theorem publishLoop_eq_sendBatches {maxFrameSize : UInt32} (hM : 0 < maxFrameSize.toNat)
    (publisherId : UInt8) (ms batch : List Message) :
    publishLoop maxFrameSize publisherId batch
        (baseSerializedSize + weight Message.serializedSize batch) ms =
      sendBatches maxFrameSize publisherId (greedy Message.serializedSize
        (maxFrameSize.toNat - baseSerializedSize) batch ms) := by
  induction ms generalizing batch with
  | nil =>
    rw [publishLoop, greedy]
    split <;> rfl
  | cons m ms ih =>
    have hm := m.serializedSize_eq
    have htest : (0 < maxFrameSize.toNat ∧ maxFrameSize.toNat < baseSerializedSize +
        weight Message.serializedSize batch + m.serializedSize) ↔
        maxFrameSize.toNat - baseSerializedSize <
          weight Message.serializedSize batch + m.serializedSize := by omega
    simp only [publishLoop, greedy, htest]
    split
    · have := ih [m]
      simp only [weight_cons, weight_nil, Nat.add_zero] at this
      rw [this]
      rfl
    · have := ih (batch ++ [m])
      simp only [weight_append, weight_cons, weight_nil, Nat.add_zero] at this
      rw [← this, Nat.add_assoc]

theorem publishEncoded_eq_sendBatches {maxFrameSize : UInt32} (hM : 0 < maxFrameSize.toNat)
    (publisherId : UInt8) (ms : List Message) :
    publishEncoded maxFrameSize publisherId ms = sendBatches maxFrameSize publisherId
      (greedy Message.serializedSize (maxFrameSize.toNat - baseSerializedSize) [] ms) :=
  publishLoop_eq_sendBatches hM publisherId ms []

/-- All is sent when every batch is. -/
theorem sendBatches_carries_iff (maxFrameSize : UInt32) (publisherId : UInt8)
    (batches : List (List Message)) :
    (sendBatches maxFrameSize publisherId batches).Carries batches.flatten ↔
      ∀ batch ∈ batches, ∃ b,
        sendFrame maxFrameSize (PublishCommand.mk publisherId batch).toSerializable = .ok b := by
  induction batches with
  | nil => simp [sendBatches, PublishOutcome.Carries]
  | cons g gs ih =>
    rw [List.forall_mem_cons, ← ih, sendBatches, List.foldr_cons, sendBatch]
    cases sendFrame maxFrameSize (PublishCommand.mk publisherId g).toSerializable with
    | error e => simp [PublishOutcome.Carries]
    | ok b => simp [PublishOutcome.Carries, PublishOutcome.after, sendBatches]

/-! ## The partition of the input -/

/-- The frame of a batch is as long as announced, and its length prefix. -/
theorem length_sendFrame_publish {maxFrameSize : UInt32} {publisherId : UInt8}
    {batch : List Message} {buffer : BinaryBuffer}
    (h : sendFrame maxFrameSize (PublishCommand.mk publisherId batch).toSerializable =
      .ok buffer) :
    buffer.bytes.length =
      (PublishCommand.mk publisherId batch).toSerializable.serializedSize + 4 := by
  have hencodes := PublishCommand.serialize_encodes ⟨publisherId, batch⟩
  obtain ⟨hfits, b, hb⟩ := of_sendFrame_ok h
  have hsent := sendFrame_of_writes (PublishCommand.length_encode _)
    (hencodes.writes (hencodes.of_ok hb).1) hfits
  obtain rfl := Except.ok.inj (h.symm.trans hsent)
  have hlength := PublishCommand.length_encode ⟨publisherId, batch⟩
  simp only [BinaryBuffer.bytes_append, List.length_append, length_bigEndian, hlength]
  simp only [List.length_nil]
  omega

/-- The message does not fit into the frame of the batch any more. -/
def Overflows (maxFrameSize : UInt32) (publisherId : UInt8) (batch : List Message) (m : Message) :
    Prop :=
  0 < maxFrameSize.toNat ∧ maxFrameSize.toNat <
    (PublishCommand.mk publisherId (batch ++ [m])).toSerializable.serializedSize

/-- What a call of `publish_encoded` can leave behind of the messages that it has still to send. A
batch ends with the input, if it is not empty, or before a message that does not fit any more. -/
inductive Sends (maxFrameSize : UInt32) (publisherId : UInt8) :
    List Message → PublishOutcome → Prop
  | done : Sends maxFrameSize publisherId [] ⟨[], none⟩
  | refused {batch rest : List Message} {e : StreamException}
    (hsend : sendFrame maxFrameSize (PublishCommand.mk publisherId batch).toSerializable = .error e)
    (hlast : rest = [] → batch ≠ [])
    (hclosed : ∀ m ∈ rest.head?, Overflows maxFrameSize publisherId batch m) :
    Sends maxFrameSize publisherId (batch ++ rest) ⟨[], some e⟩
  | sent {batch rest : List Message} {buffer : BinaryBuffer} {o : PublishOutcome}
    (hsend : sendFrame maxFrameSize (PublishCommand.mk publisherId batch).toSerializable =
      .ok buffer)
    (hlast : rest = [] → batch ≠ [])
    (hclosed : ∀ m ∈ rest.head?, Overflows maxFrameSize publisherId batch m)
    (hrest : Sends maxFrameSize publisherId rest o) :
    Sends maxFrameSize publisherId (batch ++ rest) (o.after ⟨⟨publisherId, batch⟩, buffer⟩)

theorem Sends.sendBatch {maxFrameSize : UInt32} {publisherId : UInt8} {batch rest : List Message}
    {o : PublishOutcome} (hlast : rest = [] → batch ≠ [])
    (hclosed : ∀ m ∈ rest.head?, Overflows maxFrameSize publisherId batch m)
    (hrest : Sends maxFrameSize publisherId rest o) :
    Sends maxFrameSize publisherId (batch ++ rest)
      (sendBatch maxFrameSize publisherId batch o) := by
  rw [Client.sendBatch]
  split
  · rename_i e he
    exact .refused he hlast hclosed
  · rename_i buffer hbuffer
    exact .sent hbuffer hlast hclosed hrest

/-- The loop, whose current size is the size of the frame of its batch. -/
theorem sends_publishLoop (maxFrameSize : UInt32) (publisherId : UInt8) (ms batch : List Message) :
    Sends maxFrameSize publisherId (batch ++ ms) (publishLoop maxFrameSize publisherId batch
      (baseSerializedSize + weight Message.serializedSize batch) ms) := by
  induction ms generalizing batch with
  | nil =>
    rw [publishLoop]
    split
    · rename_i hempty
      rw [List.isEmpty_iff.1 hempty]
      exact .done
    · rename_i hne
      exact Sends.sendBatch (fun _ => by simpa using hne) (by simp) .done
  | cons m ms ih =>
    rw [publishLoop]
    split
    · rename_i hover
      refine Sends.sendBatch (by simp) ?_ (by simpa using ih [m])
      intro m' hm'
      obtain rfl : m = m' := by simpa using hm'
      refine ⟨hover.1, ?_⟩
      rw [serializedSize_publish, weight_append, weight_cons, weight_nil]
      omega
    · have := ih (batch ++ [m])
      rw [weight_append, weight_cons, weight_nil, Nat.add_zero, ← Nat.add_assoc,
        List.append_assoc] at this
      exact this

theorem sends_publishEncoded (maxFrameSize : UInt32) (publisherId : UInt8) (ms : List Message) :
    Sends maxFrameSize publisherId ms (publishEncoded maxFrameSize publisherId ms) :=
  sends_publishLoop maxFrameSize publisherId ms []

namespace Sends

variable {maxFrameSize : UInt32} {publisherId : UInt8} {ms : List Message} {o : PublishOutcome}

/-- The messages of the frames are the first ones of the input. -/
theorem isPrefix (h : Sends maxFrameSize publisherId ms o) :
    o.frames.flatMap (·.command.messages) <+: ms := by
  induction h with
  | done => simp
  | refused => simp
  | sent hsend hlast hclosed hrest ih =>
    simp only [PublishOutcome.after, List.flatMap_cons]
    exact (List.prefix_append_right_inj _).2 ih

theorem carries (h : Sends maxFrameSize publisherId ms o) (hthrown : o.thrown = none) :
    o.Carries ms := by
  refine ⟨hthrown, ?_⟩
  induction h with
  | done => rfl
  | refused => cases hthrown
  | sent hsend hlast hclosed hrest ih =>
    simp only [PublishOutcome.after, List.flatMap_cons]
    rw [ih hthrown]

/-- Each frame carries its command, and is within the limit. -/
theorem frame (h : Sends maxFrameSize publisherId ms o) {f : Frame} (hf : f ∈ o.frames) :
    f.command.publisherId = publisherId ∧
      sendFrame maxFrameSize f.command.toSerializable = .ok f.buffer := by
  induction h with
  | done => cases hf
  | refused => cases hf
  | sent hsend hlast hclosed hrest ih =>
    rcases List.mem_cons.1 hf with rfl | hf
    · exact ⟨rfl, hsend⟩
    · exact ih hf

theorem messages_ne_nil (h : Sends maxFrameSize publisherId ms o)
    (hms : ∀ m ∈ ms, baseSerializedSize + m.serializedSize ≤ maxFrameSize.toNat) {f : Frame}
    (hf : f ∈ o.frames) : f.command.messages ≠ [] := by
  induction h with
  | done => cases hf
  | refused => cases hf
  | @sent batch rest buffer o hsend hlast hclosed hrest ih =>
    rcases List.mem_cons.1 hf with rfl | hf
    · rintro hnil
      obtain rfl : batch = [] := hnil
      -- an empty batch is closed before a message that does not fit into any frame
      cases rest with
      | nil => exact hlast rfl rfl
      | cons m rest =>
        obtain ⟨-, hlt⟩ := hclosed m rfl
        have hle := hms m (List.mem_cons_self ..)
        rw [serializedSize_publish, List.nil_append, weight_cons, weight_nil] at hlt
        omega
    · exact ih (fun m hm => hms m (List.mem_append_right batch hm)) hf

/-- A frame ends with the input, or before a message that does not fit any more. -/
theorem closed (h : Sends maxFrameSize publisherId ms o) {before after : List Frame} {f : Frame}
    (hframes : o.frames = before ++ f :: after) {m : Message} {rest : List Message}
    (hms : ms = before.flatMap (·.command.messages) ++ f.command.messages ++ m :: rest) :
    Overflows maxFrameSize publisherId f.command.messages m := by
  induction h generalizing before with
  | done => simp at hframes
  | refused => simp at hframes
  | @sent batch rest' buffer o hsend hlast hclosed hrest ih =>
    cases before with
    | nil =>
      obtain ⟨rfl, -⟩ := List.cons.inj hframes
      refine hclosed m ?_
      have hrest' : rest' = m :: rest := by simpa using hms
      rw [hrest']
      rfl
    | cons g before =>
      obtain ⟨rfl, htail⟩ := List.cons.inj hframes
      exact ih htail (by simpa using hms)

end Sends

/-- **`publish_encoded` partitions its input**: the frames handed to the connection carry a first
part of it, and all of it when the call returns; they are within the maximum frame size with their
length prefix; none is empty when every message fits into a frame of its own; and one is closed
before a message only if it has no room for the message. -/
theorem publishEncoded_partitions (maxFrameSize : UInt32) (publisherId : UInt8)
    (ms : List Message) :
    let o := publishEncoded maxFrameSize publisherId ms
    o.frames.flatMap (·.command.messages) <+: ms ∧
    (o.thrown = none → o.frames.flatMap (·.command.messages) = ms) ∧
    (∀ f ∈ o.frames, f.command.publisherId = publisherId ∧
      sendFrame maxFrameSize f.command.toSerializable = .ok f.buffer ∧
      (0 < maxFrameSize.toNat → f.buffer.bytes.length ≤ maxFrameSize.toNat)) ∧
    ((∀ m ∈ ms, baseSerializedSize + m.serializedSize ≤ maxFrameSize.toNat) →
      ∀ f ∈ o.frames, f.command.messages ≠ []) ∧
    (∀ before f after m rest, o.frames = before ++ f :: after →
      ms = before.flatMap (·.command.messages) ++ f.command.messages ++ m :: rest →
      0 < maxFrameSize.toNat ∧ maxFrameSize.toNat <
        (PublishCommand.mk publisherId (f.command.messages ++ [m])).toSerializable.serializedSize) := by
  have hsends := sends_publishEncoded maxFrameSize publisherId ms
  refine ⟨hsends.isPrefix, fun hthrown => (hsends.carries hthrown).2, fun f hf => ?_,
    fun hms f hf => hsends.messages_ne_nil hms hf,
    fun before f after m rest hframes hms => hsends.closed hframes hms⟩
  obtain ⟨hid, hsend⟩ := hsends.frame hf
  refine ⟨hid, hsend, fun hM => ?_⟩
  rw [length_sendFrame_publish hsend]
  exact (of_sendFrame_ok hsend).1.1 hM

/-! ## The three size checks -/

/-- `m` passes `Accumulator::add` of some accumulator with the given maximum frame size. -/
def AcceptedAt (maxFrameSize : UInt32) (m : AccumulatedMessage) : Prop :=
  ∃ a : Accumulator, a.maxFrameSize = maxFrameSize ∧ ∃ full a', a.add m = .added full a'

/-- A cut of the messages into consecutive groups, each of which fits in a frame of `maxFrameSize`
bytes with its length prefix, and could not take the first message of the next group even without
one. -/
structure IsPrefixedCut (maxFrameSize : ℕ) (gs : List (List Message)) : Prop where
  ne_nil : ∀ g ∈ gs, g ≠ []
  fits : ∀ g ∈ gs, baseSerializedSize + weight Message.serializedSize g + 4 ≤ maxFrameSize
  closed : gs.IsChain fun g g' => ∀ m ∈ g'.head?,
    maxFrameSize < baseSerializedSize + weight Message.serializedSize g + m.serializedSize

theorem AcceptedAt.serializedSize_le {maxFrameSize : UInt32} (hM : 0 < maxFrameSize.toNat)
    {m : AccumulatedMessage} (h : AcceptedAt maxFrameSize m) :
    baseSerializedSize + m.toMessage.serializedSize ≤ maxFrameSize.toNat := by
  obtain ⟨a, rfl, full, a', h⟩ := h
  exact Accumulator.checkSize_eq_none.1 (Accumulator.checkSize_of_add h) hM

theorem IsPrefixedCut.isGreedyCut {maxFrameSize : ℕ} {gs : List (List Message)}
    (h : IsPrefixedCut maxFrameSize gs) :
    IsGreedyCut Message.serializedSize (maxFrameSize - baseSerializedSize) gs := by
  refine ⟨h.ne_nil, fun g hg => ?_, h.closed.imp fun g g' hgg' m hm => ?_⟩
  · have := h.fits g hg
    omega
  · have := hgg' m hm
    have := m.serializedSize_eq
    omega

/-- **When the accepted messages are all sent**: exactly when they can be cut into groups that fit
with the length prefix and that the batcher, which does not count it, would still have closed where
they end, and no body is longer than a blob may be. -/
theorem publishEncoded_carries_iff {maxFrameSize : UInt32} (hM : 0 < maxFrameSize.toNat)
    (publisherId : UInt8) {ms : List AccumulatedMessage}
    (hms : ∀ m ∈ ms, AcceptedAt maxFrameSize m) :
    (publishEncoded maxFrameSize publisherId (ms.map AccumulatedMessage.toMessage)).Carries
        (ms.map AccumulatedMessage.toMessage) ↔
      (∃ gs, gs.flatten = ms.map AccumulatedMessage.toMessage ∧
        IsPrefixedCut maxFrameSize.toNat gs) ∧ ∀ m ∈ ms, m.encoded.length ≤ int32Max := by
  set cap := maxFrameSize.toNat - baseSerializedSize with hcap
  set xs := ms.map AccumulatedMessage.toMessage with hxs
  have hitems : ∀ x ∈ xs, x.serializedSize ≤ cap := by
    intro x hx
    obtain ⟨m, hm, rfl⟩ := List.mem_map.1 hx
    have := (hms m hm).serializedSize_le hM
    omega
  have hflat : (greedy Message.serializedSize cap [] xs).flatten = xs := flatten_greedy xs []
  have hcarries : (publishEncoded maxFrameSize publisherId xs).Carries xs ↔
      ∀ g ∈ greedy Message.serializedSize cap [] xs,
        baseSerializedSize + weight Message.serializedSize g + 4 ≤ maxFrameSize.toNat ∧
          ∀ m ∈ g, m.body.length ≤ int32Max := by
    rw [publishEncoded_eq_sendBatches hM]
    have := sendBatches_carries_iff maxFrameSize publisherId (greedy Message.serializedSize cap [] xs)
    rw [hflat] at this
    rw [this]
    simp only [sendFrame_publish_isOk_iff hM]
  -- the bodies of the groups are the bodies of the messages
  have hbodies : (∀ g ∈ greedy Message.serializedSize cap [] xs, ∀ m ∈ g,
      m.body.length ≤ int32Max) ↔ ∀ m ∈ ms, m.encoded.length ≤ int32Max := by
    rw [← List.forall_mem_flatten, hflat, hxs, List.forall_mem_map]
    rfl
  rw [hcarries]
  constructor
  · intro h
    have hcut := isGreedyCut_greedy hitems
    refine ⟨⟨_, hflat, hcut.ne_nil, fun g hg => (h g hg).1, hcut.closed.imp fun g g' hgg' m hm => ?_⟩,
      hbodies.1 fun g hg => (h g hg).2⟩
    have := hgg' m hm
    omega
  · rintro ⟨⟨gs, hgs, hcut⟩, hbody⟩ g hg
    refine ⟨?_, hbodies.2 hbody g hg⟩
    rw [← hgs, hcut.isGreedyCut.eq_greedy] at hg
    exact hcut.fits g hg

/-- The theorem at three messages that are cut into two frames, each with room for its length prefix. -/
theorem publishEncoded_carries_twoFrames :
    (publishEncoded 40 0 [⟨0, []⟩, ⟨1, []⟩, ⟨2, [7]⟩]).Carries [⟨0, []⟩, ⟨1, []⟩, ⟨2, [7]⟩] ∧
      (publishEncoded 40 0 [⟨0, []⟩, ⟨1, []⟩, ⟨2, [7]⟩]).frames.map (·.command.messages.length) =
        [2, 1] := by
  have hacc : ∀ m ∈ [AccumulatedMessage.mk 0 0 [] 0, ⟨1, 0, [], 1⟩, ⟨2, 0, [7], 2⟩],
      AcceptedAt 40 m := by
    intro m hm
    simp only [List.mem_cons, List.not_mem_nil, or_false] at hm
    obtain rfl | rfl | rfl := hm <;> exact ⟨⟨1, 40, [], false⟩, rfl, true, _, rfl⟩
  refine ⟨(publishEncoded_carries_iff (by decide) 0 hacc).2 ⟨⟨[[⟨0, []⟩, ⟨1, []⟩], [⟨2, [7]⟩]], rfl, ?_⟩,
    by decide⟩, by decide⟩
  exact ⟨by simp, by decide, by decide⟩

/-- **The three size checks disagree**: a message without a body is accepted under a maximum frame
size of 21 bytes and refused by `send_frame`, which counts 25. -/
theorem publishEncoded_drops_accepted :
    ¬∀ (maxFrameSize : UInt32) (publisherId : UInt8) (ms : List AccumulatedMessage),
      0 < maxFrameSize.toNat → (∀ m ∈ ms, AcceptedAt maxFrameSize m) →
      (publishEncoded maxFrameSize publisherId (ms.map AccumulatedMessage.toMessage)).Carries
        (ms.map AccumulatedMessage.toMessage) := by
  intro h
  have hacc : ∀ m ∈ [AccumulatedMessage.mk 0 0 [] 0], AcceptedAt 21 m := by
    intro m hm
    obtain rfl := List.mem_singleton.1 hm
    exact ⟨⟨1, 21, [], false⟩, rfl, true, _, rfl⟩
  exact absurd (h 21 0 _ (by decide) hacc) (by decide)

end Hareflow.Client
