import Hareflow.Client.Publish
import Hareflow.Wire.Commands

/-!
# The frames on the wire

`send_frame` takes the length prefix of a frame from `serialized_size` and its bytes from
`serialize`, and nothing compares the two. Since every class of `ClientFrame` writes as many bytes
as it announces, what reaches the connection is well framed: the prefix counts the bytes that
follow, and these are the header and the body. `sendFrame_ok_iff` says which frames reach it.
-/

namespace Hareflow.Client

open Wire

/-- The buffer of a frame: the length prefix, the header and the body. -/
def framed (f : ClientFrame) : BinaryBuffer :=
  BinaryBuffer.append {} (bigEndian 4 f.encode.length ++ f.encode)

/-- A frame is handed to the connection when its size and its fields are within their limits. -/
theorem sendFrame_ok_iff (maxFrameSize : UInt32) (f : ClientFrame) (buffer : BinaryBuffer) :
    sendFrame maxFrameSize f.toSerializable = .ok buffer ↔
      (FrameFits maxFrameSize f.encode.length ∧ f.Fits) ∧ buffer = framed f := by
  have hsize := f.length_encode
  have hsent : FrameFits maxFrameSize f.encode.length → f.Fits →
      sendFrame maxFrameSize f.toSerializable = .ok (framed f) := by
    intro hframe hfits
    have hlt : f.encode.length < 2 ^ 32 := by
      have := hframe.2
      simp only [uint32Max] at this
      omega
    have hlength : (UInt32.ofNat f.toSerializable.serializedSize).toNat = f.encode.length := by
      rw [← hsize, UInt32.toNat_ofNat_of_lt' hlt]
    rw [sendFrame_of_writes hsize (f.serialize_encodes.writes hfits) (hsize ▸ hframe), hlength]
    rfl
  constructor
  · intro h
    obtain ⟨hframe, b, hb⟩ := of_sendFrame_ok h
    rw [← hsize] at hframe
    have hfits := (f.serialize_encodes.of_ok hb).1
    rw [hsent hframe hfits] at h
    exact ⟨⟨hframe, hfits⟩, (Except.ok.inj h).symm⟩
  · rintro ⟨⟨hframe, hfits⟩, rfl⟩
    exact hsent hframe hfits

/-- A frame whose fields are within their limits is handed over when its size is. -/
theorem sendFrame_isOk_iff {f : ClientFrame} (hfits : f.Fits) (maxFrameSize : UInt32) :
    (∃ buffer, sendFrame maxFrameSize f.toSerializable = .ok buffer) ↔
      FrameFits maxFrameSize f.toSerializable.serializedSize := by
  simp only [sendFrame_ok_iff, ← f.length_encode]
  exact ⟨fun ⟨_, h, _⟩ => h.1, fun h => ⟨framed f, ⟨h, hfits⟩, rfl⟩⟩

/-- What `send_frame` throws is `InvalidInputException`. -/
theorem invalidInput_of_sendFrame {maxFrameSize : UInt32} {f : ClientFrame} {e : StreamException}
    (h : sendFrame maxFrameSize f.toSerializable = .error e) : ∃ what, e = .invalidInput what := by
  rw [sendFrame] at h
  split at h
  · cases h
    exact ⟨_, rfl⟩
  · rcases bind_eq_error.1 h with h | ⟨b, -, h⟩
    · rw [BinaryBuffer.reserve] at h
      split at h
      · cases h
        exact ⟨_, rfl⟩
      · cases h
    · rcases bind_eq_error.1 h with h | ⟨c, -, h⟩
      · exact (Encodes.put _).throws h
      · exact f.serialize_encodes.throws h

/-- A frame that is not handed over is refused as invalid input. -/
theorem sendFrame_throws_iff (maxFrameSize : UInt32) (f : ClientFrame) :
    (∃ what, sendFrame maxFrameSize f.toSerializable = .error (.invalidInput what)) ↔
      ¬(FrameFits maxFrameSize f.encode.length ∧ f.Fits) := by
  have hok := sendFrame_ok_iff maxFrameSize f
  constructor
  · rintro ⟨what, h⟩ hfits
    rw [(hok (framed f)).2 ⟨hfits, rfl⟩] at h
    cases h
  · intro hfits
    cases hsend : sendFrame maxFrameSize f.toSerializable with
    | error e =>
      obtain ⟨what, rfl⟩ := invalidInput_of_sendFrame hsend
      exact ⟨what, rfl⟩
    | ok buffer => exact absurd ((hok buffer).1 hsend).1 hfits

/-- Every frame put on the wire is well framed. `send_frame` throws `InvalidInputException` exactly
when the frame with its prefix is longer than the maximum frame size or than a buffer, or a string,
a blob or an array is too long for its length field. Otherwise it hands a buffer over, which has the
count of the remaining bytes in front, then the header and the body, and is within the limits.
Serializing moves the write cursor by the announced size, whatever the buffer. -/
theorem sendFrame_wellFramed (maxFrameSize : UInt32) (f : ClientFrame) :
    ((∃ what, sendFrame maxFrameSize f.toSerializable = .error (.invalidInput what)) ↔
      (0 < maxFrameSize.toNat ∧ maxFrameSize.toNat < f.toSerializable.serializedSize + 4) ∨
      2 ^ 32 - 1 < f.toSerializable.serializedSize + 4 ∨
      (∃ s ∈ f.strings, 32767 < s.length) ∨ (∃ s ∈ f.blobs, 2 ^ 31 - 1 < s.length) ∨
      ∃ n ∈ f.arrayLengths, 2 ^ 31 - 1 < n) ∧
    ((∃ what, sendFrame maxFrameSize f.toSerializable = .error (.invalidInput what)) ∨
      ∃ buffer, sendFrame maxFrameSize f.toSerializable = .ok buffer) ∧
    (∀ buffer, sendFrame maxFrameSize f.toSerializable = .ok buffer →
      buffer.bytes.take 4 = bigEndian 4 (buffer.bytes.length - 4) ∧
      buffer.bytes.drop 4 = f.encodeHeader ++ f.encodeBody ∧
      (0 < maxFrameSize.toNat → buffer.bytes.length ≤ maxFrameSize.toNat) ∧
      buffer.bytes.length ≤ 2 ^ 32 - 1) ∧
    ∀ b b' : BinaryBuffer, f.toSerializable.serialize b = .ok b' →
      b'.writeCursor = b.writeCursor + f.toSerializable.serializedSize := by
  refine ⟨?_, ?_, ?_, ?_⟩
  · rw [sendFrame_throws_iff, f.fits_iff, f.length_encode]
    simp only [FrameFits, not_and_or, not_forall, not_le, exists_prop, or_assoc]
    rfl
  · cases hsend : sendFrame maxFrameSize f.toSerializable with
    | error e =>
      obtain ⟨what, rfl⟩ := invalidInput_of_sendFrame hsend
      exact .inl ⟨what, rfl⟩
    | ok buffer => exact .inr ⟨buffer, rfl⟩
  · intro buffer h
    obtain ⟨⟨⟨hM, hmax⟩, -⟩, rfl⟩ := (sendFrame_ok_iff maxFrameSize f buffer).1 h
    have hbytes : (framed f).bytes = bigEndian 4 f.encode.length ++ f.encode := rfl
    have hlength : (framed f).bytes.length = f.encode.length + 4 := by
      simp [hbytes, Nat.add_comm]
    refine ⟨?_, ?_, ?_, ?_⟩
    · rw [hlength, hbytes, List.take_left' (length_bigEndian ..), Nat.add_sub_cancel]
    · rw [hbytes, List.drop_left' (length_bigEndian ..)]
      rfl
    · intro hpos
      rw [hlength]
      exact hM hpos
    · rw [hlength]
      exact hmax
  · intro b b' h
    rw [(f.serialize_encodes.of_ok h).2, f.length_encode]

end Hareflow.Client
