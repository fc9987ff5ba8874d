import Hareflow.Wire.PublishCommand

/-!
# The accumulator

Messages that a producer accepts wait in its `Accumulator` until a batch is published. `add` runs
under the accumulator's mutex except while it waits for space, so it has two atomic parts: the size
check (`checkSize`) and, once there is space or the accumulator is destroyed, the insertion
(`insert`). A call that would wait is one whose second part is not enabled yet.
-/

namespace Hareflow.Producer

open Wire

/-- `AccumulatedMessage`. The message and its confirmation handler stand under one name, `ticket`:
the call of `send` that they came with. -/
structure AccumulatedMessage where
  publishingId : UInt64
  publishTime : ℕ
  encoded : List UInt8
  ticket : ℕ
  deriving DecidableEq, Repr

/-- What `publish_batch` hands to the client for a message. -/
def AccumulatedMessage.toMessage (m : AccumulatedMessage) : PublishCommand.Message :=
  ⟨m.publishingId, m.encoded⟩

structure Accumulator where
  capacity : ℕ
  maxFrameSize : UInt32
  pending : List AccumulatedMessage
  destroyed : Bool
  deriving DecidableEq, Repr

/-- How a call of `add` ends. -/
inductive AddResult
  /-- The message does not fit in a frame. -/
  | tooBig (e : StreamException)
  /-- There is no space: the call waits for `m_space_available`. -/
  | waits
  /-- `AccumulatorDestroyedException`. -/
  | destroyed
  /-- The message was added, and whether the accumulator is now full. -/
  | added (full : Bool) (a : Accumulator)
  deriving DecidableEq, Repr

namespace Accumulator

/-- The size check of `add`, under the maximum frame size of the moment. -/
def checkSize (a : Accumulator) (publishingId : UInt64) (encoded : List UInt8) :
    Option StreamException :=
  if 0 < a.maxFrameSize.toNat ∧ a.maxFrameSize.toNat < PublishCommand.baseSerializedSize +
      (PublishCommand.Message.mk publishingId encoded).serializedSize then
    some (.invalidInput s!"Maximum frame size exceeded ({a.maxFrameSize})")
  else none

/-- The condition that `add` waits for. -/
def ready (a : Accumulator) : Bool := a.pending.length < a.capacity || a.destroyed

/-- The rest of `add`, after the size check. -/
def insert (a : Accumulator) (m : AccumulatedMessage) : AddResult :=
  if a.ready then
    if a.destroyed then .destroyed
    else .added (a.pending.length + 1 == a.capacity) { a with pending := a.pending ++ [m] }
  else .waits

def add (a : Accumulator) (m : AccumulatedMessage) : AddResult :=
  match a.checkSize m.publishingId m.encoded with
  | some e => .tooBig e
  | none => a.insert m

/-- `extract_all`: the pending messages, and the accumulator without them. -/
def extractAll (a : Accumulator) : List AccumulatedMessage × Accumulator :=
  (a.pending, { a with pending := [] })

def destroy (a : Accumulator) : Accumulator := { a with destroyed := true }

theorem checkSize_eq_none {a : Accumulator} {publishingId : UInt64} {encoded : List UInt8} :
    a.checkSize publishingId encoded = none ↔ (0 < a.maxFrameSize.toNat →
      PublishCommand.baseSerializedSize +
        (PublishCommand.Message.mk publishingId encoded).serializedSize ≤ a.maxFrameSize.toNat) := by
  simp [checkSize]

/-- A message that `add` accepts is in the accumulator, after the ones that were there. -/
theorem insert_eq_added {a a' : Accumulator} {m : AccumulatedMessage} {full : Bool}
    (h : a.insert m = .added full a') :
    a.destroyed = false ∧ a.pending.length < a.capacity ∧
      a' = { a with pending := a.pending ++ [m] } := by
  rw [insert] at h
  split at h
  · rename_i hready
    split at h
    · cases h
    · rename_i hd
      have hspace : a.pending.length < a.capacity := by simpa [ready, hd] using hready
      exact ⟨by simpa using hd, hspace, (AddResult.added.inj h).2.symm⟩
  · cases h

/-- What `add` accepts passed the size check. -/
theorem checkSize_of_add {a a' : Accumulator} {m : AccumulatedMessage} {full : Bool}
    (h : a.add m = .added full a') : a.checkSize m.publishingId m.encoded = none := by
  cases hc : a.checkSize m.publishingId m.encoded with
  | none => rfl
  | some e => simp [add, hc] at h

end Accumulator

end Hareflow.Producer
