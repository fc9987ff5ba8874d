import Hareflow.Foundations.Scan
import Hareflow.Client.FrameHandlers

/-!
# The messages of a chunk

`handle_deliver` decodes the entries of a chunk one after the other and calls the message listener
for each. An entry that the codec cannot decode throws out of the loop, and `handle_frames` logs the
exception and goes on with the next frame: the entries behind it are not delivered, and nothing will
deliver them later.

So the loop is a scan that stops early, and `delivered_iff` says when nothing is lost: when no
entry that can be decoded stands behind one that cannot.
-/

namespace Hareflow.Client.Frames

open Foundations Wire

variable {μ : Type}

/-- The call of the message listener for an entry with its number, if the codec can decode it. -/
def entryCall (p : Parameters μ) (subscriptionId : UInt8) (context : ChunkContext) (offset : UInt64)
    (entry : Bytes × ℕ) : Option (ListenerCall μ) :=
  match p.decode entry.1 with
  | .error _ => none
  | .ok message => some (.message subscriptionId context (offset + UInt64.ofNat entry.2) message)

theorem isSome_entryCall (p : Parameters μ) (subscriptionId : UInt8) (context : ChunkContext)
    (offset : UInt64) (entry : Bytes × ℕ) :
    (entryCall p subscriptionId context offset entry).isSome = (p.decode entry.1).isOk := by
  rw [entryCall]
  cases p.decode entry.1 <;> rfl

/-- The loop calls the listener for the entries before the first that cannot be decoded. -/
theorem calls_deliverMessages (p : Parameters μ) (subscriptionId : UInt8) (context : ChunkContext)
    (offset : UInt64) (messages : List Bytes) (k : ℕ) (s : State μ) :
    (finalState (deliverMessages p subscriptionId context (offset + UInt64.ofNat k) messages s)).calls =
      s.calls ++ ((messages.zipIdx k).takeWhile fun e =>
        (entryCall p subscriptionId context offset e).isSome).filterMap
          (entryCall p subscriptionId context offset) := by
  induction messages generalizing k s with
  | nil => simp [deliverMessages, finalState, pure, EStateM.pure]
  | cons m messages ih =>
    show (finalState (EStateM.bind _ _ s)).calls = _
    rw [EStateM.bind, decode]
    cases hdecode : p.decode m with
    | error e => simp [finalState, isSome_entryCall, hdecode, Except.isOk, Except.toBool]
    | ok message =>
      have hnext : offset + UInt64.ofNat k + 1 = offset + UInt64.ofNat (k + 1) := by
        rw [UInt64.ofNat_add, UInt64.add_assoc]
        rfl
      have hentry : entryCall p subscriptionId context offset (m, k) =
          some (.message subscriptionId context (offset + UInt64.ofNat k) message) := by
        rw [entryCall, hdecode]
      have hrest := ih (k + 1)
        { s with calls := s.calls ++
          [.message subscriptionId context (offset + UInt64.ofNat k) message] }
      rw [← hnext] at hrest
      rw [List.zipIdx_cons, List.takeWhile_cons_of_pos (by rw [hentry]; rfl),
        List.filterMap_cons_some hentry, List.append_cons, ← hrest]
      rfl

/-- The calls of the message listener for all entries of a chunk that the codec can decode: each
once, in the order of the entries, with the offset of the chunk plus the number of the entry. -/
def deliveries (p : Parameters μ) (c : DeliverCommand) : List (ListenerCall μ) :=
  c.messages.zipIdx.filterMap
    (entryCall p c.subscriptionId (chunkContext c) c.chunk.offset)

/-- A well-formed command is handled as what it is. -/
theorem handleDeliver_of_wellFormed {p : Parameters μ} (hlistener : p.messageListener = true)
    {version : UInt16} {c : DeliverCommand} (hc : c.WellFormed version) (before rest : Bytes)
    (writeCursor : ℕ) (s : State μ) :
    handleDeliver p version ⟨before ++ (c.encodeBody ++ rest), before.length, writeCursor⟩ s =
      EStateM.bind (callChunkListener p c.subscriptionId (chunkContext c))
        (fun _ => deliverMessages p c.subscriptionId (chunkContext c) c.chunk.offset c.messages) s := by
  have hread := DeliverCommand.readBody_reads hc before rest writeCursor
  rw [handleDeliver, if_neg (by simp [hlistener])]
  show EStateM.bind _ _ s = _
  rw [EStateM.bind, deserialize, hread]
  simp only [hlistener]
  rfl

/-- **A message that cannot be decoded loses the messages behind it.** For a well-formed chunk of
simple entries, wherever it stands in its buffer, and a chunk listener that returns, the message
listener is called for the entries before the first that the codec cannot decode. These are all
entries that it can decode exactly if none of them stands behind one that it cannot. -/
theorem delivered_iff (p : Parameters μ) (hlistener : p.messageListener = true) (version : UInt16)
    (c : DeliverCommand) (hc : c.WellFormed version) (before rest : Bytes) (writeCursor : ℕ)
    (s u : State μ) (hchunk : callChunkListener p c.subscriptionId (chunkContext c) s = .ok () u) :
    let call := entryCall p c.subscriptionId (chunkContext c) c.chunk.offset
    let calls := (finalState (handleDeliver p version
      ⟨before ++ (c.encodeBody ++ rest), before.length, writeCursor⟩ s)).calls
    calls = u.calls ++ (c.messages.zipIdx.takeWhile fun e => (call e).isSome).filterMap call ∧
    (calls = u.calls ++ deliveries p c ↔
      c.messages.Pairwise fun m m' => (p.decode m').isOk = true → (p.decode m).isOk = true) := by
  have hzero : c.chunk.offset + UInt64.ofNat 0 = c.chunk.offset := UInt64.add_zero _
  have hcalls := calls_deliverMessages p c.subscriptionId (chunkContext c) c.chunk.offset c.messages
    0 u
  rw [hzero] at hcalls
  dsimp only
  rw [handleDeliver_of_wellFormed hlistener hc, EStateM.bind, hchunk]
  dsimp only
  refine ⟨hcalls, ?_⟩
  rw [hcalls, List.append_cancel_left_eq, deliveries, filterMap_takeWhile_eq_iff]
  simp only [isSome_entryCall]
  rw [← List.pairwise_map (f := Prod.fst) (R := fun m m' =>
    (p.decode m').isOk = true → (p.decode m).isOk = true), List.zipIdx_map_fst]

/-- A chunk of version 1 at offset 100, with entries of one byte each. -/
def chunkOf (entries : List UInt8) : DeliverCommand where
  subscriptionId := 0
  committedChunkId := none
  chunk :=
    { magicVersion := 0x50, chunkType := 0, nbEntries := UInt16.ofNat entries.length
      nbRecords := UInt32.ofNat entries.length, timestamp := 0, epoch := 1, offset := 100
      chunkCrc := 0, dataLen := UInt32.ofNat (5 * entries.length), trailerLen := 0, reserved := 0 }
  messages := entries.map fun b => [b]

/-- A client with a message listener, whose codec cannot decode the entry `0`. -/
def decodingNonzero : Parameters Bytes where
  messageListener := true
  decode m := if m = [0] then .error (.stream "Failed to decode message") else .ok m

/-- The entry that cannot be decoded is the last one: the others are delivered. -/
theorem delivered_iff_last :
    (finalState (handleDeliver decodingNonzero 1 ⟨(chunkOf [7, 8, 0]).encodeBody, 0, 0⟩
      { maxFrameSize := 0, heartbeat := 0 })).calls = deliveries decodingNonzero (chunkOf [7, 8, 0]) ∧
    (deliveries decodingNonzero (chunkOf [7, 8, 0])).length = 2 := by
  have h := delivered_iff decodingNonzero rfl 1 (chunkOf [7, 8, 0])
    ⟨rfl, rfl, rfl, by decide⟩ [] [] 0 { maxFrameSize := 0, heartbeat := 0 }
    { maxFrameSize := 0, heartbeat := 0 } rfl
  have hordered : (chunkOf [7, 8, 0]).messages.Pairwise fun m m' =>
      (decodingNonzero.decode m').isOk = true → (decodingNonzero.decode m).isOk = true := by
    decide
  have hdelivered := h.2.2 hordered
  rw [List.append_nil] at hdelivered
  exact ⟨hdelivered, by decide +kernel⟩

/-- The entry that cannot be decoded is the first one: the other, at offset 101, is lost. -/
theorem lost_behind_undecodable :
    (chunkOf [0, 7]).WellFormed 1 ∧
    deliveries decodingNonzero (chunkOf [0, 7]) =
      [.message 0 (chunkContext (chunkOf [0, 7])) 101 [7]] ∧
    (finalState (handleDeliver decodingNonzero 1 ⟨(chunkOf [0, 7]).encodeBody, 0, 0⟩
      { maxFrameSize := 0, heartbeat := 0 })).calls = [] := by
  refine ⟨⟨rfl, rfl, rfl, by decide⟩, by decide +kernel, by decide +kernel⟩

end Hareflow.Client.Frames
