import Hareflow.Client.Framing
import Hareflow.Connection.Outbox
import Hareflow.Wire.Peer

/-!
# The frames at the other end

From a call of `send_frame` to the peer: the frame is serialized into a buffer, the buffer goes through
the outbox of the connection, several buffers may share an `async_write`, and the bytes of the
operations make up the stream, of which a first part arrives. The peer cuts the stream at the length
prefixes, as the read chain of a connection does, and reads the frames.

Nothing on this way mixes the frames up: the peer reads the frames that `send_frame` was called with,
in the order of the calls.
-/

namespace Hareflow.Client.Outbound

open Foundations Wire Connection

/-- A connection, and the record of the frames that it was given. -/
structure State where
  outbox : Outbox.State := {}
  sent : List ClientFrame := []

inductive Act
  /-- A call of `send_frame`, under the maximum frame size of the moment. -/
  | send (maxFrameSize : UInt32) (f : ClientFrame)
  /-- Anything else that happens at the connection. -/
  | outbox (a : Outbox.Act)
  deriving DecidableEq, Repr

/-- One step; only `send_frame` calls `write()`. -/
def step (s : State) : Act → Option State
  | .send maxFrameSize f =>
    match sendFrame maxFrameSize f.toSerializable with
    | .ok buffer => some ⟨s.outbox.write buffer, s.sent ++ [f]⟩
    -- the exception goes to the caller, and nothing is written
    | .error _ => some s
  | .outbox (.write _) => none
  | .outbox a => (Outbox.step s.outbox a).map fun outbox => { s with outbox }

def machine : Machine State Act where
  Init s := s = {}
  step := step

/-- The bytes of the `async_write` operations so far. -/
def State.bytes (s : State) : List UInt8 := s.outbox.started.flatMap Outbox.Operation.bytes

/-! ## The stream -/

/-- What the operations were given, and what they were not given yet, is what was written. -/
theorem exists_bytes_append {o : Outbox.State} (h : Outbox.Inv o) :
    ∃ later, later <:+ o.outbox ∧
      o.started.flatMap Outbox.Operation.bytes ++
          (later ++ o.posted).flatMap (fun e => e.buffer.bytes) =
        o.written.flatMap fun e => e.buffer.bytes := by
  have hbytes : ∀ ops : List Outbox.Operation, ops.flatMap Outbox.Operation.bytes =
      (ops.flatMap Outbox.Operation.entries).flatMap fun e => e.buffer.bytes := fun ops =>
    List.flatMap_assoc.symm
  have hfinished : (o.finished.map Prod.fst).flatMap Outbox.Operation.entries =
      o.finished.flatMap Prod.snd := by
    rw [List.flatMap_map, List.flatMap_def, List.flatMap_def,
      List.map_congr_left h.recorded.popped]
  have hcovered : o.inFlight.flatMap Outbox.Operation.entries <+: o.outbox := by
    rcases h.busy with ⟨-, hnone⟩ | ⟨op, hone, hop⟩
    · simp [hnone]
    · simpa [hone] using hop.isPrefix
  obtain ⟨later, hlater⟩ := hcovered
  have hstarted : o.started.flatMap Outbox.Operation.entries ++ (later ++ o.posted) = o.written := by
    rw [← h.recorded.flow, h.recorded.started, List.flatMap_append, hfinished, ← hlater]
    simp
  refine ⟨later, ⟨_, hlater⟩, ?_⟩
  rw [hbytes, ← List.flatMap_append, hstarted]

structure Inv (s : State) : Prop where
  outbox : Outbox.Inv s.outbox
  framed : s.outbox.written.map (fun e => e.buffer) = s.sent.map framed
  fits : ∀ f ∈ s.sent, f.Fits ∧ f.encode.length ≤ Reader.maxPayload

theorem inv_init : Inv {} := ⟨Outbox.inv_init, rfl, by simp⟩

theorem written_popEntries (result : Except IOException Unit) (n : ℕ) (o : Outbox.State) :
    (o.popEntries result n).written = o.written := by
  induction n generalizing o with
  | zero => rfl
  | succ n ih =>
    rw [Outbox.State.popEntries]
    split
    · rfl
    · exact ih _

/-- Nothing but `write()` adds to what was written. -/
theorem written_of_step {o o' : Outbox.State} {a : Outbox.Act} (ha : ∀ buffer, a ≠ .write buffer)
    (h : Outbox.step o a = some o') : o'.written = o.written := by
  cases a with
  | write buffer => exact absurd rfl (ha buffer)
  | handle =>
    simp only [Outbox.step] at h
    split at h
    · cases h
    · obtain rfl := Option.some.inj h
      rw [Outbox.State.handleWrite]
      split <;> rfl
  | complete i result =>
    simp only [Outbox.step] at h
    split at h
    · cases h
    · obtain rfl := Option.some.inj h
      rw [Outbox.State.callback]
      split
      · exact written_popEntries ..
      · exact written_popEntries ..
  | allocate size =>
    obtain rfl := Option.some.inj h
    rw [Outbox.State.allocateBuffer]
    split
    · rfl
    · split <;> rfl
  | release buffer =>
    obtain rfl := Option.some.inj h
    rfl

/-- What one step does: a frame is sent, or the connection goes on without one. -/
theorem step_cases {s t : State} {a : Act} (h : step s a = some t) :
    (∃ f, f.Fits ∧ f.encode.length ≤ Reader.maxPayload ∧
      t = ⟨s.outbox.write (framed f), s.sent ++ [f]⟩) ∨
    t = s ∨
    ∃ b, (∀ buffer, b ≠ .write buffer) ∧ Outbox.step s.outbox b = some t.outbox ∧
      t.sent = s.sent := by
  cases a with
  | send maxFrameSize f =>
    simp only [step] at h
    split at h
    · rename_i buffer hok
      obtain ⟨⟨hframe, hfits⟩, rfl⟩ := (sendFrame_ok_iff maxFrameSize f buffer).1 hok
      have hsize : f.encode.length ≤ Reader.maxPayload := by
        have hle := hframe.2
        simp only [uint32Max, Reader.maxPayload] at hle ⊢
        omega
      exact .inl ⟨f, hfits, hsize, (Option.some.inj h).symm⟩
    · exact .inr (.inl (Option.some.inj h).symm)
  | outbox b =>
    have hwrite : ∀ buffer, b ≠ .write buffer := by
      rintro buffer rfl
      simp [step] at h
    have hmap : (Outbox.step s.outbox b).map (fun outbox => { s with outbox }) = some t := by
      cases b with
      | write buffer => exact absurd rfl (hwrite buffer)
      | handle => exact h
      | complete i result => exact h
      | allocate size => exact h
      | release buffer => exact h
    obtain ⟨outbox, houtbox, rfl⟩ := Option.map_eq_some_iff.1 hmap
    exact .inr (.inr ⟨b, hwrite, houtbox, rfl⟩)

theorem inv_step {s t : State} {a : Act} (hs : Inv s) (h : step s a = some t) : Inv t := by
  rcases step_cases h with ⟨f, hfits, hsize, rfl⟩ | rfl | ⟨b, hb, houtbox, hsent⟩
  · refine ⟨hs.outbox.write _, ?_, fun g hg => ?_⟩
    · simp [Outbox.State.write, hs.framed]
    · rcases List.mem_append.1 hg with hg | hg
      · exact hs.fits g hg
      · obtain rfl := List.mem_singleton.1 hg
        exact ⟨hfits, hsize⟩
  · exact hs
  · refine ⟨Outbox.inv_step hs.outbox houtbox, ?_, ?_⟩
    · rw [written_of_step hb houtbox, hsent]
      exact hs.framed
    · rw [hsent]
      exact hs.fits

theorem inv_run {t : State} {as : List Act} (h : machine.run {} as = some t) : Inv t :=
  Machine.run_keeps (P := Inv) inv_step inv_init h

/-- What was written is the frames, one behind the other. -/
theorem Inv.written_eq {s : State} (h : Inv s) :
    s.outbox.written.flatMap (fun e => e.buffer.bytes) = Reader.wire (s.sent.map ClientFrame.encode) := by
  have hbytes : ∀ f : ClientFrame, (Client.framed f).bytes = Reader.frame f.encode := fun f => by
    simp [Client.framed, Reader.frame, BinaryBuffer.append]
  calc s.outbox.written.flatMap (fun e => e.buffer.bytes)
    _ = (s.outbox.written.map fun e => e.buffer).flatMap BinaryBuffer.bytes := by
      rw [List.flatMap_map]
    _ = (s.sent.map ClientFrame.encode).flatMap Reader.frame := by
      rw [h.framed, List.flatMap_map, List.flatMap_map]
      exact List.flatMap_congr fun f _ => hbytes f

/-- The first `k` bytes of the operations are the first bytes of the frames. -/
theorem Inv.take_bytes {s : State} (h : Inv s) (k : ℕ) :
    s.bytes.take k = (Reader.wire (s.sent.map ClientFrame.encode)).take (min k s.bytes.length) := by
  obtain ⟨later, -, hlater⟩ := exists_bytes_append h.outbox
  rw [← h.written_eq, ← hlater]
  change s.bytes.take k = (s.bytes ++ _).take _
  rw [List.take_append_of_le_length (Nat.min_le_right ..)]
  rcases Nat.le_total k s.bytes.length with hle | hle
  · rw [Nat.min_eq_left hle]
  · rw [Nat.min_eq_right hle, List.take_length, List.take_of_length_le hle]

/-- Nothing is held back once the outbox is empty. -/
theorem Inv.bytes_eq_wire {s : State} (h : Inv s) (hposted : s.outbox.posted = [])
    (houtbox : s.outbox.outbox = []) :
    s.bytes = Reader.wire (s.sent.map ClientFrame.encode) := by
  obtain ⟨later, hsuffix, hlater⟩ := exists_bytes_append h.outbox
  obtain rfl : later = [] := List.suffix_nil.1 (houtbox ▸ hsuffix)
  rw [← h.written_eq, ← hlater, hposted]
  simp [State.bytes]

/-! ## The peer -/

/-- A frame is at least its key and its version. -/
theorem encode_ne_nil (f : ClientFrame) : f.encode ≠ [] := by
  rw [ClientFrame.encode_eq]
  intro h
  have hlen := congrArg List.length h
  simp at hlen

/-- The peer reads the frame out of a buffer that was handed over. -/
theorem read_buffer {f : ClientFrame} (hfits : f.Fits) (hwell : f.WellFormed) {b : BinaryBuffer}
    (hcursor : b.readCursor = 4) (hunread : Reader.unread b = f.encode) :
    (ClientFrame.read b).map Prod.fst = .ok f := by
  have hat := Reader.at_of_unread hcursor hunread (encode_ne_nil f)
  obtain ⟨b', hread⟩ := (ClientFrame.read_reads hfits hwell).read_all hat
  rw [hread]
  rfl

/-- The buffers of a read chain hold the first of the frames. -/
theorem frames_read {buffers : List BinaryBuffer} {fs : List ClientFrame}
    (hpre : buffers.map Reader.unread <+: fs.map ClientFrame.encode)
    (hcursor : ∀ b ∈ buffers, b.readCursor = 4) (hfits : ∀ f ∈ fs, f.Fits)
    (hwell : ∀ f ∈ fs, f.WellFormed) :
    buffers.map (fun b => (ClientFrame.read b).map Prod.fst) =
      (fs.take buffers.length).map .ok := by
  induction buffers generalizing fs with
  | nil => rfl
  | cons b buffers ih =>
    cases fs with
    | nil => simp at hpre
    | cons f fs =>
      rw [List.map_cons, List.map_cons, List.cons_prefix_cons] at hpre
      rw [List.forall_mem_cons] at hcursor hfits hwell
      rw [List.map_cons, read_buffer hfits.1 hwell.1 hcursor.1 hpre.1,
        ih hpre.2 hcursor.2 hfits.2 hwell.2]
      rfl

/-- All frames are complete in all the bytes. -/
theorem complete_wire (ps : List (List UInt8)) :
    Reader.complete ps (Reader.wire ps).length = ps := by
  have h : Reader.complete (ps ++ []) (Reader.wire ps).length = ps ++ Reader.complete [] _ :=
    Reader.complete_append [] (Nat.le_refl _)
  simpa [Reader.complete] using h

section

variable {as : List Act} {t : State} (h : machine.run {} as = some t)
  (hwell : ∀ f ∈ t.sent, f.WellFormed) {k : ℕ} {fails : Bool} {rs : List Reader.Act} {r : Reader.State}
  (hr : (Reader.machine (t.bytes.take k) fails).run (Reader.start (t.bytes.take k)) rs = some r)

include h hr

/-- The invariant of a peer that reads what the connection has written. -/
theorem reader_inv : Reader.Inv (t.sent.map ClientFrame.encode) (min k t.bytes.length) r := by
  have hinv := inv_run h
  have hsize : ∀ p ∈ t.sent.map ClientFrame.encode, p.length ≤ Reader.maxPayload := by
    intro p hp
    obtain ⟨f, hf, rfl⟩ := List.mem_map.1 hp
    exact (hinv.fits f hf).2
  rw [hinv.take_bytes k] at hr
  exact Reader.inv_run hsize hr

include hwell

/-- The peer parses what it has into the first frames. -/
theorem read_buffers : r.buffers.map (fun b => (ClientFrame.read b).map Prod.fst) =
    (t.sent.take r.buffers.length).map .ok := by
  have hreader := reader_inv h hr
  exact frames_read (hreader.framed.received_isPrefix.trans (Reader.complete_isPrefix ..))
    hreader.cursor (fun f hf => ((inv_run h).fits f hf).1) hwell

omit hwell

/-- In the end the peer has all of them. -/
theorem length_buffers (hposted : t.outbox.posted = []) (houtbox : t.outbox.outbox = [])
    (hk : t.bytes.length ≤ k) (hfailed : r.connectionFailed = true) :
    r.buffers.length = t.sent.length := by
  have hreader := reader_inv h hr
  have hstopped := hreader.framed
  rw [hreader.failed.1 hfailed] at hstopped
  have hcomplete : r.received = Reader.complete _ (min k t.bytes.length) := hstopped
  rw [Nat.min_eq_right hk, (inv_run h).bytes_eq_wire hposted houtbox, complete_wire] at hcomplete
  have hlen := congrArg List.length hcomplete
  simpa [Reader.State.received] using hlen

end

/-- **Requests arrive as they were made.** Calls of `send_frame`, by any threads and under any maximum
frame size, the handlers of the connection and the completions of its `async_write` operations come in
any order; of the bytes of the operations the first `k` reach a peer that reads them frame by frame.
Whatever the peer has received, it parses into the frames of the calls that did not throw, in the
order of the calls; and once the connection has nothing left to write and the peer has seen the end of
the stream, it has all of them. -/
theorem requests_arrive (as : List Act) (t : State) (h : machine.run {} as = some t)
    (hwell : ∀ f ∈ t.sent, f.WellFormed) (k : ℕ) (fails : Bool) (rs : List Reader.Act)
    (r : Reader.State)
    (hr : (Reader.machine (t.bytes.take k) fails).run (Reader.start (t.bytes.take k)) rs = some r) :
    r.buffers.map (fun b => (ClientFrame.read b).map Prod.fst) =
        (t.sent.take r.buffers.length).map .ok ∧
    (t.outbox.posted = [] → t.outbox.outbox = [] → t.bytes.length ≤ k →
      r.connectionFailed = true →
      r.buffers.map (fun b => (ClientFrame.read b).map Prod.fst) = t.sent.map .ok) := by
  have hread := read_buffers h hwell hr
  refine ⟨hread, fun hposted houtbox hk hfailed => ?_⟩
  rw [hread, length_buffers h hr hposted houtbox hk hfailed, List.take_length]

/-- Three frames, of which the last two share an operation; a fourth is over the limit. -/
def threeFrames : List Act :=
  [.send 0 (.deleteRequest 7 [115]), .outbox .handle, .send 0 .clientHeartbeatCommand,
    .send 3 .clientHeartbeatCommand, .send 1024 (.creditCommand 1 10), .outbox .handle,
    .outbox .handle, .outbox (.complete 0 (.ok ())), .outbox (.complete 0 (.ok ()))]

/-- The peer reads three frames and then finds the end of the stream. -/
def threeReads : List Reader.Act :=
  [.read, .arrive, .arrive, .handle, .arrive, .arrive, .arrive, .arrive, .error "End of file"]

theorem requests_arrive_threeFrames :
    ∃ t r, machine.run {} threeFrames = some t ∧
      (Reader.machine (t.bytes.take 100) true).run (Reader.start (t.bytes.take 100)) threeReads =
        some r ∧
      r.buffers.map (fun b => (ClientFrame.read b).map Prod.fst) =
        [.ok (.deleteRequest 7 [115]), .ok .clientHeartbeatCommand, .ok (.creditCommand 1 10)] := by
  obtain ⟨t, r, ht, hr, hsent, hposted, houtbox, hlen, hfailed⟩ : ∃ t r,
      machine.run {} threeFrames = some t ∧
      (Reader.machine (t.bytes.take 100) true).run (Reader.start (t.bytes.take 100)) threeReads =
        some r ∧
      t.sent = [.deleteRequest 7 [115], .clientHeartbeatCommand, .creditCommand 1 10] ∧
      t.outbox.posted = [] ∧ t.outbox.outbox = [] ∧ t.bytes.length ≤ 100 ∧
      r.connectionFailed = true :=
    ⟨_, _, rfl, rfl, rfl, rfl, rfl, by decide, rfl⟩
  have hwell : ∀ f ∈ t.sent, f.WellFormed := by
    rw [hsent]
    simp [ClientFrame.WellFormed]
  have harrive := (requests_arrive threeFrames t ht hwell 100 true threeReads r hr).2
    hposted houtbox hlen hfailed
  rw [hsent] at harrive
  exact ⟨t, r, ht, hr, harrive⟩

end Hareflow.Client.Outbound
