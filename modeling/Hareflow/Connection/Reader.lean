import Hareflow.Foundations.Machine
import Hareflow.Wire.BinaryBuffer

/-!
# The read chain of a connection

`start_async_read_chain` reads the length prefix of a frame, then its payload, hands the buffer to
the pending read or puts it into the inbox, and starts over. An error ends the chain, fails the
pending read and marks the connection as failed. `read()` posts a handler to the strand that takes
the front of the inbox, fails, or becomes the pending read. All of these are handlers of one strand,
so each of them is a step.

The peer sends a byte string, of which some prefix arrives, and then the stream may fail. An
`async_read` completes when the bytes that it asks for have arrived, and with an error when they
never will. `wire` is the byte string of a list of payloads, and `complete` are the payloads of
which all bytes arrived.

The invariant `Framed` ties the chain to the stream: the payloads handed out, those in the inbox and
those still to come are the payloads that arrive completely.
-/

namespace Hareflow.Connection

open Foundations Wire

structure IOException where
  what : String
  deriving DecidableEq, Repr

namespace Reader

/-- What the read chain waits for. -/
inductive Chain
  /-- An `async_read` of the length prefix into the buffer. -/
  | length (buffer : BinaryBuffer)
  /-- An `async_read` of the payload into the buffer, after its length prefix. -/
  | payload (buffer : BinaryBuffer)
  /-- Nothing: an error has ended the chain. -/
  | stopped
  /-- Nothing: an exception has left a callback. -/
  | escaped (e : StreamException)
  deriving DecidableEq, Repr

/-- The number of bytes that the outstanding `async_read` asks for. -/
def Chain.requested : Chain → Option ℕ
  | length buffer => some buffer.size
  | payload buffer => some (buffer.size - 4)
  | stopped | escaped _ => none

/-- The reading side of a connection. A promise is the number of its call of `read()`. -/
structure State where
  /-- The bytes that arrive and have not been read. -/
  input : List UInt8
  chain : Chain
  /-- The calls of `read()`. -/
  calls : ℕ := 0
  /-- The handlers that `read()` posted and that the strand has not run. -/
  posted : List ℕ := []
  /-- `m_pending_read`. -/
  pendingRead : Option ℕ := none
  /-- `m_inbox`. -/
  inbox : List BinaryBuffer := []
  /-- `m_connection_failed`. -/
  connectionFailed : Bool := false
  /-- The promises that have been completed, in the order of completion. -/
  completed : List (ℕ × Except IOException BinaryBuffer) := []
  deriving DecidableEq, Repr

namespace State

/-- `set_value` or `set_exception` of a promise. -/
def complete (s : State) (promise : ℕ) (result : Except IOException BinaryBuffer) : State :=
  { s with completed := s.completed ++ [(promise, result)] }

/-- The handler that `read()` posts. -/
def handleRead (s : State) (promise : ℕ) : State :=
  if s.pendingRead.isSome then
    s.complete promise
      (.error ⟨"Illegal state: can not have concurrent reads on connection"⟩)
  else match s.inbox with
    | buffer :: inbox => { s with inbox }.complete promise (.ok buffer)
    | [] =>
      if s.connectionFailed then s.complete promise (.error ⟨"Connection failed unexpectedly"⟩)
      else { s with pendingRead := some promise }

/-- `start_async_read_chain`; a buffer of the pool is empty, with both cursors at zero. -/
def startAsyncReadChain (s : State) : State :=
  match BinaryBuffer.resize 4 {} with
  | .error e => { s with chain := .escaped e }
  | .ok buffer => { s with chain := .length buffer }

/-- The error branch of both callbacks. -/
def fail (s : State) (what : String) : State :=
  match s.pendingRead with
  | some promise =>
    { s.complete promise (.error ⟨what⟩) with
      pendingRead := none, connectionFailed := true, chain := .stopped }
  | none => { s with connectionFailed := true, chain := .stopped }

/-- The callback of the length prefix: make room for the payload and read it. -/
def callback (s : State) (buffer : BinaryBuffer) : State :=
  match buffer.readUint with
  | .error e => { s with chain := .escaped e }
  | .ok (size, buffer) =>
    match buffer.resize (4 + size.toNat) with
    | .error e => { s with chain := .escaped e }
    | .ok buffer => { s with chain := .payload buffer }

/-- The callback of the payload: hand the buffer over and start the next frame. -/
def postToInbox (s : State) (buffer : BinaryBuffer) : State :=
  match s.pendingRead with
  | some promise =>
    { s.complete promise (.ok buffer) with pendingRead := none }.startAsyncReadChain
  | none => { s with inbox := s.inbox ++ [buffer] }.startAsyncReadChain

end State

inductive Act
  /-- A call of `read()`. -/
  | read
  /-- The strand runs the next handler of a `read()`. -/
  | handle
  /-- The outstanding `async_read` completes with its bytes. -/
  | arrive
  /-- The outstanding `async_read` completes with an error. -/
  | error (what : String)
  deriving DecidableEq, Repr

/-- One step; the stream fails after the bytes that arrive if `fails` says so. -/
def step (fails : Bool) (s : State) : Act → Option State
  | .read => some { s with posted := s.posted ++ [s.calls], calls := s.calls + 1 }
  | .handle =>
    match s.posted with
    | [] => none
    | promise :: posted => some ({ s with posted }.handleRead promise)
  | .arrive =>
    match s.chain with
    | .length buffer =>
      if s.input.length < buffer.size then none
      else some ({ s with input := s.input.drop buffer.size }.callback
        { buffer with bytes := s.input.take buffer.size })
    | .payload buffer =>
      if s.input.length < buffer.size - 4 then none
      else some ({ s with input := s.input.drop (buffer.size - 4) }.postToInbox
        { buffer with bytes := buffer.bytes.take 4 ++ s.input.take (buffer.size - 4) })
    | .stopped | .escaped _ => none
  | .error what =>
    match s.chain.requested with
    | none => none
    | some n => if fails ∧ s.input.length < n then some (s.fail what) else none

/-- A connection after `connect()`, with the bytes that will arrive. -/
def start (bytes : List UInt8) : State :=
  State.startAsyncReadChain { input := bytes, chain := .stopped }

def machine (bytes : List UInt8) (fails : Bool) : Machine State Act where
  Init s := s = start bytes
  step := step fails

/-! ## Frames on a byte stream -/

/-- The bytes of a payload on the wire: its length prefix and itself. -/
def frame (payload : List UInt8) : List UInt8 := bigEndian 4 payload.length ++ payload

/-- The bytes of a list of payloads. -/
def wire (payloads : List (List UInt8)) : List UInt8 := payloads.flatMap frame

/-- The payloads that are complete in the first `k` bytes. -/
def complete : List (List UInt8) → ℕ → List (List UInt8)
  | [], _ => []
  | p :: ps, k => if 4 + p.length ≤ k then p :: complete ps (k - (4 + p.length)) else []

@[simp] theorem wire_nil : wire [] = [] := rfl

@[simp] theorem wire_cons (p : List UInt8) (ps : List (List UInt8)) :
    wire (p :: ps) = bigEndian 4 p.length ++ (p ++ wire ps) := by
  simp [wire, frame]

@[simp] theorem wire_append (ps qs : List (List UInt8)) : wire (ps ++ qs) = wire ps ++ wire qs := by
  simp [wire]

/-- The complete payloads are the first ones. -/
theorem complete_isPrefix (ps : List (List UInt8)) (k : ℕ) : complete ps k <+: ps := by
  induction ps generalizing k with
  | nil => simp [complete]
  | cons p ps ih =>
    rw [complete]
    split
    · exact List.prefix_cons_inj p |>.2 (ih _)
    · exact List.nil_prefix

theorem complete_append {ps : List (List UInt8)} (qs : List (List UInt8)) {k : ℕ}
    (h : (wire ps).length ≤ k) :
    complete (ps ++ qs) k = ps ++ complete qs (k - (wire ps).length) := by
  induction ps generalizing k with
  | nil => simp
  | cons p ps ih =>
    simp only [wire_cons, List.length_append, length_bigEndian] at h
    rw [List.cons_append, complete, if_pos (by omega), ih (by omega), List.cons_append, wire_cons]
    simp only [List.length_append, length_bigEndian]
    congr 3
    omega

/-- A frame that is cut short leaves nothing complete. -/
theorem complete_eq_nil {p : List UInt8} {k : ℕ} (ps : List (List UInt8)) (h : k < 4 + p.length) :
    complete (p :: ps) k = [] := by
  rw [complete, if_neg (by omega)]

/-- The largest payload that the buffer of a frame has room for. -/
def maxPayload : ℕ := 2 ^ 32 - 5

/-! ## The buffers of a frame -/

/-- The buffer that waits for a length prefix. -/
def lengthBuffer : BinaryBuffer := ⟨[0, 0, 0, 0], 0, 0⟩

/-- The buffer that waits for a payload. -/
def payloadBuffer (p : List UInt8) : BinaryBuffer :=
  ⟨bigEndian 4 p.length ++ List.replicate p.length 0, 4, 0⟩

/-- The buffer of a frame, with the read cursor after the length prefix. -/
def frameBuffer (p : List UInt8) : BinaryBuffer := ⟨bigEndian 4 p.length ++ p, 4, 0⟩

/-- The bytes of a buffer from its read cursor on. -/
def unread (b : BinaryBuffer) : List UInt8 := b.bytes.drop b.readCursor

@[simp] theorem unread_frameBuffer (p : List UInt8) : unread (frameBuffer p) = p :=
  List.drop_left' (length_bigEndian ..)

/-- A buffer of a frame is in front of the payload. -/
theorem at_of_unread {b : BinaryBuffer} {p : List UInt8} (hcursor : b.readCursor = 4)
    (hunread : unread b = p) (hp : p ≠ []) : b.At p := by
  have hlen : 4 ≤ b.bytes.length := by
    by_contra hlt
    have hnil : unread b = [] := List.drop_eq_nil_of_le (by omega)
    exact hp (hunread.symm.trans hnil)
  refine ⟨b.bytes.take 4, b.writeCursor, ?_⟩
  rw [← hunread, unread, hcursor, List.take_append_drop, List.length_take, Nat.min_eq_left hlen,
    ← hcursor]

theorem size_payloadBuffer (p : List UInt8) : (payloadBuffer p).size = 4 + p.length := by
  simp [payloadBuffer, BinaryBuffer.size]

theorem State.startAsyncReadChain_eq (s : State) :
    s.startAsyncReadChain = { s with chain := .length lengthBuffer } := rfl

/-- The callback on the four bytes of any length prefix: room for a payload of this length, or an
exception if the buffer would become too long. -/
theorem State.callback_four {data : List UInt8} (hdata : data.length = 4) (s : State) :
    s.callback ⟨data, 0, 0⟩ =
      if fromBigEndian data ≤ maxPayload then
        { s with chain := .payload ⟨data ++ List.replicate (fromBigEndian data) 0, 4, 0⟩ }
      else { s with chain := .escaped BinaryBuffer.maximumBufferSizeExceeded } := by
  have hlt : fromBigEndian data < 2 ^ 32 := by
    have := fromBigEndian_lt data
    rw [hdata] at this
    exact this
  have hread : BinaryBuffer.readUint ⟨data, 0, 0⟩ =
      .ok (UInt32.ofNat (fromBigEndian data), ⟨data, 4, 0⟩) := by
    have hget : BinaryBuffer.get 4 ⟨data, 0, 0⟩ = .ok (data, ⟨data, 4, 0⟩) := by
      rw [BinaryBuffer.get, if_neg (by simp [hdata]), List.drop_zero,
        List.take_of_length_le (Nat.le_of_eq hdata)]
    show (BinaryBuffer.get 4 _).bind _ = _
    rw [hget]
    rfl
  simp only [State.callback, hread, UInt32.toNat_ofNat_of_lt' hlt]
  by_cases hfits : fromBigEndian data ≤ maxPayload
  · have hresize : BinaryBuffer.resize (4 + fromBigEndian data) ⟨data, 4, 0⟩ =
        .ok ⟨data ++ List.replicate (fromBigEndian data) 0, 4, 0⟩ := by
      rw [BinaryBuffer.resize, if_neg (by simp only [uint32Max, maxPayload] at *; omega),
        resizeBytes_of_le (Nat.le_trans (Nat.le_of_eq hdata) (Nat.le_add_right 4 _)), hdata,
        Nat.add_sub_cancel_left]
    rw [if_pos hfits, hresize]
  · have hresize : BinaryBuffer.resize (4 + fromBigEndian data) ⟨data, 4, 0⟩ =
        .error BinaryBuffer.maximumBufferSizeExceeded := by
      rw [BinaryBuffer.resize, if_pos (by simp only [uint32Max, maxPayload] at *; omega)]
    rw [if_neg hfits, hresize]

/-- The callback of the length prefix makes room for the payload. -/
theorem State.callback_eq {p : List UInt8} (hp : p.length ≤ maxPayload) (s : State) :
    s.callback ⟨bigEndian 4 p.length, 0, 0⟩ = { s with chain := .payload (payloadBuffer p) } := by
  have hlength : fromBigEndian (bigEndian 4 p.length) = p.length :=
    fromBigEndian_bigEndian (by simp only [maxPayload] at hp; omega)
  rw [State.callback_four (length_bigEndian ..), hlength, if_pos hp]
  rfl

/-! ## What a handler touches -/

theorem State.handleRead_chain (s : State) (promise : ℕ) :
    (s.handleRead promise).chain = s.chain ∧
      (s.handleRead promise).connectionFailed = s.connectionFailed := by
  unfold State.handleRead
  split
  · exact ⟨rfl, rfl⟩
  · split
    · exact ⟨rfl, rfl⟩
    · split <;> exact ⟨rfl, rfl⟩

theorem State.postToInbox_chain (s : State) (buffer : BinaryBuffer) :
    (s.postToInbox buffer).chain = .length lengthBuffer ∧
      (s.postToInbox buffer).connectionFailed = s.connectionFailed := by
  unfold State.postToInbox
  split <;> exact ⟨rfl, rfl⟩

theorem State.fail_chain (s : State) (what : String) : (s.fail what).chain = .stopped := by
  unfold State.fail
  split <;> rfl

theorem State.callback_failed (s : State) (buffer : BinaryBuffer) :
    (s.callback buffer).connectionFailed = s.connectionFailed ∧
      (s.callback buffer).completed = s.completed := by
  unfold State.callback
  split
  · exact ⟨rfl, rfl⟩
  · split <;> exact ⟨rfl, rfl⟩

theorem State.subset_complete (s : State) (promise : ℕ) (result : Except IOException BinaryBuffer) :
    s.completed ⊆ (s.complete promise result).completed :=
  List.subset_append_left ..

theorem State.handleRead_posted (s : State) (promise : ℕ) :
    (s.handleRead promise).posted = s.posted ∧ (s.handleRead promise).calls = s.calls ∧
      s.completed ⊆ (s.handleRead promise).completed := by
  unfold State.handleRead
  split
  · exact ⟨rfl, rfl, s.subset_complete _ _⟩
  · split
    · exact ⟨rfl, rfl, s.subset_complete _ _⟩
    · split
      · exact ⟨rfl, rfl, s.subset_complete _ _⟩
      · exact ⟨rfl, rfl, List.Subset.refl _⟩

theorem State.postToInbox_completed (s : State) (buffer : BinaryBuffer) :
    s.completed ⊆ (s.postToInbox buffer).completed := by
  unfold State.postToInbox
  split
  · exact s.subset_complete _ _
  · exact List.Subset.refl _

/-- The error branch marks the connection as failed and fails the pending read. -/
theorem State.fail_failed (s : State) (what : String) :
    (s.fail what).connectionFailed = true ∧ s.completed ⊆ (s.fail what).completed ∧
      ∀ i ∈ s.pendingRead, (i, .error ⟨what⟩) ∈ (s.fail what).completed := by
  unfold State.fail
  split
  · rename_i promise hpending
    refine ⟨rfl, s.subset_complete _ _, fun i hi => ?_⟩
    obtain rfl : promise = i := by simpa [hpending] using hi
    simp [State.complete]
  · rename_i hpending
    exact ⟨rfl, List.Subset.refl _, fun i hi => by simp [hpending] at hi⟩

/-! ## What has been handed over -/

/-- What has become of the promises, in the order of completion. -/
abbrev Results := List (ℕ × Except IOException BinaryBuffer)

/-- The reads that succeeded, with their buffers. -/
def successes (results : Results) : List (ℕ × BinaryBuffer) :=
  results.filterMap fun c => c.2.toOption.map (c.1, ·)

@[simp] theorem successes_ok (results : Results) (i : ℕ) (b : BinaryBuffer) :
    successes (results ++ [(i, .ok b)]) = successes results ++ [(i, b)] := by
  simp [successes, Except.toOption]

@[simp] theorem successes_error (results : Results) (i : ℕ) (e : IOException) :
    successes (results ++ [(i, .error e)]) = successes results := by
  simp [successes, Except.toOption]

/-- The promises of `calls` reads, of which some have a result and the others wait. -/
structure Promises (calls : ℕ) (waiting : List ℕ) (results : Results) : Prop where
  /-- Each promise has a result or waits, once. -/
  once : (results.map Prod.fst ++ waiting).Perm (List.range calls)
  /-- The reads that succeeded and those that wait are in the order of their calls. -/
  ordered : ((successes results).map Prod.fst ++ waiting).Sublist (List.range calls)

namespace Promises

variable {calls : ℕ} {results : Results}

theorem call {waiting : List ℕ} (h : Promises calls waiting results) :
    Promises (calls + 1) (waiting ++ [calls]) results where
  once := by
    rw [List.range_succ, ← List.append_assoc]
    exact h.once.append_right [calls]
  ordered := by
    rw [List.range_succ, ← List.append_assoc]
    exact h.ordered.append_right [calls]

/-- The first of the waiting reads succeeds. -/
theorem succeed {i : ℕ} {waiting : List ℕ} (h : Promises calls (i :: waiting) results)
    (b : BinaryBuffer) : Promises calls waiting (results ++ [(i, .ok b)]) where
  once := by simpa using h.once
  ordered := by simpa using h.ordered

/-- Any of the waiting reads fails. -/
theorem fail {i : ℕ} {before after : List ℕ} (h : Promises calls (before ++ i :: after) results)
    (e : IOException) : Promises calls (before ++ after) (results ++ [(i, .error e)]) where
  once := by
    refine List.Perm.trans ?_ h.once
    simpa using List.perm_middle.symm.append_left (results.map Prod.fst)
  ordered := by
    refine List.Sublist.trans ?_ h.ordered
    simp

end Promises

namespace State

/-- The buffers of the frames received: those of successful reads, then those in the inbox. -/
def buffers (s : State) : List BinaryBuffer := (successes s.completed).map Prod.snd ++ s.inbox

/-- The payloads received. -/
def received (s : State) : List (List UInt8) := s.buffers.map unread

/-- The promises that are still to be completed, in the order of their calls. -/
def waiting (s : State) : List ℕ := s.pendingRead.toList ++ s.posted

end State

/-- The chain against the stream: `ps` are the payloads that were sent, of which the first `k` bytes
arrive, and `received` are those that have been handed over. -/
def Framed (ps : List (List UInt8)) (k : ℕ) (received : List (List UInt8)) (input : List UInt8) :
    Chain → Prop
  | .length b => b = lengthBuffer ∧ (wire received).length ≤ k ∧ ∃ rest, ps = received ++ rest ∧
      input = (wire rest).take (k - (wire received).length)
  | .payload b => (wire received).length + 4 ≤ k ∧ ∃ p rest, ps = received ++ p :: rest ∧
      b = payloadBuffer p ∧ input = (p ++ wire rest).take (k - (wire received).length - 4)
  | .stopped => received = complete ps k
  | .escaped _ => False

namespace Framed

variable {ps received : List (List UInt8)} {k : ℕ} {input : List UInt8}

/-- The bytes of a length prefix arrive. -/
theorem of_length {b : BinaryBuffer} (h : Framed ps k received input (.length b))
    (harrived : ¬input.length < b.size) :
    ∃ p ∈ ps, { b with bytes := input.take b.size } = (⟨bigEndian 4 p.length, 0, 0⟩ : BinaryBuffer) ∧
      Framed ps k received (input.drop b.size) (.payload (payloadBuffer p)) := by
  obtain ⟨rfl, hk, rest, hps, rfl⟩ := h
  cases rest with
  | nil => simp [lengthBuffer, BinaryBuffer.size] at harrived
  | cons p rest =>
    have hsize : lengthBuffer.size = 4 := rfl
    have h4 : 4 ≤ k - (wire received).length := by
      simp only [List.length_take, hsize] at harrived
      omega
    refine ⟨p, by simp [hps], ?_, ?_⟩
    · rw [hsize, List.take_take, Nat.min_eq_left h4, wire_cons, List.take_left' (length_bigEndian ..)]
      rfl
    · refine ⟨by omega, p, rest, hps, rfl, ?_⟩
      rw [hsize, List.drop_take, wire_cons, List.drop_left' (length_bigEndian ..)]

/-- The bytes of a payload arrive. -/
theorem of_payload {b : BinaryBuffer} (h : Framed ps k received input (.payload b))
    (harrived : ¬input.length < b.size - 4) :
    ∃ p, { b with bytes := b.bytes.take 4 ++ input.take (b.size - 4) } = frameBuffer p ∧
      Framed ps k (received ++ [p]) (input.drop (b.size - 4)) (.length lengthBuffer) := by
  obtain ⟨hk, p, rest, hps, rfl, rfl⟩ := h
  have hsize : (payloadBuffer p).size - 4 = p.length := by rw [size_payloadBuffer]; omega
  rw [hsize] at harrived ⊢
  have hlen : p.length ≤ k - (wire received).length - 4 := by
    simp only [List.length_take] at harrived
    omega
  have htake : (p ++ wire rest).take (k - (wire received).length - 4) =
      p ++ (wire rest).take (k - (wire received).length - 4 - p.length) := by
    rw [List.take_append, List.take_of_length_le hlen]
  refine ⟨p, ?_, rfl, ?_, rest, by simp [hps], ?_⟩
  · rw [htake, List.take_left' rfl]
    simp [payloadBuffer, frameBuffer, List.take_left' (length_bigEndian ..)]
  · simp only [wire_append, wire_cons, wire_nil, List.append_nil, List.length_append,
      length_bigEndian]
    omega
  · rw [htake, List.drop_left' rfl]
    congr 1
    simp only [wire_append, wire_cons, wire_nil, List.append_nil, List.length_append,
      length_bigEndian]
    omega

/-- The stream ends before the bytes that the chain waits for: what has been handed over is all
that arrived completely. -/
theorem of_error {chain : Chain} {n : ℕ} (h : Framed ps k received input chain)
    (hrequested : chain.requested = some n) (hshort : input.length < n) :
    Framed ps k received input .stopped := by
  cases chain with
  | length b =>
    obtain ⟨rfl, hk, rest, rfl, rfl⟩ := h
    obtain rfl : 4 = n := Option.some.inj hrequested
    have hrest : complete rest (k - (wire received).length) = [] := by
      cases rest with
      | nil => rfl
      | cons p rest =>
        refine complete_eq_nil rest ?_
        simp only [List.length_take, wire_cons, List.length_append, length_bigEndian] at hshort
        omega
    rw [Framed, complete_append rest hk, hrest, List.append_nil]
  | payload b =>
    obtain ⟨hk, p, rest, rfl, rfl, rfl⟩ := h
    obtain rfl : (payloadBuffer p).size - 4 = n := Option.some.inj hrequested
    have hrest : complete (p :: rest) (k - (wire received).length) = [] := by
      refine complete_eq_nil rest ?_
      rw [size_payloadBuffer] at hshort
      simp only [List.length_take, List.length_append] at hshort
      omega
    rw [Framed, complete_append _ (by omega), hrest, List.append_nil]
  | stopped => cases hrequested
  | escaped e => cases hrequested

/-- What has been handed over is a first part of the payloads that arrive completely. -/
theorem received_isPrefix {chain : Chain} (h : Framed ps k received input chain) :
    received <+: complete ps k := by
  cases chain with
  | length b =>
    obtain ⟨-, hk, rest, rfl, -⟩ := h
    rw [complete_append rest hk]
    exact List.prefix_append ..
  | payload b =>
    obtain ⟨hk, p, rest, rfl, -, -⟩ := h
    rw [complete_append _ (by omega)]
    exact List.prefix_append ..
  | stopped =>
    obtain rfl : received = complete ps k := h
    exact List.prefix_rfl
  | escaped e => exact h.elim

end Framed

/-! ## The invariant -/

/-- The invariant of the reading side. -/
structure Inv (ps : List (List UInt8)) (k : ℕ) (s : State) : Prop where
  framed : Framed ps k s.received s.input s.chain
  cursor : ∀ b ∈ s.buffers, b.readCursor = 4
  /-- A read waits only for an inbox that is empty and a chain that goes on. -/
  slot : s.pendingRead.isSome → s.inbox = [] ∧ s.connectionFailed = false
  failed : s.connectionFailed = true ↔ s.chain = .stopped
  promises : Promises s.calls s.waiting s.completed

theorem inv_start (ps : List (List UInt8)) (k : ℕ) : Inv ps k (start ((wire ps).take k)) where
  framed := ⟨rfl, Nat.zero_le k, ps, rfl, rfl⟩
  cursor := by simp [start, State.startAsyncReadChain_eq, State.buffers, successes]
  slot := by simp [start, State.startAsyncReadChain_eq]
  failed := by simp [start, State.startAsyncReadChain_eq]
  promises := ⟨List.Perm.refl _, List.Sublist.refl _⟩

namespace Inv

variable {ps : List (List UInt8)} {k : ℕ} {s : State}

/-- A step that neither reads from the stream nor touches the frames received. -/
theorem keep {t : State} (h : Inv ps k s) (hbuffers : t.buffers = s.buffers)
    (hinput : t.input = s.input) (hchain : t.chain = s.chain)
    (hfailed : t.connectionFailed = s.connectionFailed)
    (hslot : t.pendingRead.isSome → t.inbox = [] ∧ t.connectionFailed = false)
    (hpromises : Promises t.calls t.waiting t.completed) : Inv ps k t where
  framed := by
    rw [State.received, hbuffers, hinput, hchain]
    exact h.framed
  cursor := by
    rw [hbuffers]
    exact h.cursor
  slot := hslot
  failed := by
    rw [hfailed, hchain]
    exact h.failed
  promises := hpromises

/-- A call of `read()` posts its handler. -/
theorem read (h : Inv ps k s) :
    Inv ps k { s with posted := s.posted ++ [s.calls], calls := s.calls + 1 } :=
  h.keep rfl rfl rfl rfl h.slot (by simpa [State.waiting] using h.promises.call)

/-- The strand runs the handler of a read. -/
theorem handle (h : Inv ps k s) {i : ℕ} {posted : List ℕ} (hposted : s.posted = i :: posted) :
    Inv ps k ({ s with posted }.handleRead i) := by
  have hpromises := h.promises
  rw [State.waiting, hposted] at hpromises
  have hfails : ∀ e, Inv ps k ({ s with posted }.complete i (.error e)) := fun e =>
    h.keep (by simp [State.buffers, State.complete]) rfl rfl rfl h.slot (hpromises.fail e)
  unfold State.handleRead
  split
  · exact hfails _
  · rename_i hpending
    have hnone : s.pendingRead = none := by simpa using hpending
    rw [hnone] at hpromises
    split
    · rename_i b inbox hinbox
      have hinbox : s.inbox = b :: inbox := hinbox
      refine h.keep (by simp [State.buffers, State.complete, hinbox]) rfl rfl rfl
        (by simp [State.complete, hnone]) ?_
      have := hpromises.succeed b
      simpa [State.waiting, State.complete, hnone] using this
    · rename_i hinbox
      split
      · exact hfails _
      · rename_i hfailed
        exact h.keep rfl rfl rfl rfl (fun _ => ⟨hinbox, by simpa using hfailed⟩) hpromises

/-- The buffer of a frame is handed over. -/
theorem post (h : Inv ps k s) (hgoing : s.chain ≠ .stopped) {p input : List UInt8}
    (hnext : Framed ps k (s.received ++ [p]) input (.length lengthBuffer)) :
    Inv ps k ({ s with input }.postToInbox (frameBuffer p)) := by
  have hfailed : s.connectionFailed = false := by
    simpa using fun hf => hgoing (h.failed.1 hf)
  -- whoever gets the buffer, the frames received grow by it
  have hhand : ∀ {t : State}, t.buffers = s.buffers ++ [frameBuffer p] → t.input = input →
      t.chain = .length lengthBuffer → t.connectionFailed = s.connectionFailed →
      t.pendingRead = none → Promises t.calls t.waiting t.completed → Inv ps k t := by
    intro t hbuffers hinput hchain hf hpending hpromises
    exact
      { framed := by
          rw [State.received, hbuffers, hinput, hchain, List.map_append, List.map_singleton,
            unread_frameBuffer]
          exact hnext
        cursor := by
          intro b hb
          rw [hbuffers] at hb
          rcases List.mem_append.1 hb with hb | hb
          · exact h.cursor b hb
          · rw [List.mem_singleton.1 hb]
            rfl
        slot := by simp [hpending]
        failed := by simp [hf, hfailed, hchain]
        promises := hpromises }
  unfold State.postToInbox
  split
  · rename_i i hpending
    have hpending : s.pendingRead = some i := hpending
    have hinbox : s.inbox = [] := (h.slot (by simp [hpending])).1
    have hpromises := h.promises
    rw [State.waiting, hpending] at hpromises
    exact hhand (by simp [State.buffers, State.complete, State.startAsyncReadChain_eq, hinbox])
      rfl rfl rfl rfl (hpromises.succeed _)
  · rename_i hpending
    exact hhand (by simp [State.buffers, State.startAsyncReadChain_eq]) rfl rfl rfl hpending
      h.promises

/-- The outstanding `async_read` completes with its bytes. -/
theorem arrive {fails : Bool} {t : State} (hsize : ∀ p ∈ ps, p.length ≤ maxPayload) (h : Inv ps k s)
    (hstep : step fails s .arrive = some t) : Inv ps k t := by
  have hframed := h.framed
  cases hchain : s.chain with
  | length b =>
    simp only [step, hchain] at hstep
    split at hstep
    · cases hstep
    · rename_i harrived
      rw [hchain] at hframed
      obtain ⟨p, hp, hbuffer, hnext⟩ := hframed.of_length harrived
      obtain rfl := Option.some.inj hstep
      rw [hbuffer, State.callback_eq (hsize p hp)]
      exact
        { framed := hnext
          cursor := h.cursor
          slot := h.slot
          failed := by simpa [hchain] using h.failed
          promises := h.promises }
  | payload b =>
    simp only [step, hchain] at hstep
    split at hstep
    · cases hstep
    · rename_i harrived
      rw [hchain] at hframed
      obtain ⟨p, hbuffer, hnext⟩ := hframed.of_payload harrived
      obtain rfl := Option.some.inj hstep
      rw [hbuffer]
      exact h.post (hchain ▸ nofun) hnext
  | stopped => simp [step, hchain] at hstep
  | escaped e => simp [step, hchain] at hstep

/-- The outstanding `async_read` completes with an error. -/
theorem error {fails : Bool} {what : String} {t : State} (h : Inv ps k s)
    (hstep : step fails s (.error what) = some t) : Inv ps k t := by
  simp only [step] at hstep
  split at hstep
  · cases hstep
  · rename_i n hrequested
    split at hstep
    · rename_i hshort
      obtain rfl := Option.some.inj hstep
      have hstopped := h.framed.of_error hrequested hshort.2
      unfold State.fail
      split
      · rename_i i hpending
        have hpromises : Promises s.calls ([] ++ i :: s.posted) s.completed := by
          have hpromises := h.promises
          rwa [State.waiting, hpending] at hpromises
        exact
          { framed := by simpa [State.received, State.buffers, State.complete] using hstopped
            cursor := by simpa [State.buffers, State.complete] using h.cursor
            slot := by simp
            failed := by simp
            promises := hpromises.fail ⟨what⟩ }
      · rename_i hpending
        exact
          { framed := hstopped
            cursor := h.cursor
            slot := by simp [hpending]
            failed := by simp
            promises := h.promises }
    · cases hstep

end Inv

theorem inv_step {ps : List (List UInt8)} {k : ℕ} (hsize : ∀ p ∈ ps, p.length ≤ maxPayload)
    {fails : Bool} {s t : State} {a : Act} (h : Inv ps k s) (hstep : step fails s a = some t) :
    Inv ps k t := by
  cases a with
  | read =>
    obtain rfl := Option.some.inj hstep
    exact h.read
  | handle =>
    simp only [step] at hstep
    split at hstep
    · cases hstep
    · rename_i i posted hposted
      obtain rfl := Option.some.inj hstep
      exact h.handle hposted
  | arrive => exact h.arrive hsize hstep
  | error what => exact h.error hstep

theorem inv_run {ps : List (List UInt8)} {k : ℕ} (hsize : ∀ p ∈ ps, p.length ≤ maxPayload)
    {fails : Bool} {t : State} {as : List Act}
    (h : (machine ((wire ps).take k) fails).run (start ((wire ps).take k)) as = some t) :
    Inv ps k t :=
  Machine.run_keeps (P := Inv ps k) (fun hs hstep => inv_step hsize hs hstep) (inv_start ps k) h

/-! ## After the failure -/

/-- Only an error marks the connection as failed, it fails the read that waits, and no result is taken
back. -/
theorem step_failed {fails : Bool} {s t : State} {a : Act} (hstep : step fails s a = some t) :
    (t.connectionFailed = true ↔ s.connectionFailed = true ∨ ∃ what, a = .error what) ∧
      s.completed ⊆ t.completed ∧
      ∀ what, a = .error what → ∀ i ∈ s.pendingRead, (i, .error ⟨what⟩) ∈ t.completed := by
  cases a with
  | read =>
    obtain rfl := Option.some.inj hstep
    simp
  | handle =>
    simp only [step] at hstep
    split at hstep
    · cases hstep
    · rename_i i posted hposted
      obtain rfl := Option.some.inj hstep
      have hchain := State.handleRead_chain { s with posted } i
      have hposted := State.handleRead_posted { s with posted } i
      exact ⟨by simp [hchain.2], hposted.2.2, by simp⟩
  | arrive =>
    simp only [step] at hstep
    split at hstep
    · split at hstep
      · cases hstep
      · obtain rfl := Option.some.inj hstep
        simp [State.callback_failed]
    · rename_i b hchain
      split at hstep
      · cases hstep
      · obtain rfl := Option.some.inj hstep
        have hsubset := State.postToInbox_completed { s with input := s.input.drop (b.size - 4) }
          { b with bytes := b.bytes.take 4 ++ s.input.take (b.size - 4) }
        exact ⟨by simp [State.postToInbox_chain], hsubset, by simp⟩
    all_goals cases hstep
  | error what =>
    simp only [step] at hstep
    split at hstep
    · cases hstep
    · split at hstep
      · obtain rfl := Option.some.inj hstep
        obtain ⟨hfailed, hsubset, hpending⟩ := s.fail_failed what
        refine ⟨by simp [hfailed], hsubset, fun what' h => ?_⟩
        obtain rfl := Act.error.inj h
        exact hpending
      · cases hstep

/-- The connection has failed and nothing is left in the inbox. -/
structure Drained (s : State) : Prop where
  failed : s.connectionFailed = true
  stopped : s.chain = .stopped
  inbox : s.inbox = []
  pending : s.pendingRead = none

/-- From then on reads only fail. -/
theorem Drained.step {fails : Bool} {s t : State} {a : Act} (h : Drained s)
    (hstep : step fails s a = some t) :
    Drained t ∧ successes t.completed = successes s.completed := by
  obtain ⟨hfailed, hstopped, hinbox, hpending⟩ := h
  cases a with
  | read =>
    obtain rfl := Option.some.inj hstep
    exact ⟨⟨hfailed, hstopped, hinbox, hpending⟩, rfl⟩
  | handle =>
    simp only [Reader.step] at hstep
    split at hstep
    · cases hstep
    · rename_i i posted hposted
      obtain rfl := Option.some.inj hstep
      have hfails : { s with posted }.handleRead i = { s with posted }.complete i
          (.error ⟨"Connection failed unexpectedly"⟩) := by
        simp [State.handleRead, hfailed, hinbox, hpending]
      rw [hfails]
      exact ⟨⟨hfailed, hstopped, hinbox, hpending⟩, by simp [State.complete]⟩
  | arrive => simp [Reader.step, hstopped] at hstep
  | error what => simp [Reader.step, hstopped, Chain.requested] at hstep

theorem Drained.run {bytes : List UInt8} {fails : Bool} {s t : State} {as : List Act}
    (h : Drained s) (hrun : (machine bytes fails).run s as = some t) :
    Drained t ∧ successes t.completed = successes s.completed :=
  Machine.run_keeps (P := fun t => Drained t ∧ successes t.completed = successes s.completed)
    (fun hs hstep => ⟨(hs.1.step hstep).1, (hs.1.step hstep).2.trans hs.2⟩) ⟨h, rfl⟩ hrun

namespace Inv

variable {ps : List (List UInt8)} {k : ℕ} {s : State}

/-- Once the connection has failed, all that arrived completely has been handed over. -/
theorem received_eq (h : Inv ps k s) (hfailed : s.connectionFailed = true) :
    s.received = complete ps k := by
  have := h.framed
  rw [h.failed.1 hfailed] at this
  exact this

/-- No read waits on a connection that has failed. -/
theorem pendingRead_eq (h : Inv ps k s) (hfailed : s.connectionFailed = true) :
    s.pendingRead = none := by
  by_contra hne
  have := (h.slot (Option.isSome_iff_ne_none.2 hne)).2
  simp [hfailed] at this

theorem drained (h : Inv ps k s) (hfailed : s.connectionFailed = true) (hinbox : s.inbox = []) :
    Drained s :=
  ⟨hfailed, h.failed.1 hfailed, hinbox, h.pendingRead_eq hfailed⟩

end Inv

/-! ## The read chain -/

/-- What is known of the chain whatever the peer sends. -/
structure Waits (s : State) : Prop where
  length : ∀ b, s.chain = .length b → b = lengthBuffer
  failed : s.connectionFailed = true → s.chain = .stopped

theorem Waits.of_eq {s t : State} (h : Waits s) (hchain : t.chain = s.chain)
    (hfailed : t.connectionFailed = s.connectionFailed) : Waits t := by
  constructor
  · rw [hchain]
    exact h.length
  · rw [hchain, hfailed]
    exact h.failed

/-- The callback of the length prefix in a chain that waits for one. -/
theorem Waits.callback {s : State} (h : Waits s) {b : BinaryBuffer} (hchain : s.chain = .length b)
    {fails : Bool} {t : State} (hstep : step fails s .arrive = some t) :
    4 ≤ s.input.length ∧
      t = State.callback { s with input := s.input.drop 4 } ⟨s.input.take 4, 0, 0⟩ := by
  obtain rfl := h.length b hchain
  simp only [step, hchain] at hstep
  split at hstep
  · cases hstep
  · rename_i harrived
    exact ⟨Nat.not_lt.1 harrived, (Option.some.inj hstep).symm⟩

theorem waits_step {fails : Bool} {s t : State} {a : Act} (h : Waits s)
    (hstep : step fails s a = some t) : Waits t := by
  -- a chain that waits for bytes has not failed
  have hgoing {c : Chain} (hchain : s.chain = c) (hc : c ≠ .stopped) :
      s.connectionFailed ≠ true := fun hfailed => hc (hchain ▸ h.failed hfailed)
  cases a with
  | read =>
    obtain rfl := Option.some.inj hstep
    exact h.of_eq rfl rfl
  | handle =>
    simp only [step] at hstep
    split at hstep
    · cases hstep
    · obtain rfl := Option.some.inj hstep
      exact h.of_eq (State.handleRead_chain _ _).1 (State.handleRead_chain _ _).2
  | arrive =>
    cases hchain : s.chain with
    | length b =>
      obtain ⟨hfour, rfl⟩ := h.callback hchain hstep
      rw [State.callback_four (List.length_take_of_le hfour)]
      split
      · exact ⟨nofun, fun hfailed => absurd hfailed (hgoing hchain nofun)⟩
      · exact ⟨nofun, fun hfailed => absurd hfailed (hgoing hchain nofun)⟩
    | payload b =>
      simp only [step, hchain] at hstep
      split at hstep
      · cases hstep
      · obtain rfl := Option.some.inj hstep
        refine ⟨fun b' hb' => ?_, fun hf => ?_⟩
        · rw [(State.postToInbox_chain _ _).1] at hb'
          exact (Chain.length.inj hb').symm
        · rw [(State.postToInbox_chain _ _).2] at hf
          exact absurd hf (hgoing hchain nofun)
    | stopped => simp [step, hchain] at hstep
    | escaped e => simp [step, hchain] at hstep
  | error what =>
    simp only [step] at hstep
    split at hstep
    · cases hstep
    · split at hstep
      · obtain rfl := Option.some.inj hstep
        refine ⟨fun b hb => ?_, fun _ => State.fail_chain s what⟩
        rw [State.fail_chain] at hb
        cases hb
      · cases hstep

theorem waits_run {bytes : List UInt8} {fails : Bool} {s : State} {as : List Act}
    (h : (machine bytes fails).run (start bytes) as = some s) : Waits s := by
  refine Machine.run_keeps (P := Waits) (fun hs hstep => waits_step hs hstep) ?_ h
  exact ⟨fun b hb => (Chain.length.inj hb).symm, nofun⟩

/-- **A length prefix near `2 ^ 32` takes down the I/O thread.** Whatever the peer sends, when the
four bytes of a length prefix arrive, the callback reads as many payload bytes, or marks the
connection as failed and fails the pending read, if and only if the length is at most `2 ^ 32 - 5`.
On a longer one `resize` throws, and as nothing in the callback or in the thread of the `io_context`
catches `InvalidInputException`, it escapes; the connection is not marked as failed, and the pending
read goes on to wait. -/
theorem callback_escapes_iff (bytes : List UInt8) (fails : Bool) (as : List Act) (s t : State)
    (hrun : (machine bytes fails).run (start bytes) as = some s) (b : BinaryBuffer)
    (hchain : s.chain = .length b) (hstep : step fails s .arrive = some t) :
    ((t.chain.requested = some (fromBigEndian (s.input.take 4)) ∨
        t.connectionFailed = true ∧ t.pendingRead = none) ↔
      fromBigEndian (s.input.take 4) ≤ 2 ^ 32 - 5) ∧
    ((∃ text, t.chain = .escaped (.invalidInput text)) ↔
      2 ^ 32 - 5 < fromBigEndian (s.input.take 4)) ∧
    t.connectionFailed = false ∧ t.pendingRead = s.pendingRead ∧ t.completed = s.completed := by
  have hwaits := waits_run hrun
  have hgoing : s.connectionFailed = false := by
    have hne : s.connectionFailed ≠ true := fun hf => by simp [hwaits.failed hf] at hchain
    simpa using hne
  obtain ⟨hfour, rfl⟩ := hwaits.callback hchain hstep
  have hlen : (s.input.take 4).length = 4 := List.length_take_of_le hfour
  rw [State.callback_four hlen]
  obtain hlong | hfits := Nat.lt_or_ge maxPayload (fromBigEndian (s.input.take 4))
  · rw [if_neg (Nat.not_le.2 hlong)]
    refine ⟨⟨?_, fun h => absurd hlong (Nat.not_lt.2 h)⟩, ⟨fun _ => hlong, fun _ => ⟨_, rfl⟩⟩, hgoing,
      rfl, rfl⟩
    rintro (h | ⟨hfailed, -⟩)
    · cases h
    · exact absurd (hgoing.symm.trans hfailed) (by decide)
  · rw [if_pos hfits]
    have hrequested : Chain.requested (.payload ⟨s.input.take 4 ++
        List.replicate (fromBigEndian (s.input.take 4)) 0, 4, 0⟩) =
          some (fromBigEndian (s.input.take 4)) := by
      simp only [Chain.requested, BinaryBuffer.size, List.length_append, hlen, List.length_replicate]
      rw [Nat.add_sub_cancel_left]
    refine ⟨⟨fun _ => hfits, fun _ => .inl hrequested⟩, ⟨?_, fun h => ?_⟩, hgoing, rfl, rfl⟩
    · exact fun ⟨_, h⟩ => nomatch h
    · exact absurd hfits (Nat.not_le.2 h)

/-- A length prefix of `2 ^ 32 - 5` is the longest that is read. -/
theorem callback_escapes_iff_longest :
    ∃ t, step false (start [0xff, 0xff, 0xff, 0xfb]) .arrive = some t ∧
      ¬∃ text, t.chain = .escaped (.invalidInput text) :=
  ⟨_, rfl, mt (callback_escapes_iff [0xff, 0xff, 0xff, 0xfb] false [] _ _ rfl lengthBuffer rfl
    rfl).2.1.1 (by decide)⟩

/-- The peer sends a length prefix of `2 ^ 32 - 4` to a connection with a pending read: the exception
escapes, the read goes on to wait and the connection does not count as failed. -/
theorem callback_escapes :
    ∃ t, (machine [0xff, 0xff, 0xff, 0xfc] false).run (start [0xff, 0xff, 0xff, 0xfc])
        [.read, .handle, .arrive] = some t ∧
      t.chain = .escaped BinaryBuffer.maximumBufferSizeExceeded ∧ t.connectionFailed = false ∧
      t.pendingRead = some 0 ∧ t.completed = [] :=
  ⟨_, rfl, rfl, rfl, rfl, rfl⟩

end Reader

end Hareflow.Connection
