import Hareflow.Connection.Reader

/-!
# The outbox of a connection

`write()` posts a handler that appends the buffer to the outbox and starts an `async_write` when the
outbox was empty. An `async_write` is given the buffers of all entries; its callback remembers how
many they were, pops that many entries, completes their promises, releases their buffers, and starts
the next one when entries have come in meanwhile. Nothing else looks at the outbox.

The model keeps a record of what was written, of what each `async_write` was given, and of what its
callback popped. `Inv` says that what was popped, what is in the outbox and what is still posted are
what was written, in this order, and that the one operation in flight covers a first part of the
outbox.
-/

namespace Hareflow.Connection.Outbox

open Foundations Wire

/-- `OutboxEntry`: a buffer and its promise, the number of its call of `write()`. -/
structure Entry where
  promise : ℕ
  buffer : BinaryBuffer
  deriving DecidableEq, Repr

/-- An `async_write`: the entries whose buffers it was given, and the number of them that its
callback has captured. -/
structure Operation where
  nbBuffers : ℕ
  entries : List Entry
  deriving DecidableEq, Repr

/-- The bytes that an `async_write` writes. -/
def Operation.bytes (op : Operation) : List UInt8 := op.entries.flatMap fun e => e.buffer.bytes

/-- `MAX_POOL_SIZE`. -/
def maxPoolSize : ℕ := 32

/-- `release_buffer`: clear the buffer and keep it, unless the pool is full. -/
def release (pool : List BinaryBuffer) (buffer : BinaryBuffer) : List BinaryBuffer :=
  if pool.length < maxPoolSize then pool ++ [buffer.clear] else pool

/-- The writing side of a connection and its pool of buffers. -/
structure State where
  /-- The handlers that `write()` posted and that the strand has not run. -/
  posted : List Entry := []
  /-- `m_outbox`. -/
  outbox : List Entry := []
  /-- The `async_write` operations that have been started and have not completed. -/
  inFlight : List Operation := []
  /-- `m_buffer_pool`. -/
  bufferPool : List BinaryBuffer := []
  /-- The promises that have been completed, in this order. -/
  completed : List (ℕ × Except IOException Unit) := []
  /-- The record of the calls of `write()`. -/
  written : List Entry := []
  /-- The record of the `async_write` operations. -/
  started : List Operation := []
  /-- The record of the callbacks: the operation, and the entries that were popped. -/
  finished : List (Operation × List Entry) := []
  /-- The record of the buffers that `allocate_buffer` took from the pool and returned. -/
  allocated : List BinaryBuffer := []
  deriving DecidableEq, Repr

namespace State

def sendOutbox (s : State) : State :=
  let op : Operation := ⟨s.outbox.length, s.outbox⟩
  { s with inFlight := s.inFlight ++ [op], started := s.started ++ [op] }

def releaseBuffer (s : State) (buffer : BinaryBuffer) : State :=
  { s with bufferPool := release s.bufferPool buffer }

def allocateBuffer (s : State) (size : ℕ) : State :=
  match s.bufferPool with
  | [] => s
  | buffer :: bufferPool =>
    match buffer.reserve size with
    | .error _ => { s with bufferPool }
    | .ok buffer => { s with bufferPool, allocated := s.allocated ++ [buffer] }

/-- `write()`: make the entry and post its handler. -/
def write (s : State) (buffer : BinaryBuffer) : State :=
  let entry : Entry := ⟨s.written.length, buffer⟩
  { s with posted := s.posted ++ [entry], written := s.written ++ [entry] }

/-- The handler that `write()` posts. -/
def handleWrite (s : State) (entry : Entry) : State :=
  let s := { s with outbox := s.outbox ++ [entry] }
  if s.outbox.length = 1 then s.sendOutbox else s

/-- The loop of the callback. The front of an empty outbox is not defined; the invariant shows that
the loop never gets there. -/
def popEntries (result : Except IOException Unit) : ℕ → State → State
  | 0, s => s
  | nbBuffers + 1, s =>
    match s.outbox with
    | [] => s
    | entry :: outbox =>
      popEntries result nbBuffers ({ s with
        outbox, completed := s.completed ++ [(entry.promise, result)] }.releaseBuffer entry.buffer)

/-- The callback of an `async_write`. -/
def callback (s : State) (op : Operation) (result : Except IOException Unit) : State :=
  let s := { s with finished := s.finished ++ [(op, s.outbox.take op.nbBuffers)] }
  let s := s.popEntries result op.nbBuffers
  if s.outbox.isEmpty then s else s.sendOutbox

end State

inductive Act
  /-- A call of `write()`. -/
  | write (buffer : BinaryBuffer)
  /-- The strand runs the next handler of a `write()`. -/
  | handle
  /-- An `async_write` in flight completes, with an error or not. -/
  | complete (i : ℕ) (result : Except IOException Unit)
  /-- A call of `allocate_buffer`, by any thread. -/
  | allocate (size : ℕ)
  /-- A call of `release_buffer`, by any thread and with any buffer. -/
  | release (buffer : BinaryBuffer)
  deriving DecidableEq, Repr

def step (s : State) : Act → Option State
  | .write buffer => some (s.write buffer)
  | .handle =>
    match s.posted with
    | [] => none
    | entry :: posted => some ({ s with posted }.handleWrite entry)
  | .complete i result =>
    match s.inFlight[i]? with
    | none => none
    | some op => some ({ s with inFlight := s.inFlight.eraseIdx i }.callback op result)
  | .allocate size => some (s.allocateBuffer size)
  | .release buffer => some (s.releaseBuffer buffer)

def machine : Machine State Act where
  Init s := s = {}
  step := step

/-! ## The pool -/

/-- The buffers are empty, with both cursors at zero. -/
def Clean (buffers : List BinaryBuffer) : Prop := ∀ b ∈ buffers, b = ⟨[], 0, 0⟩

theorem Clean.release {pool : List BinaryBuffer} (h : Clean pool) (buffer : BinaryBuffer) :
    Clean (release pool buffer) := by
  unfold Outbox.release
  split
  · intro b hb
    rcases List.mem_append.1 hb with hb | hb
    · exact h b hb
    · exact List.mem_singleton.1 hb
  · exact h

theorem Clean.foldl_release {pool : List BinaryBuffer} (h : Clean pool) (entries : List Entry) :
    Clean (entries.foldl (fun pool e => Outbox.release pool e.buffer) pool) := by
  induction entries generalizing pool with
  | nil => exact h
  | cons e entries ih => exact ih (h.release e.buffer)

theorem reserve_eq_ok {b b' : BinaryBuffer} {size : ℕ} (h : b.reserve size = .ok b') : b' = b := by
  rw [BinaryBuffer.reserve] at h
  split at h
  · cases h
  · exact (Except.ok.inj h).symm

/-! ## The invariant -/

/-- The loop of the callback pops entries from the front of the outbox. -/
theorem popEntries_eq (result : Except IOException Unit) {entries later : List Entry} {s : State}
    (h : s.outbox = entries ++ later) :
    s.popEntries result entries.length = { s with
      outbox := later
      completed := s.completed ++ entries.map fun e => (e.promise, result)
      bufferPool := entries.foldl (fun pool e => release pool e.buffer) s.bufferPool } := by
  induction entries generalizing s with
  | nil =>
    obtain rfl : s.outbox = later := h
    simp [State.popEntries]
  | cons e entries ih =>
    have hcons : s.outbox = e :: (entries ++ later) := h
    rw [List.length_cons, State.popEntries, hcons]
    refine (ih rfl).trans ?_
    simp [State.releaseBuffer]

/-- The records of a writing side agree with each other. -/
structure Recorded (s : State) : Prop where
  /-- What was popped, what is in the outbox and what is posted are what was written. -/
  flow : s.finished.flatMap Prod.snd ++ (s.outbox ++ s.posted) = s.written
  /-- Each callback popped what its operation covered. -/
  popped : ∀ p ∈ s.finished, p.2 = p.1.entries
  started : s.started = s.finished.map Prod.fst ++ s.inFlight
  /-- The promises of what was popped have been completed, in this order. -/
  completed : s.completed.map Prod.fst = (s.finished.flatMap Prod.snd).map Entry.promise
  numbered : s.written.map Entry.promise = List.range s.written.length
  pool : Clean s.bufferPool
  allocated : Clean s.allocated

/-- An operation covers a first part of the outbox, which it has counted. -/
structure Operation.Covers (op : Operation) (outbox : List Entry) : Prop where
  counted : op.nbBuffers = op.entries.length
  nonempty : op.entries ≠ []
  isPrefix : op.entries <+: outbox

/-- One operation is in flight, unless the outbox is empty. -/
def Busy (s : State) : Prop :=
  s.outbox = [] ∧ s.inFlight = [] ∨ ∃ op, s.inFlight = [op] ∧ op.Covers s.outbox

theorem Recorded.sendOutbox {s : State} (h : Recorded s) : Recorded s.sendOutbox :=
  { h with started := by simp [State.sendOutbox, h.started] }

theorem busy_sendOutbox {s : State} (hnone : s.inFlight = []) (hne : s.outbox ≠ []) :
    Busy s.sendOutbox :=
  .inr ⟨⟨s.outbox.length, s.outbox⟩, by simp [State.sendOutbox, hnone], rfl, hne, List.prefix_rfl⟩

/-- The invariant of the writing side. -/
structure Inv (s : State) : Prop where
  recorded : Recorded s
  busy : Busy s

theorem inv_init : Inv {} where
  recorded :=
    { flow := rfl
      popped := by simp
      started := rfl
      completed := rfl
      numbered := rfl
      pool := by simp [Clean]
      allocated := by simp [Clean] }
  busy := .inl ⟨rfl, rfl⟩

namespace Inv

variable {s : State}

theorem write (h : Inv s) (buffer : BinaryBuffer) : Inv (s.write buffer) where
  recorded :=
    { h.recorded with
      flow := by simp [State.write, ← h.recorded.flow]
      numbered := by simp [State.write, h.recorded.numbered, List.range_succ] }
  busy := h.busy

/-- The handler of a write appends its entry, and starts an operation if the outbox was empty. -/
theorem handle (h : Inv s) {e : Entry} {posted : List Entry} (hposted : s.posted = e :: posted) :
    Inv ({ s with posted }.handleWrite e) := by
  have hrecorded : Recorded { s with posted, outbox := s.outbox ++ [e] } :=
    { h.recorded with flow := by simp [← h.recorded.flow, hposted] }
  rw [State.handleWrite]
  split
  · rename_i hone
    have hempty : s.outbox = [] := by simpa using hone
    refine ⟨hrecorded.sendOutbox, busy_sendOutbox ?_ (by simp)⟩
    rcases h.busy with ⟨-, hnone⟩ | ⟨op, -, hop⟩
    · exact hnone
    · rw [hempty] at hop
      exact absurd (List.prefix_nil.1 hop.isPrefix) hop.nonempty
  · rename_i hmore
    refine ⟨hrecorded, ?_⟩
    rcases h.busy with ⟨hempty, -⟩ | ⟨op, hone, hop⟩
    · simp [hempty] at hmore
    · exact .inr ⟨op, hone, hop.counted, hop.nonempty, hop.isPrefix.trans (List.prefix_append ..)⟩

/-- The callback of an operation pops what it covers, and starts the next one if entries have come
in meanwhile. -/
theorem complete (h : Inv s) {i : ℕ} {op : Operation} (hop : s.inFlight[i]? = some op)
    (result : Except IOException Unit) :
    Inv ({ s with inFlight := s.inFlight.eraseIdx i }.callback op result) := by
  obtain ⟨op', hone, hcovers⟩ : ∃ op, s.inFlight = [op] ∧ op.Covers s.outbox := by
    rcases h.busy with ⟨-, hnone⟩ | hbusy
    · simp [hnone] at hop
    · exact hbusy
  obtain ⟨rfl, rfl⟩ : i = 0 ∧ op' = op := by
    rw [hone] at hop
    simpa [List.getElem?_singleton] using hop
  obtain ⟨hcounted, hne, later, hlater⟩ := hcovers
  have hidle : s.inFlight.eraseIdx 0 = [] := by simp [hone]
  have htaken : s.outbox.take op'.entries.length = op'.entries := by
    rw [← hlater, List.take_left' rfl]
  have hpop := popEntries_eq result
    (s := { s with inFlight := [], finished := s.finished ++ [(op', op'.entries)] }) hlater.symm
  have hrecorded : Recorded { s with
      outbox := later
      inFlight := []
      bufferPool := op'.entries.foldl (fun pool e => Outbox.release pool e.buffer) s.bufferPool
      completed := s.completed ++ op'.entries.map fun e => (e.promise, result)
      finished := s.finished ++ [(op', op'.entries)] } :=
    { flow := by simp [← h.recorded.flow, ← hlater]
      popped := by
        intro p hp
        rcases List.mem_append.1 hp with hp | hp
        · exact h.recorded.popped p hp
        · rw [List.mem_singleton.1 hp]
      started := by simp [h.recorded.started, hone]
      completed := by simp [h.recorded.completed, Function.comp_def]
      numbered := h.recorded.numbered
      pool := h.recorded.pool.foldl_release op'.entries
      allocated := h.recorded.allocated }
  simp only [State.callback, hidle, hcounted, htaken, hpop]
  split
  · rename_i hempty
    exact ⟨hrecorded, .inl ⟨List.isEmpty_iff.1 hempty, rfl⟩⟩
  · rename_i hmore
    exact ⟨hrecorded.sendOutbox, busy_sendOutbox rfl fun hnil => hmore (List.isEmpty_iff.2 hnil)⟩

theorem allocate (h : Inv s) (size : ℕ) : Inv (s.allocateBuffer size) := by
  unfold State.allocateBuffer
  split
  · exact h
  · rename_i buffer bufferPool hpool
    have hclean := h.recorded.pool
    rw [hpool] at hclean
    have hrest : Clean bufferPool := fun b hb => hclean b (List.mem_cons_of_mem buffer hb)
    split
    · exact ⟨{ h.recorded with pool := hrest }, h.busy⟩
    · rename_i buffer' hreserve
      obtain rfl := reserve_eq_ok hreserve
      refine ⟨{ h.recorded with pool := hrest, allocated := ?_ }, h.busy⟩
      intro b hb
      rcases List.mem_append.1 hb with hb | hb
      · exact h.recorded.allocated b hb
      · rw [List.mem_singleton.1 hb]
        exact hclean _ (by simp)

theorem release (h : Inv s) (buffer : BinaryBuffer) : Inv (s.releaseBuffer buffer) where
  recorded := { h.recorded with pool := h.recorded.pool.release buffer }
  busy := h.busy

end Inv

theorem inv_step {s t : State} {a : Act} (h : Inv s) (hstep : step s a = some t) : Inv t := by
  cases a with
  | write buffer =>
    obtain rfl := Option.some.inj hstep
    exact h.write buffer
  | handle =>
    simp only [step] at hstep
    split at hstep
    · cases hstep
    · rename_i e posted hposted
      obtain rfl := Option.some.inj hstep
      exact h.handle hposted
  | complete i result =>
    simp only [step] at hstep
    split at hstep
    · cases hstep
    · rename_i op hop
      obtain rfl := Option.some.inj hstep
      exact h.complete hop result
  | allocate size =>
    obtain rfl := Option.some.inj hstep
    exact h.allocate size
  | release buffer =>
    obtain rfl := Option.some.inj hstep
    exact h.release buffer

theorem inv_run {t : State} {as : List Act} (h : machine.run {} as = some t) : Inv t :=
  Machine.run_keeps (P := Inv) inv_step inv_init h

/-- **The outbox writes every buffer once, in order.** In every state between two handlers
* an operation is in flight when the outbox is not empty, and never more than one; it covers the
  first entries of the outbox, as many as its callback will pop;
* the operations were given the entries that were written, in this order, none twice and none left
  out, up to those that are in the outbox behind the operation in flight or still posted;
* each callback popped what its operation covered;
* the promises that have been completed, those of the outbox and those still posted are those of all
  calls of `write()`, once each and in this order;
* a buffer that `allocate_buffer` took from the pool is empty, with both cursors at zero. -/
theorem outbox_writesOnce (as : List Act) (t : State) (h : machine.run {} as = some t) :
    (t.inFlight.length ≤ 1 ∧ (t.outbox ≠ [] ↔ t.inFlight ≠ []) ∧
      ∀ op ∈ t.inFlight, op.nbBuffers ≤ t.outbox.length ∧
        t.outbox.take op.nbBuffers = op.entries) ∧
    (∃ later, t.outbox = t.inFlight.flatMap Operation.entries ++ later ∧
      t.started.flatMap Operation.entries ++ (later ++ t.posted) = t.written ∧
      t.started.flatMap Operation.bytes ++ (later ++ t.posted).flatMap (fun e => e.buffer.bytes) =
        t.written.flatMap fun e => e.buffer.bytes) ∧
    (∀ p ∈ t.finished, p.2 = p.1.entries) ∧
    t.completed.map Prod.fst ++ (t.outbox ++ t.posted).map Entry.promise =
      List.range t.written.length ∧
    ∀ b ∈ t.allocated, b.bytes = [] ∧ b.readCursor = 0 ∧ b.writeCursor = 0 := by
  obtain ⟨hrecorded, hbusy⟩ := inv_run h
  have hfinished : t.finished.flatMap Prod.snd = (t.finished.map Prod.fst).flatMap
      Operation.entries := by
    rw [List.flatMap_map, List.flatMap_def, List.flatMap_def, List.map_congr_left hrecorded.popped]
  have hbytes : ∀ ops : List Operation, ops.flatMap Operation.bytes =
      (ops.flatMap Operation.entries).flatMap fun e => e.buffer.bytes := fun ops =>
    List.flatMap_assoc.symm
  obtain ⟨later, hlater⟩ : ∃ later, t.outbox = t.inFlight.flatMap Operation.entries ++ later := by
    rcases hbusy with ⟨hempty, hnone⟩ | ⟨op, hone, hop⟩
    · exact ⟨[], by simp [hempty, hnone]⟩
    · obtain ⟨later, hlater⟩ := hop.isPrefix
      exact ⟨later, by simp [hone, hlater]⟩
  have hflow : t.started.flatMap Operation.entries ++ (later ++ t.posted) = t.written := by
    rw [← hrecorded.flow, hrecorded.started, hlater, hfinished]
    simp
  refine ⟨?_, ⟨later, hlater, hflow, ?_⟩, hrecorded.popped, ?_, ?_⟩
  · rcases hbusy with ⟨hempty, hnone⟩ | ⟨op, hone, hop⟩
    · simp [hempty, hnone]
    · have hlen := hop.isPrefix.length_le
      have hne : t.outbox ≠ [] := by
        intro hempty
        rw [hempty] at hop
        exact hop.nonempty (List.prefix_nil.1 hop.isPrefix)
      rw [hone]
      refine ⟨Nat.le_refl 1, by simp [hne], ?_⟩
      intro op' hop'
      obtain rfl := List.mem_singleton.1 hop'
      rw [hop.counted]
      exact ⟨hlen, (List.prefix_iff_eq_take.1 hop.isPrefix).symm⟩
  · rw [hbytes, ← List.flatMap_append, hflow]
  · rw [hrecorded.completed, ← List.map_append, hrecorded.flow, hrecorded.numbered]
  · intro b hb
    rw [hrecorded.allocated b hb]
    exact ⟨rfl, rfl, rfl⟩

/-- Two writes, of which the second comes in while the first is in flight and then fails; its buffer
goes back to the pool and out again. -/
def secondFails : List Act :=
  [.write ⟨[1], 0, 1⟩, .write ⟨[2], 0, 1⟩, .handle, .handle, .complete 0 (.ok ()),
    .complete 0 (.error ⟨"Broken pipe"⟩), .allocate 16]

theorem outbox_writesOnce_secondFails :
    ∃ t, machine.run {} secondFails = some t ∧
      t.completed = [(0, .ok ()), (1, .error ⟨"Broken pipe"⟩)] ∧
      ∀ b ∈ t.allocated, b.bytes = [] ∧ b.readCursor = 0 ∧ b.writeCursor = 0 := by
  obtain ⟨t, ht, hcompleted⟩ : ∃ t, machine.run {} secondFails = some t ∧
      t.completed = [(0, .ok ()), (1, .error ⟨"Broken pipe"⟩)] := ⟨_, rfl, rfl⟩
  exact ⟨t, ht, hcompleted, (outbox_writesOnce secondFails t ht).2.2.2.2⟩

end Hareflow.Connection.Outbox
