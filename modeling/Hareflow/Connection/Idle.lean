import Hareflow.Connection.Outbox
import Hareflow.Foundations.Watchdog

/-!
# The idle timers of a connection

A connection has two idle timers. Each completion of an `async_write` starts the writer's over, each
completion of an `async_read` the reader's, and when one expires its handler is called on the strand.
The handler of the writer sends a heartbeat, the handler of the reader closes the connection.

This is the whole connection: the outbox, the read chain, the two timers and a clock. An expiry is
queued on the strand like any other handler, so a completion may run between the two; `Watchdog` is
how such a timer behaves.

* The writer's timer is kept up by what it does: its handler writes a heartbeat, whose completion
  starts it over. `Kept` says that this never comes to an end, whatever else is written.
* If the strand is prompt and a write takes at most `latency`, then at any time the last write is at
  most the timeout and the latency ago.
* The reader's timer is not kept up. It answers each silence of the peer once.
-/

namespace Hareflow.Connection.Idle

open Foundations Wire

structure State where
  clock : ℕ := 0
  outbox : Outbox.State := {}
  reader : Reader.State
  /-- `m_writer_idle_timer` with its handler and timeout. -/
  writerIdle : Watchdog := {}
  /-- `m_reader_idle_timer` with its handler and timeout. -/
  readerIdle : Watchdog := {}
  /-- Since when there is a write to complete: the record of the call of `write()` that found none, or
  of the completion of the last one. -/
  busySince : ℕ := 0

namespace State

/-- There is a write that has not completed. -/
def busy (s : State) : Bool := !s.outbox.posted.isEmpty || !s.outbox.outbox.isEmpty

/-- A step of the outbox other than a completion. -/
def setOutbox (s : State) (outbox : Outbox.State) : State :=
  { s with outbox := outbox, busySince := if s.busy then s.busySince else s.clock }

end State

inductive Act
  /-- Time passes. -/
  | tick (d : ℕ)
  | outbox (a : Outbox.Act)
  | reader (a : Reader.Act)
  /-- The handler that `set_writer_idle_handler` posts. -/
  | setWriterIdleHandler (timeout : ℕ)
  /-- The handler that `set_reader_idle_handler` posts. -/
  | setReaderIdleHandler (timeout : ℕ)
  | writerExpires
  | readerExpires
  /-- The strand calls what `start_writer_idle_monitoring` passed to the timer. -/
  | writerIdle
  /-- The same for `start_reader_idle_monitoring`. -/
  | readerIdle
  /-- The handler that `shutdown()` dispatches. -/
  | shutdown
  deriving DecidableEq, Repr

/-- One step; the handler of the writer writes `heartbeat`, and `fails` is as for the read chain. -/
def step (heartbeat : BinaryBuffer) (fails : Bool) (s : State) : Act → Option State
  | .tick d => some { s with clock := s.clock + d }
  | .outbox a =>
    (Outbox.step s.outbox a).map fun outbox =>
      match a with
      | .complete _ _ =>
        { s with outbox := outbox, writerIdle := s.writerIdle.start s.clock, busySince := s.clock }
      | _ => s.setOutbox outbox
  | .reader a =>
    (Reader.step fails s.reader a).map fun reader =>
      match a with
      | .arrive => { s with reader := reader, readerIdle := s.readerIdle.start s.clock }
      | _ => { s with reader := reader }
  | .setWriterIdleHandler timeout =>
    some { s with writerIdle := s.writerIdle.arm s.clock timeout }
  | .setReaderIdleHandler timeout =>
    some { s with readerIdle := s.readerIdle.arm s.clock timeout }
  | .writerExpires => (s.writerIdle.expire s.clock).map fun w => { s with writerIdle := w }
  | .readerExpires => (s.readerIdle.expire s.clock).map fun w => { s with readerIdle := w }
  | .writerIdle =>
    (s.writerIdle.run s.clock).map fun w =>
      if w.armed then { s with writerIdle := w }.setOutbox (s.outbox.write heartbeat)
      else { s with writerIdle := w }
  | .readerIdle => (s.readerIdle.run s.clock).map fun w => { s with readerIdle := w }
  | .shutdown =>
    some { s with writerIdle := s.writerIdle.disarm, readerIdle := s.readerIdle.disarm }

/-- A connection after `connect()`, with the bytes that will arrive. -/
def start (bytes : List UInt8) : State := { reader := Reader.start bytes }

def machine (heartbeat : BinaryBuffer) (bytes : List UInt8) (fails : Bool) : Machine State Act where
  Init s := s = start bytes
  step := step heartbeat fails

variable {heartbeat : BinaryBuffer} {bytes : List UInt8} {fails : Bool} {s t : State}

/-! ## What the steps do -/

/-- What a step does to the clock, to the outbox and to the timer of the writer. -/
inductive WriterMove (heartbeat : BinaryBuffer) (s : State) : Act → State → Prop
  | tick (d : ℕ) : WriterMove heartbeat s (.tick d) { s with clock := s.clock + d }
  /-- The outbox goes on, and has a write to complete if it had one before. -/
  | outbox {a : Outbox.Act} {outbox : Outbox.State} (hstep : Outbox.step s.outbox a = some outbox)
      (hbusy : s.busy = true → (s.setOutbox outbox).busy = true) :
      WriterMove heartbeat s (.outbox a) (s.setOutbox outbox)
  | complete {i : ℕ} {result : Except IOException Unit} {outbox : Outbox.State}
      (hstep : Outbox.step s.outbox (.complete i result) = some outbox) :
      WriterMove heartbeat s (.outbox (.complete i result))
        { s with outbox := outbox, writerIdle := s.writerIdle.start s.clock, busySince := s.clock }
  | arm (timeout : ℕ) :
      WriterMove heartbeat s (.setWriterIdleHandler timeout)
        { s with writerIdle := s.writerIdle.arm s.clock timeout }
  | expire {w : Watchdog} (hexpire : s.writerIdle.expire s.clock = some w) :
      WriterMove heartbeat s .writerExpires { s with writerIdle := w }
  | idle {w : Watchdog} (hrun : s.writerIdle.run s.clock = some w) (harmed : w.armed = true) :
      WriterMove heartbeat s .writerIdle
        ({ s with writerIdle := w }.setOutbox (s.outbox.write heartbeat))
  /-- The handler has been taken away before its call. -/
  | stale {w : Watchdog} (hrun : s.writerIdle.run s.clock = some w) (harmed : w.armed = false) :
      WriterMove heartbeat s .writerIdle { s with writerIdle := w }
  | shutdown :
      WriterMove heartbeat s .shutdown
        { s with writerIdle := s.writerIdle.disarm, readerIdle := s.readerIdle.disarm }
  /-- The reading side. -/
  | other {a : Act} (reader : Reader.State) (w : Watchdog) :
      WriterMove heartbeat s a { s with reader := reader, readerIdle := w }

theorem busy_eq_true : s.busy = true ↔ s.outbox.posted ≠ [] ∨ s.outbox.outbox ≠ [] := by
  simp [State.busy]

/-- Only a completion takes a write out of the outbox. -/
theorem busy_of_step {o o' : Outbox.State} {a : Outbox.Act} (h : Outbox.step o a = some o')
    (ha : ∀ i result, a ≠ .complete i result) (hbusy : o.posted ≠ [] ∨ o.outbox ≠ []) :
    o'.posted ≠ [] ∨ o'.outbox ≠ [] := by
  cases a with
  | write buffer =>
    obtain rfl := Option.some.inj h
    exact .inl (by simp [Outbox.State.write])
  | handle =>
    simp only [Outbox.step] at h
    split at h
    · cases h
    · obtain rfl := Option.some.inj h
      refine .inr ?_
      rw [Outbox.State.handleWrite]
      split <;> simp [Outbox.State.sendOutbox]
  | complete i result => exact absurd rfl (ha i result)
  | allocate size =>
    obtain rfl := Option.some.inj h
    unfold Outbox.State.allocateBuffer
    split
    · exact hbusy
    · split <;> exact hbusy
  | release buffer =>
    obtain rfl := Option.some.inj h
    exact hbusy

theorem writerMove_of_step {a : Act} (h : step heartbeat fails s a = some t) :
    WriterMove heartbeat s a t := by
  cases a with
  | tick d =>
    obtain rfl := Option.some.inj h
    exact .tick d
  | outbox a =>
    obtain ⟨outbox, houtbox, rfl⟩ := Option.map_eq_some_iff.1 h
    by_cases ha : ∃ i result, a = .complete i result
    · obtain ⟨i, result, rfl⟩ := ha
      exact .complete houtbox
    · have ha' : ∀ i result, a ≠ .complete i result := fun i result h => ha ⟨i, result, h⟩
      have hmove : WriterMove heartbeat s (.outbox a) (s.setOutbox outbox) :=
        .outbox houtbox fun hbusy => busy_eq_true.2 (busy_of_step houtbox ha' (busy_eq_true.1 hbusy))
      cases a with
      | complete i result => exact absurd rfl (ha' i result)
      | _ => exact hmove
  | reader a =>
    obtain ⟨reader, -, rfl⟩ := Option.map_eq_some_iff.1 h
    cases a <;> exact .other _ _
  | setWriterIdleHandler timeout =>
    obtain rfl := Option.some.inj h
    exact .arm timeout
  | setReaderIdleHandler timeout =>
    obtain rfl := Option.some.inj h
    exact .other _ _
  | writerExpires =>
    obtain ⟨w, hw, rfl⟩ := Option.map_eq_some_iff.1 h
    exact .expire hw
  | readerExpires | readerIdle =>
    obtain ⟨w, hw, rfl⟩ := Option.map_eq_some_iff.1 h
    exact .other _ _
  | writerIdle =>
    obtain ⟨w, hw, rfl⟩ := Option.map_eq_some_iff.1 h
    split
    · rename_i harmed
      exact .idle hw harmed
    · rename_i harmed
      exact .stale hw (by simpa using harmed)
  | shutdown =>
    obtain rfl := Option.some.inj h
    exact .shutdown

/-! ## The signs of life -/

/-- What the timer of the writer takes for a sign of life, with its time. -/
def writerSigns (s : State) (a : Act) (_ : State) : List ℕ :=
  match a with
  | .outbox (.complete _ _) | .setWriterIdleHandler _ => [s.clock]
  | _ => []

/-- What the timer of the reader takes for one. -/
def readerSigns (s : State) (a : Act) (_ : State) : List ℕ :=
  match a with
  | .reader .arrive | .setReaderIdleHandler _ => [s.clock]
  | _ => []

theorem signs_of_run {w v : Watchdog} {now : ℕ} (h : w.run now = some v) : v.signs = w.signs := by
  obtain ⟨p, queued, -, rfl⟩ := Watchdog.run_eq_some h
  rfl

theorem signs_of_expire {w v : Watchdog} {now : ℕ} (h : w.expire now = some v) :
    v.signs = w.signs := by
  obtain ⟨since, timeout, -, -, rfl⟩ := Watchdog.expire_eq_some h
  rfl

theorem signs_step {a : Act} (h : step heartbeat fails s a = some t) :
    t.writerIdle.signs = s.writerIdle.signs ++ writerSigns s a t ∧
      t.readerIdle.signs = s.readerIdle.signs ++ readerSigns s a t := by
  cases a with
  | tick d | setWriterIdleHandler timeout | setReaderIdleHandler timeout | shutdown =>
    obtain rfl := Option.some.inj h
    simp [writerSigns, readerSigns, Watchdog.arm_eq, Watchdog.disarm]
  | outbox a =>
    obtain ⟨outbox, -, rfl⟩ := Option.map_eq_some_iff.1 h
    cases a <;> simp [writerSigns, readerSigns, State.setOutbox, Watchdog.start]
  | reader a =>
    obtain ⟨reader, -, rfl⟩ := Option.map_eq_some_iff.1 h
    cases a <;> simp [writerSigns, readerSigns, Watchdog.start]
  | writerExpires | readerExpires =>
    obtain ⟨w, hw, rfl⟩ := Option.map_eq_some_iff.1 h
    simp [writerSigns, readerSigns, signs_of_expire hw]
  | writerIdle =>
    obtain ⟨w, hw, rfl⟩ := Option.map_eq_some_iff.1 h
    split <;> simp [writerSigns, readerSigns, State.setOutbox, signs_of_run hw]
  | readerIdle =>
    obtain ⟨w, hw, rfl⟩ := Option.map_eq_some_iff.1 h
    simp [writerSigns, readerSigns, signs_of_run hw]

/-! ## Both timers -/

/-- Every call of a handler has its silence. -/
def Sound (s : State) : Prop := s.writerIdle.Sound s.clock ∧ s.readerIdle.Sound s.clock

theorem sound_start (bytes : List UInt8) : Sound (start bytes) := ⟨.init 0, .init 0⟩

theorem sound_step {a : Act} (hs : Sound s) (h : step heartbeat fails s a = some t) : Sound t := by
  obtain ⟨hw, hr⟩ := hs
  cases a with
  | tick d =>
    obtain rfl := Option.some.inj h
    exact ⟨hw.tick (Nat.le_add_right _ d), hr.tick (Nat.le_add_right _ d)⟩
  | outbox a =>
    obtain ⟨outbox, -, rfl⟩ := Option.map_eq_some_iff.1 h
    cases a with
    | complete => exact ⟨hw.start, hr⟩
    | _ => exact ⟨hw, hr⟩
  | reader a =>
    obtain ⟨reader, -, rfl⟩ := Option.map_eq_some_iff.1 h
    cases a with
    | arrive => exact ⟨hw, hr.start⟩
    | _ => exact ⟨hw, hr⟩
  | setWriterIdleHandler timeout =>
    obtain rfl := Option.some.inj h
    exact ⟨hw.arm timeout, hr⟩
  | setReaderIdleHandler timeout =>
    obtain rfl := Option.some.inj h
    exact ⟨hw, hr.arm timeout⟩
  | writerExpires =>
    obtain ⟨w, hexpire, rfl⟩ := Option.map_eq_some_iff.1 h
    exact ⟨hw.expire hexpire, hr⟩
  | readerExpires =>
    obtain ⟨w, hexpire, rfl⟩ := Option.map_eq_some_iff.1 h
    exact ⟨hw, hr.expire hexpire⟩
  | writerIdle =>
    obtain ⟨w, hrun, rfl⟩ := Option.map_eq_some_iff.1 h
    split <;> exact ⟨hw.run hrun, hr⟩
  | readerIdle =>
    obtain ⟨w, hrun, rfl⟩ := Option.map_eq_some_iff.1 h
    exact ⟨hw, hr.run hrun⟩
  | shutdown =>
    obtain rfl := Option.some.inj h
    exact ⟨hw.disarm, hr.disarm⟩

/-- The strand is prompt: the clock does not go on while a call of a handler is queued or past the
deadline of a wait, and a write completes within `latency`. -/
def Prompt (latency : ℕ) (s : State) : Act → Prop
  | .tick d => s.writerIdle.Waits (s.clock + d) ∧ s.readerIdle.Waits (s.clock + d) ∧
      (s.busy = true → s.clock + d ≤ s.busySince + latency)
  | _ => True

instance (latency : ℕ) (s : State) (a : Act) : Decidable (Prompt latency s a) := by
  unfold Prompt
  split <;> infer_instance

/-! ## The timer of the writer is kept up -/

/-- While a handler is set, a wait is pending or a call of the handler is queued or there is a write
whose completion starts the timer over. -/
def Kept (s : State) : Prop :=
  s.writerIdle.armed = true →
    s.writerIdle.pending ≠ none ∨ s.writerIdle.queued ≠ [] ∨ s.busy = true

theorem kept_step {a : Act} (hs : Kept s) (h : step heartbeat fails s a = some t) : Kept t := by
  cases writerMove_of_step h with
  | tick | other => exact hs
  | outbox hstep hbusy => exact fun harmed => (hs harmed).imp_right (Or.imp_right hbusy)
  | complete hstep =>
    intro harmed
    have harmed : s.writerIdle.armed = true := harmed
    exact .inl (by simp [Watchdog.start, harmed])
  | arm => exact fun _ => .inl (by simp [Watchdog.arm_eq])
  | expire hexpire =>
    obtain ⟨since, timeout, -, -, rfl⟩ := Watchdog.expire_eq_some hexpire
    exact fun _ => .inr (.inl (by simp))
  | idle => exact fun _ => .inr (.inr (by simp [State.busy, State.setOutbox, Outbox.State.write]))
  | stale hrun harmed => exact fun harmed' => absurd harmed' (by simp [harmed])
  | shutdown => exact fun harmed => absurd harmed (by simp [Watchdog.disarm])

/-- What a prompt strand keeps of the timer of the writer: whatever is on its way was begun in time. -/
structure Punctual (latency : ℕ) (s : State) : Prop where
  prompt : s.writerIdle.Prompt s.clock
  since : s.busySince ≤ s.clock
  busy : s.busy = true → s.clock ≤ s.busySince + latency
  begun : s.writerIdle.armed = true → ∃ r ∈ s.writerIdle.signs,
    (if s.busy then s.busySince else s.clock) ≤ r + s.writerIdle.timeout

namespace Punctual

variable {latency : ℕ}

theorem init (bytes : List UInt8) (latency : ℕ) : Punctual latency (start bytes) :=
  ⟨.init 0, Nat.le_refl _, nofun, nofun⟩

/-- The clock goes on: what is pending is the wait of the timer, whose deadline is not passed over. -/
theorem tick (hs : Punctual latency s) (hkept : Kept s) (hsound : Sound s) {d : ℕ}
    (hok : Prompt latency s (.tick d)) : Punctual latency { s with clock := s.clock + d } := by
  obtain ⟨hwaits, -, hlatency⟩ := hok
  refine ⟨hs.prompt.tick hwaits, Nat.le_trans hs.since (Nat.le_add_right _ d), hlatency,
    fun harmed => ?_⟩
  change ∃ r ∈ s.writerIdle.signs,
    (if s.busy then s.busySince else s.clock + d) ≤ r + s.writerIdle.timeout
  cases hbusy : s.busy with
  | true => simpa [hbusy] using hs.begun harmed
  | false =>
    obtain hpending | hqueued | hbusy' := hkept harmed
    · obtain ⟨x, hx⟩ := Option.ne_none_iff_exists'.1 hpending
      refine ⟨x.1, (hsound.1.pending x hx).1, ?_⟩
      have hle := hwaits.2 x hx
      rwa [hs.prompt.timeout x hx] at hle
    · exact absurd hwaits.1 hqueued
    · simp [hbusy] at hbusy'

/-- The outbox goes on. -/
theorem setOutbox (hs : Punctual latency s) {outbox : Outbox.State}
    (hbusy : s.busy = true → (s.setOutbox outbox).busy = true) :
    Punctual latency (s.setOutbox outbox) := by
  refine ⟨hs.prompt, ?_, fun _ => ?_, fun harmed => ?_⟩
  · simp only [State.setOutbox]
    split
    · exact hs.since
    · exact Nat.le_refl _
  · simp only [State.setOutbox]
    split
    · rename_i hbefore
      exact hs.busy hbefore
    · exact Nat.le_add_right _ _
  · obtain ⟨r, hr, hle⟩ := hs.begun harmed
    refine ⟨r, hr, ?_⟩
    split
    · exact hle
    · rename_i hfree
      rw [if_neg (fun hbefore => hfree (hbusy hbefore))] at hle
      exact hle

/-- The timer changes, and has had its last sign of life no earlier. -/
theorem setTimer (hs : Punctual latency s) {w : Watchdog} (hprompt : w.Prompt s.clock)
    (hbegun : w.armed = true → s.clock ∈ w.signs ∨
      s.writerIdle.armed = true ∧ w.signs = s.writerIdle.signs ∧ w.timeout = s.writerIdle.timeout) :
    Punctual latency { s with writerIdle := w } := by
  refine ⟨hprompt, hs.since, hs.busy, fun harmed => ?_⟩
  rcases hbegun harmed with hnow | ⟨hbefore, hsigns, htimeout⟩
  · refine ⟨s.clock, hnow, Nat.le_trans ?_ (Nat.le_add_right _ _)⟩
    split
    · exact hs.since
    · exact Nat.le_refl _
  · rw [hsigns, htimeout]
    exact hs.begun hbefore

theorem step {a : Act} (hs : Punctual latency s) (hkept : Kept s) (hsound : Sound s)
    (hok : Prompt latency s a) (h : step heartbeat fails s a = some t) : Punctual latency t := by
  have hrun : ∀ {w}, s.writerIdle.run s.clock = some w →
      Punctual latency { s with writerIdle := w } := by
    intro w hw
    refine hs.setTimer (hs.prompt.run hw) ?_
    obtain ⟨p, queued, -, rfl⟩ := Watchdog.run_eq_some hw
    exact fun harmed => .inr ⟨harmed, rfl, rfl⟩
  cases writerMove_of_step h with
  | tick => exact hs.tick hkept hsound hok
  | outbox hstep hbusy => exact hs.setOutbox hbusy
  | complete hstep =>
    -- the timer starts over, and the outbox with it
    refine ⟨hs.prompt.start hsound.1, Nat.le_refl _, fun _ => Nat.le_add_right _ _,
      fun _ => ⟨s.clock, by simp [Watchdog.start], ?_⟩⟩
    split <;> exact Nat.le_add_right _ _
  | arm timeout =>
    exact hs.setTimer (hs.prompt.arm timeout) fun _ => .inl (by simp [Watchdog.arm_eq])
  | expire hexpire =>
    refine hs.setTimer (hs.prompt.expire hsound.1 hexpire) ?_
    obtain ⟨since, timeout, -, -, rfl⟩ := Watchdog.expire_eq_some hexpire
    exact fun harmed => .inr ⟨harmed, rfl, rfl⟩
  | idle hw harmed =>
    refine (hrun hw).setOutbox fun _ => ?_
    simp [State.busy, State.setOutbox, Outbox.State.write]
  | stale hw harmed => exact hrun hw
  | shutdown =>
    have hoff := hs.setTimer hs.prompt.disarm (by simp [Watchdog.disarm])
    exact ⟨hoff.prompt, hoff.since, hoff.busy, hoff.begun⟩
  | other => exact ⟨hs.prompt, hs.since, hs.busy, hs.begun⟩

end Punctual

/-- **The connection never falls silent.** Whatever is written and read and however the handlers of
the strand are interleaved: while a writer-idle handler is set, the timer runs, or the call of the
handler is queued, or there is a write whose completion starts the timer over. Each heartbeat has a
time of its own in which no write completed and which was as long as the timeout. And if the strand
is prompt and writes take at most `latency`, then at any time the last completion of a write, or the
setting of the handler, is at most the timeout and the latency ago. -/
theorem heartbeat_kept (heartbeat : BinaryBuffer) (bytes : List UInt8) (fails : Bool) (as : List Act)
    (s : State) (h : (machine heartbeat bytes fails).run (start bytes) as = some s) :
    s.writerIdle.signs = (machine heartbeat bytes fails).record writerSigns (start bytes) as ∧
    Kept s ∧
    (∀ f ∈ s.writerIdle.fired, f.1.Holds s.writerIdle.signs ∧ f.1.ended ≤ f.2) ∧
    (s.writerIdle.fired.map Prod.fst).Pairwise (fun p q => p.ended ≤ q.since) ∧
    ∀ latency, (machine heartbeat bytes fails).Along (Prompt latency) (start bytes) as →
      s.writerIdle.armed = true →
        ∃ r ∈ s.writerIdle.signs, s.clock ≤ r + s.writerIdle.timeout + latency := by
  have hsigns : s.writerIdle.signs =
      [] ++ (machine heartbeat bytes fails).record writerSigns (start bytes) as :=
    Machine.run_record (P := fun s l => s.writerIdle.signs = l)
      (fun hs hstep => by rw [(signs_step hstep).1, hs]) rfl h
  have hkept : Kept s := Machine.run_keeps (P := Kept) kept_step (by simp [Kept, start]) h
  have hsound : Sound s := Machine.run_keeps (P := Sound) sound_step (sound_start bytes) h
  have hmem : ∀ f ∈ s.writerIdle.fired, f.1 ∈ s.writerIdle.silences := fun f hf =>
    List.mem_append_left _ (List.mem_map_of_mem hf)
  refine ⟨hsigns, hkept, fun f hf => ⟨(hsound.1.silences f.1 (hmem f hf)).1, (hsound.1.fired f hf).1⟩,
    hsound.1.apart.sublist (List.sublist_append_left _ _), fun latency hprompt harmed => ?_⟩
  obtain ⟨-, -, hpunctual⟩ := Machine.run_invariant
    (P := fun s => Kept s ∧ Sound s ∧ Punctual latency s)
    (fun hs hok hstep => ⟨kept_step hs.1 hstep, sound_step hs.2.1 hstep,
      hs.2.2.step hs.1 hs.2.1 hok hstep⟩)
    ⟨by simp [Kept, start], sound_start bytes, .init bytes latency⟩ hprompt h
  obtain ⟨r, hr, hle⟩ := hpunctual.begun harmed
  refine ⟨r, hr, ?_⟩
  cases hbusy : s.busy with
  | true =>
    have hlatency := hpunctual.busy hbusy
    rw [hbusy, if_pos rfl] at hle
    omega
  | false =>
    rw [hbusy, if_neg (by simp)] at hle
    omega

/-- A heartbeat is due after ten units of time, and its write has not completed two units later. -/
def lateHeartbeat : List Act :=
  [.setWriterIdleHandler 10, .tick 10, .writerExpires, .writerIdle, .outbox .handle, .tick 2]

theorem heartbeat_kept_lateHeartbeat :
    ∃ s, (machine {} [] false).run (start []) lateHeartbeat = some s ∧ s.clock = 12 ∧
      ∃ r ∈ s.writerIdle.signs, s.clock ≤ r + s.writerIdle.timeout + 2 := by
  obtain ⟨s, hs, hclock, harmed⟩ : ∃ s, (machine {} [] false).run (start []) lateHeartbeat = some s ∧
      s.clock = 12 ∧ s.writerIdle.armed = true := ⟨_, rfl, rfl, rfl⟩
  obtain ⟨-, -, -, -, hbound⟩ := heartbeat_kept {} [] false lateHeartbeat s hs
  exact ⟨s, hs, hclock, hbound 2 (Machine.along_of_check (by decide)) harmed⟩

/-! ## The peer is watched -/

theorem readerPrompt_step {latency : ℕ} {a : Act} (hs : s.readerIdle.Prompt s.clock)
    (hsound : s.readerIdle.Sound s.clock) (hok : Prompt latency s a)
    (h : step heartbeat fails s a = some t) : t.readerIdle.Prompt t.clock := by
  cases a with
  | tick d =>
    obtain rfl := Option.some.inj h
    exact hs.tick hok.2.1
  | outbox a =>
    obtain ⟨outbox, -, rfl⟩ := Option.map_eq_some_iff.1 h
    cases a <;> exact hs
  | reader a =>
    obtain ⟨reader, -, rfl⟩ := Option.map_eq_some_iff.1 h
    cases a with
    | arrive => exact hs.start hsound
    | _ => exact hs
  | setWriterIdleHandler timeout =>
    obtain rfl := Option.some.inj h
    exact hs
  | setReaderIdleHandler timeout =>
    obtain rfl := Option.some.inj h
    exact hs.arm timeout
  | writerExpires =>
    obtain ⟨w, -, rfl⟩ := Option.map_eq_some_iff.1 h
    exact hs
  | readerExpires =>
    obtain ⟨w, hexpire, rfl⟩ := Option.map_eq_some_iff.1 h
    exact hs.expire hsound hexpire
  | writerIdle =>
    obtain ⟨w, -, rfl⟩ := Option.map_eq_some_iff.1 h
    split <;> exact hs
  | readerIdle =>
    obtain ⟨w, hrun, rfl⟩ := Option.map_eq_some_iff.1 h
    exact hs.run hrun
  | shutdown =>
    obtain rfl := Option.some.inj h
    exact hs.disarm

/-- The step sets no handler. -/
def SetsNone (_ : State) : Act → Prop
  | .setWriterIdleHandler _ | .setReaderIdleHandler _ => False
  | _ => True

/-- No handler is set, and none of them has been called since. -/
structure Off (heartbeats timeouts : List (Silence × ℕ)) (s : State) : Prop where
  writer : s.writerIdle.armed = false
  reader : s.readerIdle.armed = false
  heartbeats : s.writerIdle.fired = heartbeats
  timeouts : s.readerIdle.fired = timeouts

theorem fired_of_run {w v : Watchdog} {now : ℕ} (h : w.run now = some v) (hoff : w.armed = false) :
    v.armed = false ∧ v.fired = w.fired := by
  obtain ⟨p, queued, -, rfl⟩ := Watchdog.run_eq_some h
  exact ⟨hoff, by simp [hoff]⟩

theorem fired_of_expire {w v : Watchdog} {now : ℕ} (h : w.expire now = some v) :
    v.armed = w.armed ∧ v.fired = w.fired := by
  obtain ⟨since, timeout, -, -, rfl⟩ := Watchdog.expire_eq_some h
  exact ⟨rfl, rfl⟩

theorem off_step {heartbeats timeouts : List (Silence × ℕ)} {a : Act}
    (hs : Off heartbeats timeouts s) (hok : SetsNone s a) (h : step heartbeat fails s a = some t) :
    Off heartbeats timeouts t := by
  obtain ⟨hw, hr, hwf, hrf⟩ := hs
  cases a with
  | tick d | shutdown =>
    obtain rfl := Option.some.inj h
    first | exact ⟨hw, hr, hwf, hrf⟩ | exact ⟨rfl, rfl, hwf, hrf⟩
  | outbox a =>
    obtain ⟨outbox, -, rfl⟩ := Option.map_eq_some_iff.1 h
    cases a <;> exact ⟨hw, hr, hwf, hrf⟩
  | reader a =>
    obtain ⟨reader, -, rfl⟩ := Option.map_eq_some_iff.1 h
    cases a <;> exact ⟨hw, hr, hwf, hrf⟩
  | setWriterIdleHandler timeout | setReaderIdleHandler timeout => exact hok.elim
  | writerExpires =>
    obtain ⟨w, hexpire, rfl⟩ := Option.map_eq_some_iff.1 h
    obtain ⟨harmed, hfired⟩ := fired_of_expire hexpire
    exact ⟨harmed.trans hw, hr, hfired.trans hwf, hrf⟩
  | readerExpires =>
    obtain ⟨w, hexpire, rfl⟩ := Option.map_eq_some_iff.1 h
    obtain ⟨harmed, hfired⟩ := fired_of_expire hexpire
    exact ⟨hw, harmed.trans hr, hwf, hfired.trans hrf⟩
  | writerIdle =>
    obtain ⟨w, hrun, rfl⟩ := Option.map_eq_some_iff.1 h
    obtain ⟨harmed, hfired⟩ := fired_of_run hrun hw
    rw [if_neg (by simp [harmed])]
    exact ⟨harmed, hr, hfired.trans hwf, hrf⟩
  | readerIdle =>
    obtain ⟨w, hrun, rfl⟩ := Option.map_eq_some_iff.1 h
    obtain ⟨harmed, hfired⟩ := fired_of_run hrun hr
    exact ⟨hw, harmed, hwf, hfired.trans hrf⟩

/-- **A silent peer is noticed, and only a silent one.** Each call of the reader-idle handler has a
time of its own, as long as the timeout, in which no read completed; a read that completes after it
and before the call does not take the call back. If the strand is prompt, a silence that is longer
than the timeout has been answered on its deadline. After the handler of `shutdown()` neither of the
two idle handlers is called again, although expiries may be queued, unless a `handle_tune` that is
still running sets them once more. -/
theorem peer_watched (heartbeat : BinaryBuffer) (bytes : List UInt8) (fails : Bool) (as : List Act)
    (s : State) (h : (machine heartbeat bytes fails).run (start bytes) as = some s) :
    s.readerIdle.signs = (machine heartbeat bytes fails).record readerSigns (start bytes) as ∧
    (∀ f ∈ s.readerIdle.fired, f.1.Holds s.readerIdle.signs ∧ f.1.ended ≤ f.2 ∧ f.2 ≤ s.clock) ∧
    (s.readerIdle.fired.map Prod.fst).Pairwise (fun p q => p.ended ≤ q.since) ∧
    (∀ latency, (machine heartbeat bytes fails).Along (Prompt latency) (start bytes) as →
      s.readerIdle.armed = true →
      (∀ r ∈ s.readerIdle.signs, r + s.readerIdle.timeout < s.clock) →
        ∃ f ∈ s.readerIdle.fired, f.1.timeout = s.readerIdle.timeout ∧
          f.2 = f.1.since + s.readerIdle.timeout ∧ ∀ r ∈ s.readerIdle.signs, r ≤ f.1.since) ∧
    ∀ bs t, (machine heartbeat bytes fails).run s (.shutdown :: bs) = some t →
      (machine heartbeat bytes fails).Along SetsNone s (.shutdown :: bs) →
        t.readerIdle.fired = s.readerIdle.fired ∧ t.writerIdle.fired = s.writerIdle.fired := by
  have hsigns : s.readerIdle.signs =
      [] ++ (machine heartbeat bytes fails).record readerSigns (start bytes) as :=
    Machine.run_record (P := fun s l => s.readerIdle.signs = l)
      (fun hs hstep => by rw [(signs_step hstep).2, hs]) rfl h
  have hsound : Sound s := Machine.run_keeps (P := Sound) sound_step (sound_start bytes) h
  have hmem : ∀ f ∈ s.readerIdle.fired, f.1 ∈ s.readerIdle.silences := fun f hf =>
    List.mem_append_left _ (List.mem_map_of_mem hf)
  refine ⟨hsigns, fun f hf => ⟨(hsound.2.silences f.1 (hmem f hf)).1, hsound.2.fired f hf⟩,
    hsound.2.apart.sublist (List.sublist_append_left _ _), fun latency hprompt harmed hlate => ?_,
    fun bs t ht hnone => ?_⟩
  · obtain ⟨-, hreader⟩ := Machine.run_invariant
      (P := fun s => Sound s ∧ s.readerIdle.Prompt s.clock)
      (fun hs hok hstep => ⟨sound_step hs.1 hstep, readerPrompt_step hs.2 hs.1.2 hok hstep⟩)
      ⟨sound_start bytes, .init 0⟩ hprompt h
    exact hreader.answered hsound.2 harmed hlate
  · obtain ⟨u, hu, ht⟩ := Machine.run_cons.1 ht
    obtain rfl := Option.some.inj hu
    have hstart : Off s.writerIdle.fired s.readerIdle.fired
        { s with writerIdle := s.writerIdle.disarm, readerIdle := s.readerIdle.disarm } :=
      ⟨rfl, rfl, rfl, rfl⟩
    have hoff := Machine.run_invariant (P := Off s.writerIdle.fired s.readerIdle.fired) off_step
      hstart (hnone.2 _ rfl) ht
    exact ⟨hoff.timeouts, hoff.heartbeats⟩

/-- The peer sends four bytes and falls silent; the reader-idle handler is called on the deadline. -/
def silentPeer : List Act :=
  [.setReaderIdleHandler 20, .tick 5, .reader .arrive, .tick 20, .readerExpires, .readerIdle, .tick 1]

theorem peer_watched_silentPeer :
    ∃ s, (machine {} [0, 0, 0, 1] false).run (start [0, 0, 0, 1]) silentPeer = some s ∧
      ∃ f ∈ s.readerIdle.fired, f.2 = f.1.since + s.readerIdle.timeout := by
  obtain ⟨s, hs, harmed, hlate⟩ : ∃ s,
      (machine {} [0, 0, 0, 1] false).run (start [0, 0, 0, 1]) silentPeer = some s ∧
      s.readerIdle.armed = true ∧ ∀ r ∈ s.readerIdle.signs, r + s.readerIdle.timeout < s.clock :=
    ⟨_, rfl, rfl, by decide⟩
  obtain ⟨-, -, -, hanswered, -⟩ := peer_watched {} [0, 0, 0, 1] false silentPeer s hs
  obtain ⟨f, hf, -, hdeadline, -⟩ :=
    hanswered 0 (Machine.along_of_check (by decide)) harmed hlate
  exact ⟨s, hs, f, hf, hdeadline⟩

end Hareflow.Connection.Idle
