import Hareflow.Client.FrameHandlers

/-!
# The frame thread

`handle_frames` reads one frame after the other and invokes the handler of each. It catches
`ServerCloseException` and `IOException`, which end the loop, and every other `StreamException`,
which it logs; any other exception leaves the thread and terminates the process. The server may send
any bytes, and between two frames the other threads of the client may set the status, make and drop
requests and fail them.

Only one thing that a handler throws is not a `StreamException`: `set_value` of the promise that
`start()` waits for, when it has been set. `answersTune` are the frames that get to it, and
`escaped_iff` says that the second of them terminates the process.
-/

namespace Hareflow.Client.Frames

open Foundations Wire
open Connection (IOException)
open Connection.Reader (frameBuffer)
open Lifecycle (Status ShutdownReason)

variable {μ : Type}

/-! ## The loop -/

/-- The format `{:#04x}`. -/
def hex (n : UInt16) : String :=
  let digits := String.ofList (Nat.toDigits 16 n.toNat)
  if digits.length < 2 then "0x0" ++ digits else "0x" ++ digits

/-- The key and the version of a frame. -/
def readHeader : Reader (UInt16 × UInt16) := do
  let key ← BinaryBuffer.readUshort
  let version ← BinaryBuffer.readUshort
  return (key, version)

/-- Look the handler up and invoke it. -/
def dispatch (p : Parameters μ) (key version : UInt16) (buffer : BinaryBuffer) : Action μ Unit :=
  match findHandler key version with
  | some handler => handler.invoke p buffer
  | none =>
    let command := hex key
    throw (.stream (.stream s!"Unsupported command {command} at version {version}"))

/-- The `try` block of `handle_frames` after the read: the reason to leave the loop with, if any. -/
def processFrame (p : Parameters μ) (buffer : BinaryBuffer) : Action μ (Option ShutdownReason) :=
  fun s =>
    match readHeader buffer with
    | .error e => .error (.stream e) s
    | .ok ((key, version), buffer) =>
      let isResponse := key &&& 0x8000 ≠ 0
      let key := key &&& 0x7FFF
      if s.status ≠ .stopping then
        (do dispatch p key version buffer; return none : Action μ _) s
      else if isResponse ∧ key = CommandKey.close.toUInt16 then
        (do handleResponse .generic buffer; return some .clientInitiated : Action μ _) s
      else .ok none s

/-- The `catch` blocks. -/
def catchFrame : EStateM.Result FrameException (State μ) (Option ShutdownReason) → State μ
  | .ok none s => s
  | .ok (some reason) s => { s with loop := .left reason }
  | .error (.serverClose _) s => { s with loop := .left .serverInitiated }
  | .error (.io _) s => { s with loop := .left .unknown }
  | .error (.stream _) s => s
  | .error .futureError s => { s with loop := .escaped }

inductive Act
  /-- `m_connection->read().get()` returns a frame with this payload. -/
  | frame (payload : Bytes)
  /-- It throws. -/
  | readFails (e : IOException)
  /-- Another thread sets the status. -/
  | setStatus (status : Status)
  /-- A step of a caller, or of a shutdown, on the outstanding requests. -/
  | request (a : Requests.Act)
  deriving DecidableEq, Repr

def step (p : Parameters μ) (s : State μ) : Act → Option (State μ)
  | .frame payload =>
    if s.loop = .running then some (catchFrame (processFrame p (frameBuffer payload) s)) else none
  | .readFails e => if s.loop = .running then some (catchFrame (.error (.io e) s)) else none
  | .setStatus status => some { s with status }
  | .request (.respond _) => none
  | .request a => (Requests.step s.requests a).map fun requests => { s with requests }

/-- A step of the callers changes the outstanding requests only. -/
theorem step_request {p : Parameters μ} {s t : State μ} {a : Requests.Act}
    (h : step p s (.request a) = some t) :
    ∃ requests, Requests.step s.requests a = some requests ∧ { s with requests } = t := by
  cases a <;> simp only [step] at h <;>
    first | exact Option.map_eq_some_iff.1 h | cases h

/-- The frame thread of a client with these parameters; it starts with any status and limits. -/
def machine (p : Parameters μ) : Machine (State μ) Act where
  Init s := ∃ status maxFrameSize heartbeat, s = { status, maxFrameSize, heartbeat }
  step := step p

/-- The `catch` blocks send nothing. -/
theorem credits_catchFrame (r : EStateM.Result FrameException (State μ) (Option ShutdownReason)) :
    (catchFrame r).credits = (finalState r).credits := by
  cases r with
  | ok reason s => cases reason <;> rfl
  | error e s => cases e <;> rfl

/-! ## Tune frames -/

instance (maxFrameSize : UInt32) (size : ℕ) : Decidable (FrameFits maxFrameSize size) :=
  inferInstanceAs (Decidable (_ ∧ _))

/-- The body of a tune command that can be read, and whose answer, a frame of twelve bytes and its
length prefix, is within the maximum frame size that it negotiates. -/
def answersBody (s : State μ) (buffer : BinaryBuffer) : Bool :=
  match ServerTuneCommand.readBody buffer with
  | .error _ => false
  | .ok (command, _) => decide (FrameFits (s.negociate command).maxFrameSize 12)

/-- A tune frame that is answered, in a client that is not stopping. -/
def answersTune (s : State μ) (payload : Bytes) : Bool :=
  match readHeader (frameBuffer payload) with
  | .error _ => false
  | .ok ((key, version), buffer) =>
    decide (s.status ≠ .stopping ∧ findHandler (key &&& 0x7FFF) version = some .tune) &&
      answersBody s buffer

/-- The answer to a tune frame is sent exactly if it fits. -/
theorem sendFrame_clientTune (maxFrameSize frameSize heartbeat : UInt32) :
    (∃ buffer, sendFrame maxFrameSize
      (ClientFrame.clientTuneCommand frameSize heartbeat).toSerializable = .ok buffer) ↔
      FrameFits maxFrameSize 12 :=
  sendFrame_isOk_iff ⟨by simp, by simp, by simp⟩ maxFrameSize

/-! ## One frame -/

/-- What becomes of the parts of the client that decide whether an exception escapes. -/
structure Processed (s : State μ) (answers : Bool) (t : State μ) : Prop where
  tuned : t.tuned = (s.tuned || answers)
  escaped : t.loop = .escaped ↔ s.tuned = true ∧ answers = true
  requests : t.requests = s.requests ∨
    ∃ response, t.requests = s.requests.completeOutstandingRequest response

/-- Code that leaves these parts alone, and throws nothing that escapes. -/
theorem processed_of_steady {s : State μ} (hloop : s.loop = .running)
    {m : Action μ (Option ShutdownReason)} (hm : Effect Steady Caught m) :
    Processed s false (catchFrame (m s)) := by
  have hs := hm s
  cases hresult : m s with
  | ok reason t =>
    rw [hresult] at hs
    have hrunning := hs.loop.trans hloop
    cases reason with
    | none => exact ⟨by simp [catchFrame, hs.tuned], by simp [catchFrame, hrunning], .inl hs.requests⟩
    | some reason => exact ⟨by simp [catchFrame, hs.tuned], by simp [catchFrame], .inl hs.requests⟩
  | error e t =>
    rw [hresult] at hs
    obtain ⟨hs, hcaught⟩ := hs
    have hrunning := hs.loop.trans hloop
    cases e with
    | serverClose what =>
      exact ⟨by simp [catchFrame, hs.tuned], by simp [catchFrame], .inl hs.requests⟩
    | io e => exact ⟨by simp [catchFrame, hs.tuned], by simp [catchFrame], .inl hs.requests⟩
    | stream e =>
      exact ⟨by simp [catchFrame, hs.tuned], by simp [catchFrame, hrunning], .inl hs.requests⟩
    | futureError => exact absurd rfl hcaught

/-- A response completes one of the outstanding requests at most. -/
theorem processed_handleResponse {s : State μ} (hloop : s.loop = .running)
    (type : Requests.ResponseType) (buffer : BinaryBuffer) (reason : Option ShutdownReason) :
    Processed s false (catchFrame
      ((do handleResponse type buffer; return reason : Action μ _) s)) := by
  show Processed s false (catchFrame (EStateM.bind _ _ s))
  rw [EStateM.bind, handleResponse_eq]
  cases deserializeResponse type buffer with
  | error e => exact ⟨by simp [catchFrame], by simp [catchFrame, hloop], .inl rfl⟩
  | ok response =>
    cases reason with
    | none =>
      exact ⟨by simp [catchFrame, pure, EStateM.pure], by simp [catchFrame, pure, EStateM.pure, hloop],
        .inr ⟨_, rfl⟩⟩
    | some reason =>
      exact ⟨by simp [catchFrame, pure, EStateM.pure], by simp [catchFrame, pure, EStateM.pure],
        .inr ⟨_, rfl⟩⟩

/-- A tune frame that is answered sets the promise, and the promise can be set once. -/
theorem processed_handleTune {s : State μ} (hloop : s.loop = .running) (buffer : BinaryBuffer) :
    Processed s (answersBody s buffer) (catchFrame
      ((do handleTune buffer; return none : Action μ _) s)) := by
  show Processed s _ (catchFrame (EStateM.bind _ _ s))
  rw [EStateM.bind, handleTune_eq, answersBody]
  cases ServerTuneCommand.readBody buffer with
  | error e => exact ⟨by simp [catchFrame], by simp [catchFrame, hloop], .inl rfl⟩
  | ok command =>
    obtain ⟨command, rest⟩ := command
    have hfits := sendFrame_clientTune (s.negociate command).maxFrameSize
      (s.negociate command).maxFrameSize (s.negociate command).heartbeat
    have hanswer : (s.answerTune command).tuned = s.tuned ∧
        (s.answerTune command).loop = s.loop ∧ (s.answerTune command).requests = s.requests := by
      simp only [State.answerTune, State.setIdleHandlers]
      split <;> exact ⟨rfl, rfl, rfl⟩
    dsimp only
    cases hsend : sendFrame (s.negociate command).maxFrameSize (ClientFrame.clientTuneCommand
        (s.negociate command).maxFrameSize (s.negociate command).heartbeat).toSerializable with
    | error e =>
      have hnot : ¬FrameFits (s.negociate command).maxFrameSize 12 := by
        intro h
        obtain ⟨b, hb⟩ := hfits.2 h
        rw [hsend] at hb
        cases hb
      rw [decide_eq_false hnot]
      exact ⟨by simp [catchFrame, State.negociate], by simp [catchFrame, State.negociate, hloop],
        .inl rfl⟩
    | ok b =>
      rw [decide_eq_true (hfits.1 ⟨b, hsend⟩)]
      dsimp only
      rw [setTunePromise, hanswer.1]
      cases htuned : s.tuned with
      | true =>
        exact ⟨by simp [catchFrame, hanswer.1, htuned], by simp [catchFrame, htuned],
          .inl hanswer.2.2⟩
      | false =>
        exact ⟨by simp [catchFrame, pure, EStateM.pure],
          by simp [catchFrame, pure, EStateM.pure, hanswer.2.1, hloop, htuned], .inl hanswer.2.2⟩

/-- What the processing of a frame does, whatever its bytes. -/
theorem processed_frame (p : Parameters μ) {s : State μ} (hloop : s.loop = .running)
    (payload : Bytes) :
    Processed s (answersTune s payload) (catchFrame (processFrame p (frameBuffer payload) s)) := by
  have hquiet : Processed s false s := ⟨by simp, by simp [hloop], .inl rfl⟩
  rw [processFrame, answersTune]
  cases readHeader (frameBuffer payload) with
  | error e => exact hquiet
  | ok header =>
    obtain ⟨⟨key, version⟩, buffer⟩ := header
    dsimp only
    by_cases hstatus : s.status = .stopping
    · rw [if_neg (not_not.2 hstatus)]
      simp only [hstatus, ne_eq, not_true_eq_false, false_and, decide_false, Bool.false_and]
      split
      · exact processed_handleResponse hloop _ _ _
      · exact hquiet
    · rw [if_pos hstatus]
      simp only [hstatus, ne_eq, not_false_eq_true, true_and]
      rw [dispatch]
      cases hfind : findHandler (key &&& 0x7FFF) version with
      | none => exact hquiet
      | some handler =>
        by_cases htune : handler = .tune
        · subst htune
          rw [decide_eq_true rfl, Bool.true_and]
          exact processed_handleTune hloop buffer
        · rw [decide_eq_false (by simpa using htune), Bool.false_and]
          by_cases hresponse : ∃ type, handler = .response type
          · obtain ⟨type, rfl⟩ := hresponse
            exact processed_handleResponse hloop _ _ _
          · have hsteady := handler.steady p buffer (fun type h => hresponse ⟨type, h⟩) htune
            exact processed_of_steady hloop (hsteady.bind fun _ => Effect.pure none)

/-! ## Runs -/

/-- The tune frames that are answered. -/
def answeredTunes (s : State μ) (a : Act) (_ : State μ) : List Bytes :=
  match a with
  | .frame payload => if answersTune s payload then [payload] else []
  | _ => []

/-- What holds after the tune frames `tunes` were answered. -/
structure Inv (s : State μ) (tunes : List Bytes) : Prop where
  tuned : s.tuned = true ↔ 1 ≤ tunes.length
  escaped : s.loop = .escaped ↔ 2 ≤ tunes.length
  once : Requests.Once s.requests

namespace Inv

variable {p : Parameters μ} {s t : State μ} {tunes : List Bytes}

theorem frame (h : Inv s tunes) (hloop : s.loop = .running) {payload : Bytes}
    (ht : Processed s (answersTune s payload) t) :
    Inv t (tunes ++ answeredTunes s (.frame payload) t) := by
  have hfew : ¬2 ≤ tunes.length := fun h2 => by simp [h.escaped.2 h2] at hloop
  have htuned := h.tuned
  have honce : Requests.Once t.requests := by
    rcases ht.requests with hreq | ⟨response, hreq⟩
    · rw [hreq]
      exact h.once
    · rw [hreq]
      exact h.once.respond response
  cases hanswer : answersTune s payload with
  | false =>
    refine ⟨?_, ?_, honce⟩
    · simpa [answeredTunes, hanswer, ht.tuned] using htuned
    · simpa [answeredTunes, hanswer, ht.escaped] using hfew
  | true =>
    refine ⟨by simp [answeredTunes, hanswer, ht.tuned], ?_, honce⟩
    simp [answeredTunes, hanswer, ht.escaped, htuned]

theorem step {a : Act} (h : Inv s tunes) (hstep : Frames.step p s a = some t) :
    Inv t (tunes ++ answeredTunes s a t) := by
  cases a with
  | frame payload =>
    obtain ⟨hloop, hstep⟩ := Option.ite_none_right_eq_some.1 hstep
    obtain rfl := Option.some.inj hstep
    exact h.frame hloop (processed_frame p hloop payload)
  | readFails e =>
    obtain ⟨hloop, hstep⟩ := Option.ite_none_right_eq_some.1 hstep
    obtain rfl := Option.some.inj hstep
    have hfew : ¬2 ≤ tunes.length := fun h2 => by simp [h.escaped.2 h2] at hloop
    exact ⟨by simpa [answeredTunes, catchFrame] using h.tuned,
      by simpa [answeredTunes, catchFrame] using hfew, h.once⟩
  | setStatus status =>
    obtain rfl := Option.some.inj hstep
    simp only [answeredTunes, List.append_nil]
    exact ⟨h.tuned, h.escaped, h.once⟩
  | request a =>
    obtain ⟨requests, hrequests, rfl⟩ := step_request hstep
    simp only [answeredTunes, List.append_nil]
    exact ⟨h.tuned, h.escaped, Requests.once_step h.once hrequests⟩

end Inv

theorem inv_init {p : Parameters μ} {s : State μ} (h : (machine p).Init s) : Inv s [] := by
  obtain ⟨status, maxFrameSize, heartbeat, rfl⟩ := h
  exact ⟨by simp, by simp, Requests.once_init⟩

/-- **The frame thread survives what the server sends, except a second tune frame.** For every
sequence of frames with any bytes, of failures to read, of changes of the status and of steps of the
callers, an exception escapes `handle_frames` exactly if two tune frames were answered. No promise
of the outstanding requests is completed twice. -/
theorem escaped_iff (p : Parameters μ) (acts : List Act) (s t : State μ) (hinit : (machine p).Init s)
    (h : (machine p).run s acts = some t) :
    (t.loop = .escaped ↔ 2 ≤ ((machine p).record answeredTunes s acts).length) ∧
      t.requests.completed.Nodup := by
  have hinv := Machine.run_record (M := machine p) (P := Inv) Inv.step (inv_init hinit) h
  exact ⟨hinv.escaped, (List.nodup_append.1 hinv.once.nodup).2.1⟩

/-- The payload of a tune frame with a maximum frame size and a heartbeat of sixty. -/
def tunePayload : Bytes := [0x00, 0x14, 0x00, 0x01, 0, 0, 0, 60, 0, 0, 0, 60]

/-- Frames that are malformed, unsolicited or repeated: one that is too short, an unknown command, a
deliver command without its body, a response to a request that was not made, a close request that
is cut off, and a tune frame, which is answered. -/
def strayFrames : List Act :=
  [.frame [0x00], .frame [0x40, 0x00, 0x00, 0x01], .frame [0x00, 0x08, 0x00, 0x02],
    .frame [0x80, 0x15, 0x00, 0x01, 0, 0, 0, 7, 0x00, 0x01, 0, 0, 0, 0],
    .frame [0x00, 0x16, 0x00, 0x01, 0, 0], .frame tunePayload]

/-- A client with a message listener, whose messages are bytes. -/
def listening : Parameters Bytes := { messageListener := true, decode := .ok }

/-- Such frames leave the thread running. -/
theorem escaped_iff_strayFrames :
    ∃ t, (machine listening).run { maxFrameSize := 0, heartbeat := 0 } strayFrames = some t ∧
      t.tuned = true ∧ t.loop ≠ .escaped := by
  have hrun : ((machine listening).run { maxFrameSize := 0, heartbeat := 0 } strayFrames).any
      (fun t => decide (t.tuned = true ∧ ((machine listening).record answeredTunes
        { maxFrameSize := 0, heartbeat := 0 } strayFrames).length = 1)) = true := by
    decide +kernel
  obtain ⟨t, ht, hone⟩ := (Option.any_eq_true ..).1 hrun
  obtain ⟨htuned, hone⟩ := of_decide_eq_true hone
  have hiff := escaped_iff listening strayFrames _ t ⟨.starting, 0, 0, rfl⟩ ht
  refine ⟨t, ht, htuned, fun hescaped => ?_⟩
  have := hiff.1.1 hescaped
  omega

/-- The server sends its tune frame twice: the second `set_value` throws, and the exception leaves
the frame thread. -/
theorem escaped_of_two_tunes :
    ∃ t, (machine listening).run { maxFrameSize := 0, heartbeat := 0 }
      [.frame tunePayload, .frame tunePayload] = some t ∧ t.loop = .escaped := by
  have hrun : ((machine listening).run { maxFrameSize := 0, heartbeat := 0 }
      [.frame tunePayload, .frame tunePayload]).any (fun t => decide (t.loop = .escaped)) = true := by
    decide +kernel
  obtain ⟨t, ht, hescaped⟩ := (Option.any_eq_true ..).1 hrun
  exact ⟨t, ht, of_decide_eq_true hescaped⟩

end Hareflow.Client.Frames
