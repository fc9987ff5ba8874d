import Hareflow.Client.Deliver
import Hareflow.Client.FrameThread

/-!
# Automatic credit

A subscription starts with a credit of ten: the broker may send ten deliver frames, and each takes
one of them. A consumer with automatic credits gives one back for each chunk, from its chunk
listener. The listener runs after the whole chunk has been deserialized, so a frame that is cut off,
or that holds a batch of sub-entries, is not given back. Ten such frames stop the consumer for good.

The machine has the broker, with the credit it may use, and the client, with the deliver frames that
it has received and not processed. The client processes frames while it is not stopping, and in
between does everything else that a client may do.
-/

namespace Hareflow.Consumer.Credit

open Foundations Wire Client
open Client.Frames (Action Parameters readHeader findHandler processFrame catchFrame finalState
  handleDeliver deserialize callChunkListener chunkContext deliverMessages send call)
open Connection.Reader (frameBuffer)

variable {μ : Type}

/-- `m_subscription_id`. -/
def subscriptionId : UInt8 := 0

/-- The credit that `subscribe` asks for. -/
def initialCredit : ℕ := 10

/-- The client parameters of a consumer with automatic credits. -/
def parameters (decode : Bytes → Except StreamException μ) : Parameters μ where
  chunkListener := some fun _ _ => [(subscriptionId, 1)]
  messageListener := true
  metadataListener := true
  decode

/-! ## The machine -/

/-- The version and the body of a deliver frame, as its handler gets them. -/
def deliverBody (payload : Bytes) : Option (UInt16 × BinaryBuffer) :=
  match readHeader (frameBuffer payload) with
  | .error _ => none
  | .ok ((key, version), buffer) =>
    match findHandler (key &&& 0x7FFF) version with
    | some (.deliver version) => some (version, buffer)
    | _ => none

theorem of_deliverBody {payload : Bytes} {version : UInt16} {buffer : BinaryBuffer}
    (h : deliverBody payload = some (version, buffer)) :
    ∃ key version', readHeader (frameBuffer payload) = .ok ((key, version'), buffer) ∧
      findHandler (key &&& 0x7FFF) version' = some (.deliver version) := by
  rw [deliverBody] at h
  cases hheader : readHeader (frameBuffer payload) with
  | error e => simp [hheader] at h
  | ok header =>
    obtain ⟨⟨key, version'⟩, rest⟩ := header
    simp only [hheader] at h
    cases hfind : findHandler (key &&& 0x7FFF) version' with
    | none => simp [hfind] at h
    | some handler =>
      cases handler <;> simp only [hfind, reduceCtorEq, Option.some.injEq, Prod.mk.injEq] at h
      obtain ⟨rfl, rfl⟩ := h
      exact ⟨key, version', rfl, hfind⟩

/-- The broker and the client of a consumer. -/
structure State (μ : Type) where
  client : Frames.State μ
  /-- The credit of the subscription at the broker. -/
  credit : ℕ := initialCredit
  /-- The credit commands on their way to the broker. -/
  granted : List (UInt8 × UInt16) := []
  /-- The deliver frames that the client has not processed. -/
  inbox : List Bytes := []

inductive Act
  /-- The broker sends a deliver frame. -/
  | deliver (payload : Bytes)
  /-- The client processes the next deliver frame. -/
  | process
  /-- The next credit command reaches the broker. -/
  | credit
  /-- Anything else that the client does. -/
  | other (a : Frames.Act)

/-- The action is not the processing of a deliver frame. -/
def isOther : Frames.Act → Bool
  | .frame payload => (deliverBody payload).isNone
  | _ => true

/-- The client has processed a deliver frame; what it has granted is on its way. -/
def State.processed (s : State μ) (client : Frames.State μ) (inbox : List Bytes) : State μ :=
  { s with client, inbox, granted := s.granted ++ client.credits.drop s.client.credits.length }

def step (p : Parameters μ) (s : State μ) : Act → Option (State μ)
  | .deliver payload =>
    if 0 < s.credit ∧ (deliverBody payload).isSome then
      some { s with credit := s.credit - 1, inbox := s.inbox ++ [payload] }
    else none
  | .process =>
    match s.inbox with
    | [] => none
    | payload :: inbox =>
      if s.client.status ≠ .stopping then
        (Frames.step p s.client (.frame payload)).map fun client => s.processed client inbox
      else none
  | .credit =>
    match s.granted with
    | [] => none
    | (id, credit) :: granted =>
      some { s with
        granted, credit := if id = subscriptionId then s.credit + credit.toNat else s.credit }
  | .other a =>
    if isOther a then (Frames.step p s.client a).map fun client => { s with client } else none

/-- A consumer right after `subscribe`, with any client that has granted no credit. -/
def machine (decode : Bytes → Except StreamException μ) : Machine (State μ) Act where
  Init s := ∃ client : Frames.State μ, client.credits = [] ∧ s = { client }
  step := step (parameters decode)

/-! ## One frame -/

/-- Whether a deliver frame is given back: it can be deserialized, and the credit command of seven
bytes and its length prefix is within the maximum frame size. -/
def credited (client : Frames.State μ) (payload : Bytes) : Bool :=
  match deliverBody payload with
  | none => false
  | some (version, buffer) =>
    (DeliverCommand.readBody version buffer).isOk && decide (FrameFits client.maxFrameSize 7)

/-- The chunk listener sends its credit command, if it fits. -/
theorem credits_callChunkListener (decode : Bytes → Except StreamException μ) (id : UInt8)
    (context : Frames.ChunkContext) (s : Frames.State μ) :
    (∃ t, callChunkListener (parameters decode) id context s = .ok () t ∧
        FrameFits s.maxFrameSize 7 ∧ t.credits = s.credits ++ [(subscriptionId, 1)]) ∨
      ∃ e t, callChunkListener (parameters decode) id context s = .error e t ∧
        ¬FrameFits s.maxFrameSize 7 ∧ t.credits = s.credits := by
  have hfits : (∃ buffer, sendFrame s.maxFrameSize
      (ClientFrame.creditCommand subscriptionId 1).toSerializable = .ok buffer) ↔
      FrameFits s.maxFrameSize 7 :=
    sendFrame_isOk_iff ⟨by simp, by simp, by simp⟩ s.maxFrameSize
  let called : Frames.State μ := { s with calls := s.calls ++ [.chunk id context] }
  have hcall : callChunkListener (parameters decode) id context s =
      (EStateM.bind (send (.creditCommand subscriptionId 1)) fun _ => pure ()) called := rfl
  cases hsend : sendFrame s.maxFrameSize
      (ClientFrame.creditCommand subscriptionId 1).toSerializable with
  | ok buffer =>
    refine .inl ⟨{ called with sent := s.sent ++ [.creditCommand subscriptionId 1] }, ?_,
      hfits.1 ⟨buffer, hsend⟩, by simp [Frames.State.credits]⟩
    rw [hcall, EStateM.bind, send, hsend]
    rfl
  | error e =>
    refine .inr ⟨.stream e, called, ?_, fun h => ?_, rfl⟩
    · rw [hcall, EStateM.bind, send, hsend]
    · obtain ⟨buffer, hbuffer⟩ := hfits.2 h
      rw [hsend] at hbuffer
      cases hbuffer

theorem credits_handleDeliver (decode : Bytes → Except StreamException μ) (version : UInt16)
    (buffer : BinaryBuffer) (s : Frames.State μ) :
    (finalState (handleDeliver (parameters decode) version buffer s)).credits =
      s.credits ++ if (DeliverCommand.readBody version buffer).isOk &&
        decide (FrameFits s.maxFrameSize 7) then [(subscriptionId, 1)] else [] := by
  rw [handleDeliver, if_neg (by simp [parameters])]
  show (finalState (EStateM.bind _ _ s)).credits = _
  rw [EStateM.bind, deserialize]
  cases DeliverCommand.readBody version buffer with
  | error e => simp [finalState, Except.isOk, Except.toBool]
  | ok command =>
    show (finalState (EStateM.bind _ _ s)).credits = _
    rw [EStateM.bind]
    rcases credits_callChunkListener decode command.1.subscriptionId (chunkContext command.1) s with
      ⟨t, hcall, hfits, hcredits⟩ | ⟨e, t, hcall, hfits, hcredits⟩
    · have hquiet := Frames.finalState_of_effect (Frames.quiet_deliverMessages (parameters decode)
        command.1.subscriptionId (chunkContext command.1) command.1.chunk.offset command.1.messages) t
      rw [hcall]
      show (finalState (deliverMessages (parameters decode) _ _ _ _ t)).credits = _
      rw [hquiet.2, hcredits]
      simp [Except.isOk, Except.toBool, hfits]
    · rw [hcall]
      simp [finalState, Except.isOk, Except.toBool, hfits, hcredits]

/-- Processing a deliver frame grants one credit or none. -/
theorem credits_of_deliver {decode : Bytes → Except StreamException μ} {s t : Frames.State μ}
    {payload : Bytes} (hdeliver : (deliverBody payload).isSome = true) (hstatus : s.status ≠ .stopping)
    (h : Frames.step (parameters decode) s (.frame payload) = some t) :
    t.credits = s.credits ++ if credited s payload then [(subscriptionId, 1)] else [] := by
  obtain ⟨-, h⟩ := Option.ite_none_right_eq_some.1 h
  obtain rfl := Option.some.inj h
  obtain ⟨⟨version, buffer⟩, hbody⟩ := Option.isSome_iff_exists.1 hdeliver
  obtain ⟨key, version', hheader, hfind⟩ := of_deliverBody hbody
  rw [Frames.credits_catchFrame, processFrame, credited, hbody, hheader]
  dsimp only
  rw [if_pos hstatus, Frames.finalState_then, Frames.dispatch, hfind]
  exact credits_handleDeliver decode version buffer s

/-- Nothing else grants credit. -/
theorem credits_of_other {p : Parameters μ} {s t : Frames.State μ} {a : Frames.Act}
    (hother : isOther a = true) (h : Frames.step p s a = some t) : t.credits = s.credits := by
  cases a with
  | frame payload =>
    obtain ⟨-, h⟩ := Option.ite_none_right_eq_some.1 h
    obtain rfl := Option.some.inj h
    rw [Frames.credits_catchFrame, processFrame]
    rw [isOther, deliverBody] at hother
    cases hheader : readHeader (frameBuffer payload) with
    | error e => rfl
    | ok header =>
      obtain ⟨⟨key, version⟩, buffer⟩ := header
      simp only [hheader] at hother
      dsimp only
      split
      · rw [Frames.finalState_then, Frames.dispatch]
        cases hfind : findHandler (key &&& 0x7FFF) version with
        | none => rfl
        | some handler =>
          refine Frames.finalState_of_effect (handler.sameCredits p buffer ?_) s
          rintro version' rfl
          simp [hfind] at hother
      · split
        · have hresponse := (Frames.Handler.response .generic).sameCredits p buffer (by simp)
          rw [Frames.finalState_then]
          exact Frames.finalState_of_effect hresponse s
        · rfl
  | readFails e =>
    obtain ⟨-, h⟩ := Option.ite_none_right_eq_some.1 h
    obtain rfl := Option.some.inj h
    rfl
  | setStatus status =>
    obtain rfl := Option.some.inj h
    rfl
  | request a =>
    obtain ⟨requests, -, rfl⟩ := Frames.step_request h
    rfl

/-! ## Runs -/

/-- For each deliver frame that is processed, whether it is given back. -/
def processedFrames (s : State μ) (a : Act) (_ : State μ) : List Bool :=
  match a, s.inbox with
  | .process, payload :: _ => [credited s.client payload]
  | _, _ => []

/-- The credit is conserved up to the frames that were not given back. -/
structure Inv (s : State μ) (frames : List Bool) : Prop where
  credits : s.client.credits = List.replicate (frames.count true) (subscriptionId, 1)
  granted : ∀ c ∈ s.granted, c = (subscriptionId, 1)
  inbox : ∀ payload ∈ s.inbox, (deliverBody payload).isSome = true
  conserved : s.credit + s.granted.length + s.inbox.length + frames.count false = initialCredit

namespace Inv

variable {decode : Bytes → Except StreamException μ} {s t : State μ} {frames : List Bool}

/-- A deliver frame is processed, and given back or not. -/
theorem process (h : Inv s frames) {payload : Bytes} {inbox : List Bytes}
    (hinbox : s.inbox = payload :: inbox) {client : Frames.State μ}
    (hcredits : client.credits =
      s.client.credits ++ if credited s.client payload then [(subscriptionId, 1)] else []) :
    Inv (s.processed client inbox) (frames ++ [credited s.client payload]) := by
  have hconserved := h.conserved
  have hrest : ∀ payload ∈ inbox, (deliverBody payload).isSome = true := fun payload' hmem =>
    h.inbox payload' (hinbox ▸ List.mem_cons_of_mem _ hmem)
  have hdrop : client.credits.drop s.client.credits.length =
      if credited s.client payload then [(subscriptionId, 1)] else [] := by
    rw [hcredits, List.drop_left]
  rw [hinbox, List.length_cons] at hconserved
  cases hcredited : credited s.client payload with
  | true =>
    rw [hcredited, if_pos rfl] at hcredits hdrop
    refine ⟨?_, ?_, hrest, ?_⟩
    · rw [State.processed, hcredits, h.credits, List.count_append, List.count_singleton_self,
        List.replicate_add]
      rfl
    · intro c hc
      simp only [State.processed, hdrop, List.mem_append, List.mem_singleton] at hc
      exact hc.elim (h.granted c) id
    · simp only [State.processed, hdrop, List.length_append, List.count_append]
      simp
      omega
  | false =>
    rw [hcredited, if_neg Bool.false_ne_true] at hcredits hdrop
    refine ⟨?_, ?_, hrest, ?_⟩
    · rw [State.processed, hcredits, h.credits]
      simp
    · intro c hc
      simp only [State.processed, hdrop, List.append_nil] at hc
      exact h.granted c hc
    · simp only [State.processed, hdrop, List.append_nil, List.count_append]
      simp
      omega

theorem step {a : Act} (h : Inv s frames) (hstep : Credit.step (parameters decode) s a = some t) :
    Inv t (frames ++ processedFrames s a t) := by
  cases a with
  | deliver payload =>
    obtain ⟨⟨hcredit, hdeliver⟩, hstep⟩ := Option.ite_none_right_eq_some.1 hstep
    obtain rfl := Option.some.inj hstep
    have hconserved := h.conserved
    simp only [processedFrames, List.append_nil]
    refine ⟨h.credits, h.granted, ?_, ?_⟩
    · intro payload' hmem
      rcases List.mem_append.1 hmem with hmem | hmem
      · exact h.inbox payload' hmem
      · obtain rfl := List.mem_singleton.1 hmem
        exact hdeliver
    · simp only [List.length_append, List.length_singleton]
      omega
  | process =>
    simp only [Credit.step] at hstep
    split at hstep
    · cases hstep
    · rename_i payload inbox hinbox
      obtain ⟨hstatus, hstep⟩ := Option.ite_none_right_eq_some.1 hstep
      obtain ⟨client, hclient, rfl⟩ := Option.map_eq_some_iff.1 hstep
      have hdeliver := h.inbox payload (by simp [hinbox])
      simp only [processedFrames, hinbox]
      exact h.process hinbox (credits_of_deliver hdeliver hstatus hclient)
  | credit =>
    simp only [Credit.step] at hstep
    split at hstep
    · cases hstep
    · rename_i id credit granted hgranted
      obtain rfl := Option.some.inj hstep
      obtain ⟨rfl, rfl⟩ := Prod.mk.inj (h.granted (id, credit) (by simp [hgranted]))
      have hconserved := h.conserved
      rw [hgranted, List.length_cons] at hconserved
      simp only [processedFrames, List.append_nil]
      refine ⟨h.credits, fun c hc => h.granted c (hgranted ▸ List.mem_cons_of_mem _ hc), h.inbox, ?_⟩
      simp
      omega
  | other a =>
    obtain ⟨hother, hstep⟩ := Option.ite_none_right_eq_some.1 hstep
    obtain ⟨client, hclient, rfl⟩ := Option.map_eq_some_iff.1 hstep
    simp only [processedFrames, List.append_nil]
    exact ⟨(credits_of_other hother hclient).trans h.credits, h.granted, h.inbox, h.conserved⟩

end Inv

theorem inv_init {decode : Bytes → Except StreamException μ} {s : State μ}
    (h : (machine decode).Init s) : Inv s [] := by
  obtain ⟨client, hclient, rfl⟩ := h
  exact ⟨by simpa using hclient, by simp, by simp, by simp [initialCredit]⟩

/-- **Automatic credit leaks with every frame that cannot be deserialized.** After every run, with
`frames` the deliver frames that were processed, one credit command of 1 has been sent for each of
them that was given back, and the credit at the broker and on its way, the frames that were not
processed and those that were not given back are ten together. So there is one command for each
frame, and the credit and the frames are ten, exactly if every frame was given back: it could be
deserialized, and the credit command fitted into a frame. -/
theorem conserved_iff (decode : Bytes → Except StreamException μ) (acts : List Act) (s t : State μ)
    (hinit : (machine decode).Init s) (h : (machine decode).run s acts = some t) :
    let frames := (machine decode).record processedFrames s acts
    t.client.credits = List.replicate (frames.count true) (subscriptionId, 1) ∧
    t.credit + t.granted.length + t.inbox.length + frames.count false = 10 ∧
    (t.client.credits = List.replicate frames.length (subscriptionId, 1) ∧
      t.credit + t.granted.length + t.inbox.length = 10 ↔ ∀ b ∈ frames, b = true) := by
  intro frames
  have hinv := Machine.run_record (M := machine decode) (P := Inv) Inv.step (inv_init hinit) h
  have hconserved : t.credit + t.granted.length + t.inbox.length + frames.count false = 10 :=
    hinv.conserved
  have hcredits : t.client.credits = List.replicate (frames.count true) (subscriptionId, 1) :=
    hinv.credits
  refine ⟨hcredits, hconserved, ?_⟩
  constructor
  · rintro ⟨-, hten⟩ b hb
    have hnone : frames.count false = 0 := by omega
    rw [List.count_eq_zero] at hnone
    cases b with
    | true => rfl
    | false => exact absurd hb hnone
  · intro hall
    have hnone : frames.count false = 0 := List.count_eq_zero.2 fun hmem => by
      simpa using hall false hmem
    have hevery : frames.count true = frames.length :=
      List.count_eq_length.2 fun b hb => (hall b hb).symm
    exact ⟨hcredits.trans (by rw [hevery]), by omega⟩

/-- A deliver frame of version 1 with a command as its body. -/
def deliverPayload (command : DeliverCommand) : Bytes := [0x00, 0x08, 0x00, 0x01] ++ command.encodeBody

/-- Three frames are delivered and processed, and a credit command arrives; one of the messages
cannot be decoded. -/
def threeChunks : List Act :=
  [.deliver (deliverPayload (Frames.chunkOf [7])), .deliver (deliverPayload (Frames.chunkOf [0, 7])),
    .process, .deliver (deliverPayload (Frames.chunkOf [8])), .credit, .process, .process]

/-- A message that cannot be decoded costs the consumer messages, and no credit. -/
theorem conserved_iff_undecodable :
    ∃ t, (machine Frames.decodingNonzero.decode).run
      { client := { maxFrameSize := 0, heartbeat := 0 } } threeChunks = some t ∧
      t.client.credits = List.replicate 3 (subscriptionId, 1) ∧
      t.credit + t.granted.length + t.inbox.length = 10 := by
  have hrun : ((machine Frames.decodingNonzero.decode).run
      { client := { maxFrameSize := 0, heartbeat := 0 } } threeChunks).isSome = true := by
    decide +kernel
  have hframes : (machine Frames.decodingNonzero.decode).record processedFrames
      { client := { maxFrameSize := 0, heartbeat := 0 } } threeChunks = [true, true, true] := by
    decide +kernel
  obtain ⟨t, ht⟩ := Option.isSome_iff_exists.1 hrun
  have hiff := conserved_iff Frames.decodingNonzero.decode threeChunks _ t ⟨_, rfl, rfl⟩ ht
  have hconserved := hiff.2.2.2 (by simp [hframes])
  rw [hframes] at hconserved
  exact ⟨t, ht, hconserved⟩

/-- A deliver frame whose only entry is a batch of sub-entries. -/
def subEntryPayload : Bytes :=
  [0x00, 0x08, 0x00, 0x01, 0] ++
    ({ (Frames.chunkOf [0]).chunk with dataLen := 1 : Chunk }.encode ++ [0x80])

/-- Ten frames with batches of sub-entries use up the credit: the client has processed all of them,
no credit is on its way, and the broker may send nothing more. -/
theorem exhausted_by_subEntries :
    ∃ t, (machine (Except.ok : Bytes → Except StreamException Bytes)).run
      { client := { maxFrameSize := 0, heartbeat := 0 } }
      (List.replicate 10 (Act.deliver subEntryPayload) ++ List.replicate 10 Act.process) = some t ∧
      t.client.credits = [] ∧ t.credit = 0 ∧ t.granted = [] ∧ t.inbox = [] := by
  have hrun : ((machine (Except.ok : Bytes → Except StreamException Bytes)).run
      { client := { maxFrameSize := 0, heartbeat := 0 } }
      (List.replicate 10 (Act.deliver subEntryPayload) ++ List.replicate 10 Act.process)).any
      (fun t => decide (t.client.credits = [] ∧ t.credit = 0 ∧ t.granted = [] ∧ t.inbox = [])) =
      true := by
    decide +kernel
  obtain ⟨t, ht, hresult⟩ := (Option.any_eq_true ..).1 hrun
  exact ⟨t, ht, of_decide_eq_true hresult⟩

end Hareflow.Consumer.Credit
