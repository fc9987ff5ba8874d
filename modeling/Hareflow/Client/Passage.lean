import Mathlib.Data.List.Infix
import Hareflow.Client.Deliver
import Hareflow.Client.Inbound
import Hareflow.Client.Outbound

/-!
# From a producer to a consumer

A message is encoded, batched into a publish command by `publish_encoded`, serialized, written to the
connection of the producer, read and logged by the broker, delivered in a chunk over the connection of
a consumer, read, and decoded for the message listener. The other modules follow each of these stages
through all interleavings of its threads; here they are put together.

* `Upload` is what happens up to the broker, with the log that comes of it. `Upload.log_isPrefix` says
  that the log has the messages in the order of the calls of `publish_encoded`.
* `Download` is what happens from the log on. The broker cuts the log into chunks as it likes (`Cuts`),
  and may send other frames in between.
* `Download.received_eq` says that the listener is called for consecutive entries of the log.
-/

namespace Hareflow.Client.Passage

open Foundations Wire Connection
open PublishCommand (Message)
open Frames (ListenerCall Parameters)

variable {μ : Type}

/-! ## Up to the broker -/

/-- A call of `publish_encoded`. -/
structure Call where
  maxFrameSize : UInt32
  messages : List Message

def Call.outcome (c : Call) (publisherId : UInt8) : PublishOutcome :=
  publishEncoded c.maxFrameSize publisherId c.messages

/-- The publish commands of a publisher. -/
def commands (publisherId : UInt8) (fs : List ClientFrame) : List PublishCommand :=
  fs.filterMap fun
    | .publishCommand command => if command.publisherId = publisherId then some command else none
    | _ => none

/-- The messages are encoded as these bodies. -/
def Encoded (encode : μ → Except StreamException Bytes) (ms : List μ) (bodies : List Bytes) : Prop :=
  ms.map encode = bodies.map .ok

/-- A producer whose calls of `publish_encoded` have returned, the connection that it shares with
others, and a broker that reads what has arrived. -/
structure Upload (encode : μ → Except StreamException Bytes) (ms : List μ) where
  publisherId : UInt8
  calls : List Call
  returned : ∀ c ∈ calls, (c.outcome publisherId).thrown = none
  encoded : Encoded encode ms ((calls.flatMap Call.messages).map Message.body)
  acts : List Outbound.Act
  connection : Outbound.State
  run : Outbound.machine.run {} acts = some connection
  wellFormed : ∀ f ∈ connection.sent, f.WellFormed
  /-- The calls hand their frames to `send_frame` one after another; other frames may come in between. -/
  handed : commands publisherId connection.sent =
    calls.flatMap fun c => (c.outcome publisherId).frames.map Frame.command
  /-- The number of bytes that have arrived. -/
  arrived : ℕ
  fails : Bool
  reads : List Reader.Act
  reader : Reader.State
  reading : (Reader.machine (connection.bytes.take arrived) fails).run
    (Reader.start (connection.bytes.take arrived)) reads = some reader

namespace Upload

variable {encode : μ → Except StreamException Bytes} {ms : List μ} (u : Upload encode ms)

/-- The bodies that the calls were given. -/
def bodies : List Bytes := (u.calls.flatMap Call.messages).map Message.body

/-- The bodies of the messages in the publish commands that the broker has read. -/
def log : List Bytes :=
  let frames := u.reader.buffers.filterMap fun b => ((ClientFrame.read b).map Prod.fst).toOption
  ((commands u.publisherId frames).flatMap PublishCommand.messages).map Message.body

/-- All bytes have arrived, and the broker has seen the end of the stream. -/
structure Complete : Prop where
  posted : u.connection.outbox.posted = []
  outbox : u.connection.outbox.outbox = []
  arrived : u.connection.bytes.length ≤ u.arrived
  failed : u.reader.connectionFailed = true

theorem log_eq : u.log = ((commands u.publisherId
    (u.connection.sent.take u.reader.buffers.length)).flatMap PublishCommand.messages).map
      Message.body := by
  have hread := congrArg (List.filterMap Except.toOption)
    (Outbound.read_buffers u.run u.wellFormed u.reading)
  rw [List.filterMap_map, List.filterMap_map] at hread
  have hframes : u.reader.buffers.filterMap
      (fun b => ((ClientFrame.read b).map Prod.fst).toOption) =
        u.connection.sent.take u.reader.buffers.length := by
    refine hread.trans ?_
    exact List.filterMap_some
  rw [log]
  exact congrArg (fun fs => ((commands u.publisherId fs).flatMap PublishCommand.messages).map
    Message.body) hframes

/-- The messages of the frames are those that the calls were given. -/
theorem handed_bodies : ((commands u.publisherId u.connection.sent).flatMap
    PublishCommand.messages).map Message.body = u.bodies := by
  rw [u.handed, List.flatMap_assoc, bodies]
  congr 1
  refine List.flatMap_congr fun c hc => ?_
  rw [List.flatMap_map]
  exact ((sends_publishEncoded _ _ _).carries (u.returned c hc)).2

theorem log_isPrefix : u.log <+: u.bodies := by
  obtain ⟨rest, hrest⟩ : commands u.publisherId
      (u.connection.sent.take u.reader.buffers.length) <+:
        commands u.publisherId u.connection.sent := (List.take_prefix _ _).filterMap _
  rw [u.log_eq, ← u.handed_bodies, ← hrest, List.flatMap_append, List.map_append]
  exact List.prefix_append _ _

theorem log_eq_bodies (h : u.Complete) : u.log = u.bodies := by
  rw [u.log_eq, Outbound.length_buffers u.run u.reading h.posted h.outbox h.arrived h.failed,
    List.take_length, u.handed_bodies]

end Upload

/-! ## From the broker on -/

/-- The chunks for a subscription. -/
def chunks (subscriptionId : UInt8) (fs : List ServerFrame) : List DeliverCommand :=
  fs.filterMap fun
    | .deliver _ command => if command.subscriptionId = subscriptionId then some command else none
    | _ => none

/-- The number of messages in chunks. -/
def size (cs : List DeliverCommand) : ℕ := (cs.flatMap DeliverCommand.messages).length

/-- The chunks are cut from the log, one after the other, from an offset on. -/
def Cuts (log : List Bytes) : ℕ → List DeliverCommand → Prop
  | _, [] => True
  | offset, c :: cs =>
    c.chunk.offset = UInt64.ofNat offset ∧ c.messages <+: log.drop offset ∧
      Cuts log (offset + c.messages.length) cs

/-- What the message listener was called with, for a subscription. -/
def received (subscriptionId : UInt8) (calls : List (ListenerCall μ)) : List (UInt64 × μ) :=
  calls.filterMap fun
    | .message id _ offset message => if id = subscriptionId then some (offset, message) else none
    | _ => none

/-- Messages with consecutive offsets. -/
def numbered (first : ℕ) (ms : List μ) : List (UInt64 × μ) :=
  (ms.zipIdx first).map fun e => (UInt64.ofNat e.2, e.1)

/-- A step of a client that has not been stopped, and whose limit lets a credit command of seven bytes
pass. -/
def Going (s : Inbound.State μ) (_ : Inbound.Act) : Prop :=
  s.client.status ≠ .stopping ∧ FrameFits s.client.maxFrameSize 7

instance (s : Inbound.State μ) (a : Inbound.Act) : Decidable (Going s a) :=
  inferInstanceAs (Decidable (_ ∧ _))

/-- A broker that delivers a log in chunks, among other frames, and a client that reads what has
arrived. -/
structure Download (p : Parameters μ) (log : List Bytes) where
  subscriptionId : UInt8
  /-- The offset of the subscription. -/
  first : ℕ
  frames : List ServerFrame
  wellFormed : ∀ f ∈ frames, f.WellFormed ∧ f.encode.length ≤ Reader.maxPayload
  cuts : Cuts log first (chunks subscriptionId frames)
  /-- The number of bytes that have arrived. -/
  arrived : ℕ
  fails : Bool
  client : Frames.State μ
  acts : List Inbound.Act
  state : Inbound.State μ
  run : (Inbound.machine p ((Reader.wire (frames.map ServerFrame.encode)).take arrived) fails client).run
    (Inbound.start ((Reader.wire (frames.map ServerFrame.encode)).take arrived) client) acts = some state
  going : (Inbound.machine p ((Reader.wire (frames.map ServerFrame.encode)).take arrived) fails
    client).Along Going
      (Inbound.start ((Reader.wire (frames.map ServerFrame.encode)).take arrived) client) acts

/-! ### One frame -/

theorem received_append (subscriptionId : UInt8) (calls calls' : List (ListenerCall μ)) :
    received subscriptionId (calls ++ calls') =
      received subscriptionId calls ++ received subscriptionId calls' :=
  List.filterMap_append

/-- What a frame has for the subscription. -/
def contents (p : Parameters μ) (subscriptionId : UInt8) : ServerFrame → List (UInt64 × μ)
  | .deliver _ c =>
    let entry := Frames.entryCall p c.subscriptionId (Frames.chunkContext c) c.chunk.offset
    received subscriptionId ((c.messages.zipIdx.takeWhile fun e => (entry e).isSome).filterMap entry)
  | _ => []

theorem send_credit {s : Frames.State μ} (hfits : FrameFits s.maxFrameSize 7) (id : UInt8)
    (credit : UInt16) : Frames.send (.creditCommand id credit) s =
      .ok () { s with sent := s.sent ++ [.creditCommand id credit] } := by
  obtain ⟨buffer, hbuffer⟩ := (sendFrame_isOk_iff (f := .creditCommand id credit)
    ⟨by simp, by simp, by simp⟩ s.maxFrameSize).2 hfits
  rw [Frames.send, hbuffer]

theorem forM_send_credit {s : Frames.State μ} (hfits : FrameFits s.maxFrameSize 7)
    (credits : List (UInt8 × UInt16)) :
    ∃ u, credits.forM (fun c => Frames.send (.creditCommand c.1 c.2)) s = .ok () u ∧
      u.calls = s.calls := by
  induction credits generalizing s with
  | nil => exact ⟨s, rfl, rfl⟩
  | cons c credits ih =>
    obtain ⟨u, hu, hcalls⟩ := ih (s := { s with sent := s.sent ++ [.creditCommand c.1 c.2] }) hfits
    refine ⟨u, ?_, hcalls⟩
    show EStateM.bind _ _ s = _
    rw [EStateM.bind, send_credit hfits]
    exact hu

/-- The chunk listener returns if the limit lets its credit commands pass. -/
theorem callChunkListener_eq_ok (p : Parameters μ) (subscriptionId id : UInt8)
    (context : Frames.ChunkContext) {s : Frames.State μ} (hfits : FrameFits s.maxFrameSize 7) :
    ∃ u, Frames.callChunkListener p id context s = .ok () u ∧
      received subscriptionId u.calls = received subscriptionId s.calls := by
  rw [Frames.callChunkListener]
  cases p.chunkListener with
  | none => exact ⟨s, rfl, rfl⟩
  | some listener =>
    obtain ⟨u, hu, hcalls⟩ := forM_send_credit (μ := μ)
      (s := { s with calls := s.calls ++ [.chunk id context] }) hfits (listener id context)
    refine ⟨u, hu, ?_⟩
    rw [hcalls, received_append]
    exact List.append_nil _

/-- The end of a `try` block leaves the calls alone. -/
theorem calls_endTry (r : EStateM.Result Frames.FrameException (Frames.State μ) Unit) :
    (Frames.endTry r).calls = (Frames.finalState r).calls := by
  cases r with
  | ok _ s => rfl
  | error e s => cases e <;> rfl

/-- The calls of the other listeners do not count. -/
theorem received_listen (subscriptionId : UInt8) (s : Frames.State μ) (listener : Bool)
    {calls : List (ListenerCall μ)} (h : ∀ id context offset m, .message id context offset m ∉ calls) :
    received subscriptionId (s.listen listener calls).calls = received subscriptionId s.calls := by
  have hnone : received subscriptionId calls = [] := by
    refine List.filterMap_eq_nil_iff.2 fun c hc => ?_
    cases c with
    | message id context offset m => exact absurd hc (h id context offset m)
    | _ => rfl
  rw [Frames.State.listen]
  split
  · rw [received_append, hnone, List.append_nil]
  · rfl

/-- What the listener gets of a chunk: the entries before the first that cannot be decoded. -/
theorem received_deliver {p : Parameters μ} (hlistener : p.messageListener = true)
    (subscriptionId : UInt8) {s : Frames.State μ} (hfits : FrameFits s.maxFrameSize 7)
    (version : UInt16) (c : DeliverCommand) :
    received subscriptionId (s.deliver p c).calls =
      received subscriptionId s.calls ++ contents p subscriptionId (.deliver version c) := by
  obtain ⟨u, hu, hcalls⟩ := callChunkListener_eq_ok p subscriptionId c.subscriptionId
    (Frames.chunkContext c) hfits
  have hzero : c.chunk.offset + UInt64.ofNat 0 = c.chunk.offset := UInt64.add_zero _
  have hmessages := Frames.calls_deliverMessages p c.subscriptionId (Frames.chunkContext c)
    c.chunk.offset c.messages 0 u
  rw [hzero] at hmessages
  have hrun : s.deliver p c = Frames.endTry (Frames.deliverMessages p c.subscriptionId
      (Frames.chunkContext c) c.chunk.offset c.messages u) := by
    rw [Frames.State.deliver, if_neg (by simp [hlistener])]
    show Frames.endTry (EStateM.bind _ _ s) = _
    rw [EStateM.bind, hu]
    simp [hlistener]
  rw [hrun, calls_endTry, hmessages, received_append, hcalls]
  rfl

/-- What the listener gets of a frame. -/
theorem received_handle {p : Parameters μ} (hlistener : p.messageListener = true)
    (subscriptionId : UInt8) {s : Frames.State μ} (hstatus : s.status ≠ .stopping)
    (hfits : FrameFits s.maxFrameSize 7) (f : ServerFrame) :
    received subscriptionId (Frames.handle p s f).calls =
      received subscriptionId s.calls ++ contents p subscriptionId f := by
  rw [Frames.handle, if_neg hstatus]
  cases f with
  | deliver version c => exact received_deliver hlistener subscriptionId hfits version c
  | publishConfirm command | publishError command | creditError command | metadataUpdate command =>
    exact (received_listen _ _ _ (by simp)).trans (List.append_nil _).symm
  | tune command =>
    have hanswer : (s.answerTune command).calls = s.calls := by
      simp only [Frames.State.answerTune, Frames.State.setIdleHandlers]
      split <;> rfl
    refine Eq.trans ?_ (List.append_nil _).symm
    rw [Frames.State.take, Frames.State.tune]
    split
    · split <;> exact congrArg (received subscriptionId) hanswer
    · rfl
  | close request =>
    refine Eq.trans ?_ (List.append_nil _).symm
    rw [Frames.State.take, Frames.State.close]
    split <;> rfl
  | heartbeat => exact (List.append_nil _).symm
  | response key id body =>
    refine Eq.trans ?_ (List.append_nil _).symm
    rw [Frames.State.take]
    split <;> rfl

/-! ### Chunks of a log -/

theorem numbered_append (first : ℕ) (ms ms' : List μ) :
    numbered first (ms ++ ms') = numbered first ms ++ numbered (first + ms.length) ms' := by
  rw [numbered, List.zipIdx_append, List.map_append]
  rfl

namespace Encoded

variable {encode : μ → Except StreamException Bytes} {ms : List μ} {bodies : List Bytes}

theorem drop (h : Encoded encode ms bodies) (n : ℕ) :
    Encoded encode (ms.drop n) (bodies.drop n) := by
  rw [Encoded, List.map_drop, List.map_drop, h]

theorem take (h : Encoded encode ms bodies) (n : ℕ) :
    Encoded encode (ms.take n) (bodies.take n) := by
  rw [Encoded, List.map_take, List.map_take, h]

theorem length_eq (h : Encoded encode ms bodies) : ms.length = bodies.length := by
  have hlen := congrArg List.length h
  simpa using hlen

/-- The entries of a chunk are decoded to the messages, with their offsets. -/
theorem received_entries {p : Parameters μ} (hcodec : ∀ m b, encode m = .ok b → p.decode b = .ok m)
    (h : Encoded encode ms bodies) (subscriptionId : UInt8) (context : Frames.ChunkContext)
    (offset k : ℕ) :
    let entry := Frames.entryCall p subscriptionId context (UInt64.ofNat offset)
    received subscriptionId (((bodies.zipIdx k).takeWhile fun e => (entry e).isSome).filterMap entry) =
      numbered (offset + k) ms := by
  intro entry
  induction bodies generalizing ms k with
  | nil =>
    obtain rfl : ms = [] := by simpa [Encoded] using h
    rfl
  | cons b bodies ih =>
    cases ms with
    | nil => simp [Encoded] at h
    | cons m ms =>
      obtain ⟨hm, hms⟩ := List.cons.inj h
      have hentry : entry (b, k) =
          some (.message subscriptionId context (UInt64.ofNat (offset + k)) m) := by
        simp only [entry, Frames.entryCall, hcodec m b hm, UInt64.ofNat_add]
      rw [List.zipIdx_cons, List.takeWhile_cons_of_pos (by rw [hentry]; rfl),
        List.filterMap_cons_some hentry]
      have hcons : ∀ calls, received subscriptionId
          (.message subscriptionId context (UInt64.ofNat (offset + k)) m :: calls) =
            (UInt64.ofNat (offset + k), m) :: received subscriptionId calls := fun calls => by
        simp [received]
      rw [hcons, ih hms (k + 1)]
      rfl

end Encoded

/-- A chunk for another subscription. -/
theorem contents_of_ne (p : Parameters μ) {subscriptionId : UInt8} {c : DeliverCommand}
    (h : c.subscriptionId ≠ subscriptionId) (version : UInt16) :
    contents p subscriptionId (.deliver version c) = [] := by
  refine List.filterMap_eq_nil_iff.2 fun call hcall => ?_
  obtain ⟨e, -, he⟩ := List.mem_filterMap.1 hcall
  rw [Frames.entryCall] at he
  split at he
  · cases he
  · obtain rfl := Option.some.inj he
    simp [h]

theorem cuts_append {log : List Bytes} {first : ℕ} {cs cs' : List DeliverCommand}
    (h : Cuts log first (cs ++ cs')) : Cuts log first cs := by
  induction cs generalizing first with
  | nil => trivial
  | cons c cs ih => exact ⟨h.1, h.2.1, ih h.2.2⟩

/-- **Chunks that are cut from the log are decoded to the messages that are in the log.** -/
theorem flatMap_contents {encode : μ → Except StreamException Bytes} {p : Parameters μ}
    (hcodec : ∀ m b, encode m = .ok b → p.decode b = .ok m) {ms : List μ} {bodies log : List Bytes}
    (hencoded : Encoded encode ms bodies) (hlog : log <+: bodies) (subscriptionId : UInt8)
    {fs : List ServerFrame} {first : ℕ} (h : Cuts log first (chunks subscriptionId fs)) :
    fs.flatMap (contents p subscriptionId) =
      numbered first ((ms.drop first).take (size (chunks subscriptionId fs))) := by
  induction fs generalizing first with
  | nil => simp [chunks, size, numbered]
  | cons f fs ih =>
    have hskip : contents p subscriptionId f = [] →
        chunks subscriptionId (f :: fs) = chunks subscriptionId fs →
          (f :: fs).flatMap (contents p subscriptionId) =
            numbered first ((ms.drop first).take (size (chunks subscriptionId (f :: fs)))) := by
      intro hcontents hchunks
      rw [hchunks] at h ⊢
      rw [List.flatMap_cons, hcontents, List.nil_append, ih h]
    cases f with
    | deliver version c =>
      by_cases hid : c.subscriptionId = subscriptionId
      · have hchunks : chunks subscriptionId (.deliver version c :: fs) =
            c :: chunks subscriptionId fs := List.filterMap_cons_some (if_pos hid)
        rw [hchunks] at h ⊢
        obtain ⟨hoffset, hpre, hrest⟩ := h
        have hmessages := List.prefix_iff_eq_take.1 (hpre.trans (hlog.drop first))
        have hchunk := (hencoded.drop first).take c.messages.length
        rw [← hmessages] at hchunk
        have hcontents : contents p subscriptionId (.deliver version c) =
            numbered first ((ms.drop first).take c.messages.length) := by
          have hentries := hchunk.received_entries hcodec subscriptionId (Frames.chunkContext c) first 0
          rw [← hoffset] at hentries
          rw [contents, hid]
          exact hentries
        have hsize : size (c :: chunks subscriptionId fs) =
            c.messages.length + size (chunks subscriptionId fs) := by simp [size]
        rw [List.flatMap_cons, hcontents, ih hrest, hsize, List.take_add, numbered_append,
          hchunk.length_eq, List.drop_drop]
      · exact hskip (contents_of_ne p hid version) (List.filterMap_cons_none (if_neg hid))
    | _ => exact hskip rfl rfl

/-! ### Runs -/

/-- The parameters, and what has been received so far. -/
structure Received (p : Parameters μ) (subscriptionId : UInt8) (fs : List ServerFrame) (k : ℕ)
    (client : Frames.State μ) (s : Inbound.State μ) : Prop where
  refines : ∃ t, Inbound.Refines fs k s t
  eq : received subscriptionId s.client.calls = received subscriptionId client.calls ++
    ((Inbound.arrived fs k).take s.taken).flatMap (contents p subscriptionId)

/-- The other threads do not call the listeners. -/
theorem calls_others {p : Parameters μ} {client client' : Frames.State μ} {a : Frames.Act}
    (h : Inbound.others p client a = some client') : client'.calls = client.calls := by
  cases a with
  | frame | readFails => cases h
  | setStatus status =>
    obtain rfl := Option.some.inj h
    rfl
  | request a =>
    obtain ⟨requests, -, rfl⟩ := Frames.step_request h
    rfl

section

variable {p : Parameters μ} (hlistener : p.messageListener = true) {subscriptionId : UInt8}
  {fs : List ServerFrame} (hfs : ∀ f ∈ fs, f.WellFormed ∧ f.encode.length ≤ Reader.maxPayload)
  {k : ℕ} {client : Frames.State μ} {fails : Bool} {s s' : Inbound.State μ} {a : Inbound.Act}

include hlistener hfs

theorem Received.step (h : Received p subscriptionId fs k client s) (hgoing : Going s a)
    (hstep : Inbound.step p fails s a = some s') : Received p subscriptionId fs k client s' := by
  obtain ⟨t, hrefines⟩ := h.refines
  have hanswer : ∃ t', (Inbound.Feed.machine p [] client).run t (Inbound.answer s a s') = some t' ∧
      Inbound.Refines fs k s' t' := hrefines.step hfs hstep
  obtain ⟨t', hrun, hrefines'⟩ := hanswer
  refine ⟨⟨t', hrefines'⟩, ?_⟩
  cases a with
  | read =>
    obtain ⟨-, hstep⟩ := Option.ite_none_right_eq_some.1 hstep
    obtain ⟨reader, -, rfl⟩ := Option.map_eq_some_iff.1 hstep
    exact h.eq
  | strand a =>
    have hmap : (Reader.step fails s.reader a).map (fun reader => { s with reader }) = some s' := by
      cases a <;> first | exact hstep | cases hstep
    obtain ⟨reader, -, rfl⟩ := Option.map_eq_some_iff.1 hmap
    exact h.eq
  | get =>
    obtain ⟨result, hresult, rfl⟩ := Option.map_eq_some_iff.1 hstep
    cases result with
    | error e =>
      have hcalls : (s.got p (.error e)).client.calls = s.client.calls := rfl
      rw [hcalls]
      exact h.eq
    | ok b =>
      simp only [Inbound.answer, hresult] at hrun
      obtain ⟨u, hu, hrun⟩ := Machine.run_cons.1 hrun
      obtain rfl : u = t' := Option.some.inj hrun
      have hframe : Inbound.Feed.step p t .frame = some u := hu
      simp only [Inbound.Feed.step] at hframe
      split at hframe
      · cases hframe
      · rename_i f queue hqueue
        obtain ⟨-, hframe⟩ := Option.ite_none_right_eq_some.1 hframe
        obtain rfl := Option.some.inj hframe
        have hclient : Frames.handle p t.client f = (s.got p (.ok b)).client := hrefines'.client
        have hnext : (Inbound.arrived fs k)[s.taken]? = some f := by
          rw [← List.head?_drop, ← hrefines.queue, hqueue]
          rfl
        have htaken : (s.got p (.ok b)).taken = s.taken + 1 := rfl
        rw [← hclient, hrefines.client, received_handle hlistener _ hgoing.1 hgoing.2, h.eq, htaken,
          List.take_add_one, hnext]
        simp
  | other a =>
    obtain ⟨client', hclient, rfl⟩ := Option.map_eq_some_iff.1 hstep
    rw [calls_others hclient]
    exact h.eq

end

namespace Download

variable {p : Parameters μ} {log : List Bytes} (d : Download p log)

/-- What the message listener was called with. -/
def received : List (UInt64 × μ) := Passage.received d.subscriptionId d.state.client.calls

/-- The frames that the frame thread has handled. -/
def handled : List ServerFrame := (Inbound.arrived d.frames d.arrived).take d.state.taken

theorem handled_isPrefix : d.handled <+: d.frames :=
  (List.take_prefix _ _).trans (List.take_prefix _ _)

/-- The listener is called for the messages of the frames that were handled. -/
theorem received_eq_contents (hlistener : p.messageListener = true)
    (hfresh : Passage.received d.subscriptionId d.client.calls = []) :
    d.received = d.handled.flatMap (contents p d.subscriptionId) := by
  have hstart : Received p d.subscriptionId d.frames d.arrived d.client
      (Inbound.start ((Reader.wire (d.frames.map ServerFrame.encode)).take d.arrived) d.client) :=
    ⟨⟨_, Inbound.refines_start d.frames d.arrived d.client⟩, (List.append_nil _).symm⟩
  have hend := Machine.run_invariant (P := Received p d.subscriptionId d.frames d.arrived d.client)
    (fun hs hok hstep => hs.step hlistener d.wellFormed hok hstep) hstart d.going d.run
  rw [received, hend.eq, hfresh]
  rfl

/-- The listener is called for consecutive messages, from the offset of the subscription on. -/
theorem received_eq {encode : μ → Except StreamException Bytes} (hlistener : p.messageListener = true)
    (hcodec : ∀ m b, encode m = .ok b → p.decode b = .ok m)
    (hfresh : Passage.received d.subscriptionId d.client.calls = []) {ms : List μ}
    {bodies : List Bytes} (hencoded : Encoded encode ms bodies) (hlog : log <+: bodies) :
    d.received = numbered d.first
      ((ms.drop d.first).take (size (chunks d.subscriptionId d.handled))) := by
  obtain ⟨rest, hrest⟩ := d.handled_isPrefix
  have hcuts := d.cuts
  rw [← hrest, chunks, List.filterMap_append] at hcuts
  rw [d.received_eq_contents hlistener hfresh]
  exact flatMap_contents hcodec hencoded hlog d.subscriptionId (cuts_append hcuts)

end Download

/-- **From a producer to a consumer.** Messages are published by calls of `publish_encoded` that
return, over a connection that others use as well, and the broker logs what it has read. It delivers
its log from some offset on, in chunks and among other frames, to a client that is not stopped. Then,
wherever the two byte streams are cut and however the threads on both sides interleave:
* the log has the messages that were published, in their order: the first ones, and all of them when
  the whole stream has been read;
* the message listener has been called for the messages of the chunks that were handled, each once, in
  order and decoded to what was published, with consecutive offsets. -/
theorem messages_pass (encode : μ → Except StreamException Bytes) (p : Parameters μ)
    (hcodec : ∀ m b, encode m = .ok b → p.decode b = .ok m) (hlistener : p.messageListener = true)
    (ms : List μ) (u : Upload encode ms) (d : Download p u.log)
    (hfresh : received d.subscriptionId d.client.calls = []) :
    u.log <+: u.bodies ∧ (u.Complete → u.log = u.bodies) ∧
      d.received = numbered d.first
        ((ms.drop d.first).take (size (chunks d.subscriptionId d.handled))) :=
  ⟨u.log_isPrefix, u.log_eq_bodies,
    d.received_eq hlistener hcodec hfresh u.encoded u.log_isPrefix⟩

/-! ## The raw codec -/

/-- `Message`. -/
structure RawMessage where
  body : Bytes
  headers : StringMap
  deriving DecidableEq

namespace RawCodec

def encode (message : RawMessage) : Except StreamException Bytes :=
  if message.headers.entries ≠ [] then .error (.invalidInput "headers not supported for RawCodec")
  else .ok message.body

def decode (data : Bytes) : Except StreamException RawMessage := .ok ⟨data, ∅⟩

/-- What the codec has encoded it decodes. -/
theorem decode_of_encode (m : RawMessage) (b : Bytes) (h : encode m = .ok b) : decode b = .ok m := by
  obtain ⟨body, ⟨entries, hordered⟩⟩ := m
  rw [encode] at h
  split at h
  · cases h
  · rename_i hempty
    obtain rfl : entries = [] := not_not.1 hempty
    obtain rfl : body = b := Except.ok.inj h
    rfl

end RawCodec

/-- Two messages in one call, after a heartbeat. -/
def twoMessages : List Outbound.Act :=
  [.send 0 .clientHeartbeatCommand, .send 0 (.publishCommand ⟨1, [⟨0, [7]⟩, ⟨1, [8]⟩]⟩),
    .outbox .handle, .outbox .handle, .outbox (.complete 0 (.ok ())), .outbox (.complete 0 (.ok ()))]

def twoReads : List Reader.Act := [.arrive, .arrive, .arrive, .arrive, .error "End of file"]

/-- A chunk with both messages. -/
def bothMessages : DeliverCommand where
  subscriptionId := 2
  committedChunkId := none
  chunk :=
    { magicVersion := 0x50, chunkType := 0, nbEntries := 2, nbRecords := 2, timestamp := 0, epoch := 1
      offset := 0, chunkCrc := 0, dataLen := 10, trailerLen := 0, reserved := 0 }
  messages := [[7], [8]]

def oneChunk : List ServerFrame := [.heartbeat, .deliver 1 bothMessages]

def oneChunkBytes : Bytes := (Reader.wire (oneChunk.map ServerFrame.encode)).take 100

def twoGets : List Inbound.Act :=
  [.read, .strand .handle, .strand .arrive, .strand .arrive, .get, .strand .arrive, .strand .arrive,
    .read, .strand .handle, .get]

def listening : Parameters RawMessage := { messageListener := true, decode := RawCodec.decode }

def raw (body : Bytes) : RawMessage := ⟨body, ∅⟩

theorem messages_pass_twoMessages :
    ∃ (u : Upload RawCodec.encode [raw [7], raw [8]]) (d : Download listening u.log),
      d.received = [(0, raw [7]), (1, raw [8])] := by
  have hupload : (Outbound.machine.run {} twoMessages).any (fun t =>
      decide (t.sent = [.clientHeartbeatCommand, .publishCommand ⟨1, [⟨0, [7]⟩, ⟨1, [8]⟩]⟩]) &&
        ((Reader.machine (t.bytes.take 100) true).run (Reader.start (t.bytes.take 100)) twoReads).any
          fun r => decide (((commands 1 (r.buffers.filterMap fun b =>
            ((ClientFrame.read b).map Prod.fst).toOption)).flatMap PublishCommand.messages).map
              Message.body = [[7], [8]])) = true := by
    decide +kernel
  obtain ⟨t, ht, hafter⟩ := (Option.any_eq_true ..).1 hupload
  obtain ⟨hsent, hread⟩ := Bool.and_eq_true_iff.1 hafter
  obtain ⟨r, hr, hlog⟩ := (Option.any_eq_true ..).1 hread
  have hwell : ∀ f ∈ t.sent, f.WellFormed := by
    rw [of_decide_eq_true hsent]
    simp [ClientFrame.WellFormed]
  let call : Call := ⟨0, [⟨0, [7]⟩, ⟨1, [8]⟩]⟩
  have houtcome : (call.outcome 1).thrown = none ∧ (call.outcome 1).frames.map Frame.command =
      [⟨1, [⟨0, [7]⟩, ⟨1, [8]⟩]⟩] := by
    decide +kernel
  let u : Upload RawCodec.encode [raw [7], raw [8]] :=
    { publisherId := 1, calls := [call], returned := by simpa using houtcome.1, encoded := rfl
      acts := twoMessages, connection := t, run := ht, wellFormed := hwell
      handed := by
        rw [of_decide_eq_true hsent]
        simpa [commands] using houtcome.2.symm
      arrived := 100, fails := true, reads := twoReads, reader := r, reading := hr }
  have hulog : u.log = [[7], [8]] := of_decide_eq_true hlog
  have hok : (Inbound.machine listening oneChunkBytes false { maxFrameSize := 0, heartbeat := 0 }).checkAlong
      Going (Inbound.start oneChunkBytes { maxFrameSize := 0, heartbeat := 0 }) twoGets = true := by
    decide +kernel
  have hdownload : ((Inbound.machine listening oneChunkBytes false
      { maxFrameSize := 0, heartbeat := 0 }).run
        (Inbound.start oneChunkBytes { maxFrameSize := 0, heartbeat := 0 }) twoGets).any (fun s =>
          decide (size (chunks 2 ((Inbound.arrived oneChunk 100).take s.taken)) = 2)) = true := by
    decide +kernel
  obtain ⟨s, hs, hsize⟩ := (Option.any_eq_true ..).1 hdownload
  have hframes : ∀ f ∈ oneChunk, f.WellFormed ∧ f.encode.length ≤ Reader.maxPayload := by
    intro f hf
    rcases List.mem_cons.1 hf with rfl | hf
    · exact ⟨trivial, by decide⟩
    · obtain rfl := List.mem_singleton.1 hf
      exact ⟨⟨.inl rfl, rfl, rfl, rfl, by decide⟩, by decide⟩
  let d : Download listening u.log :=
    { subscriptionId := 2, first := 0, frames := oneChunk, wellFormed := hframes
      cuts := by
        rw [hulog]
        exact ⟨rfl, List.prefix_rfl, trivial⟩
      arrived := 100, fails := false, client := { maxFrameSize := 0, heartbeat := 0 }, acts := twoGets
      state := s, run := hs, going := Machine.along_of_check hok }
  refine ⟨u, d, ?_⟩
  have hpass := (messages_pass RawCodec.encode listening RawCodec.decode_of_encode rfl _ u d rfl).2.2
  have hcount : size (chunks d.subscriptionId d.handled) = 2 := of_decide_eq_true hsize
  rw [hpass, hcount]
  rfl

end Hareflow.Client.Passage
