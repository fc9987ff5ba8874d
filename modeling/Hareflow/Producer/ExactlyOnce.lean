import Hareflow.Foundations.Dedup
import Hareflow.Producer.Resolution

/-!
# Exactly-once publishing

A broker keeps the highest publishing id it has stored under the name of a producer, stores a message
if its id is above it, and confirms what it receives either way. So a message that is resent must not
come after one with a higher id, on any connection: it would be confirmed and lost.

The producer and its broker are one machine here, `world`. The broker takes what was written to each
client in the order in which it was written, some prefix of it, old clients at any time; it is a
receiver of `Foundations.Dedup`, and a client has a confirmation only for what the broker has taken
from it.

* `InOrder` is the order on the side of the producer: what waits in `m_unconfirmed` comes before the
  batch, the batch before the accumulator, and the client of the producer has been given all of
  `m_unconfirmed`.
* `step_sound`: every step of the producer keeps that order, and with it `Dedup.Sound`.

The result is for runs in which the ids come from the counter, which does not wrap, the messages enter
the accumulator in the order of their ids, and `publish_encoded` does not throw.
-/

namespace Hareflow.Producer

open Foundations

variable {cfg : Config} {s t : State}

/-- The order of the messages. -/
def AccumulatedMessage.key (m : AccumulatedMessage) : ℕ := m.publishingId.toNat

/-- `m` was given its id before `m'`. -/
def AccumulatedMessage.Before (m m' : AccumulatedMessage) : Prop := m.key < m'.key

/-! ## The producer and its broker -/

structure World where
  producer : State
  broker : Dedup AccumulatedMessage ℕ

inductive WorldAct
  | producer (a : Act)
  /-- The broker takes the next message that was written to a client. -/
  | receive (c : ℕ)
  deriving DecidableEq, Repr

/-- A confirmation that a client passes on is one for a message that the broker has taken from it. -/
def World.confirms (w : World) : Act → Bool
  | .frame (.confirm c i) =>
    ((w.producer.written c).take (w.broker.received c)).any fun m => m.publishingId = i
  | _ => true

def worldStep (cfg : Config) (w : World) : WorldAct → Option World
  | .producer a =>
    if w.confirms a then (step cfg w.producer a).map fun s => ⟨s, w.broker⟩ else none
  | .receive c =>
    ((w.producer.written c)[w.broker.received c]?).map fun m =>
      ⟨w.producer, w.broker.receive AccumulatedMessage.key c m⟩

/-- A producer as `start()` leaves it, and a broker whose last stored id is `last`. -/
def worldInitial (cfg : Config) (last : Option UInt64) : World :=
  ⟨initial cfg, ⟨last.map UInt64.toNat, [], fun _ => 0⟩⟩

def world (cfg : Config) (last : Option UInt64) : Machine World WorldAct :=
  ⟨(· = worldInitial cfg last), worldStep cfg⟩

/-! ## The order of the messages -/

/-- Where the messages are that the producer waits for, and what was written of them. -/
structure Flow where
  pending : List AccumulatedMessage
  batch : Option Batch
  unconfirmed : List AccumulatedMessage
  written : ℕ → List AccumulatedMessage
  client : Option ℕ
  created : ℕ
  reconnect : ReconnectPc
  accepted : List AccumulatedMessage

def State.flow (s : State) : Flow :=
  ⟨s.accumulator.pending, s.batch, s.unconfirmed.entries, s.written, s.client, s.created,
    s.reconnect, s.accepted⟩

/-- The batch before it is written. -/
def BatchPc.unwritten : BatchPc → List AccumulatedMessage
  | .extracted ms => ms
  | _ => []

/-- The batch after it is written. -/
def BatchPc.done : BatchPc → List AccumulatedMessage
  | .published ms => ms
  | _ => []

namespace Flow

def published (x : Flow) : List AccumulatedMessage := (x.batch.map fun b => b.pc.done).getD []

/-- What has not been written to any client. -/
def unwritten (x : Flow) : List AccumulatedMessage :=
  (x.batch.map fun b => b.pc.unwritten).getD [] ++ x.pending

/-- What the producer waits for. -/
def waiting (x : Flow) : Set AccumulatedMessage :=
  {m | m ∈ x.unconfirmed ∨ m ∈ x.published ++ x.unwritten}

/-- The client is being connected, or not even that. -/
def Unused (x : Flow) (c : ℕ) : Prop :=
  x.created ≤ c ∨ x.reconnect = .started c ∨ x.reconnect = .declared c

end Flow

open AccumulatedMessage (Before key)

/-- The order that the producer keeps. -/
structure InOrder (x : Flow) : Prop where
  accepted : x.accepted.Pairwise Before
  known : ∀ m ∈ x.waiting, m ∈ x.accepted
  written : ∀ c, ∀ m ∈ x.written c, m ∈ x.accepted
  queue : (x.published ++ x.unwritten).Pairwise Before
  behind : ∀ m ∈ x.unconfirmed, ∀ m' ∈ x.published ++ x.unwritten, Before m m'
  ahead : ∀ c, ∀ m ∈ x.written c, ∀ m' ∈ x.unwritten, Before m m'
  /-- The client of the producer has been given what waits for a confirmation. -/
  current : ∀ c ∈ x.client, ∀ m, m ∈ x.unconfirmed ∨ m ∈ x.published → m ∈ x.written c
  unused : ∀ c, x.Unused c → x.written c = []
  client : ∀ c ∈ x.client, c < x.created
  reconnect : ∀ c ∈ x.reconnect.client, c < x.created

/-- The order, and what it guarantees about the broker. -/
structure Flow.Sound (x : Flow) (b : Dedup AccumulatedMessage ℕ) : Prop where
  inOrder : InOrder x
  dedup : Dedup.Sound key x.written x.waiting b

/-- What a channel has after a write to one of them. -/
theorem mem_update_append {written : ℕ → List AccumulatedMessage} {c e : ℕ}
    {ms : List AccumulatedMessage} {m : AccumulatedMessage}
    (h : m ∈ Function.update written c (written c ++ ms) e) : m ∈ written e ∨ m ∈ ms := by
  rcases eq_or_ne e c with rfl | he
  · rw [Function.update_self] at h
    exact List.mem_append.1 h
  · rw [Function.update_of_ne he] at h
    exact .inl h

namespace Flow.Sound

variable {x : Flow} {b : Dedup AccumulatedMessage ℕ}

/-- Messages are resolved, or the client is taken away. -/
theorem shrink (hx : x.Sound b) {pending unconfirmed : List AccumulatedMessage}
    {client : Option ℕ} (hp : pending.Sublist x.pending) (hu : ∀ m ∈ unconfirmed, m ∈ x.unconfirmed)
    (hc : ∀ c ∈ client, c ∈ x.client) :
    Sound { x with pending := pending, unconfirmed := unconfirmed, client := client } b := by
  obtain ⟨ho, hd⟩ := hx
  have hqueue : (x.published ++ ((x.batch.map fun b => b.pc.unwritten).getD [] ++ pending)).Sublist
      (x.published ++ x.unwritten) :=
    (List.Sublist.refl _).append ((List.Sublist.refl _).append hp)
  have hunwritten : ((x.batch.map fun b => b.pc.unwritten).getD [] ++ pending).Sublist
      x.unwritten := (List.Sublist.refl _).append hp
  have hwaiting : (Flow.waiting
      { x with pending := pending, unconfirmed := unconfirmed, client := client }) ⊆ x.waiting :=
    fun m hm => hm.imp (hu m) fun h => hqueue.subset h
  refine ⟨⟨ho.accepted, fun m hm => ho.known m (hwaiting hm), ho.written, ho.queue.sublist hqueue,
    fun m hm m' hm' => ho.behind m (hu m hm) m' (hqueue.subset hm'),
    fun c m hm m' hm' => ho.ahead c m hm m' (hunwritten.subset hm'),
    fun c hc' m hm => ho.current c (hc c hc') m (hm.imp_left (hu m)), ho.unused,
    fun c hc' => ho.client c (hc c hc'), ho.reconnect⟩, hd.subset hwaiting⟩

/-- A message that comes after all others is accepted. -/
theorem accept (hx : x.Sound b) {m : AccumulatedMessage} (hm : ∀ m' ∈ x.accepted, Before m' m)
    (hnew : b.IsNew (key m)) :
    Sound { x with pending := x.pending ++ [m], accepted := x.accepted ++ [m] } b := by
  obtain ⟨ho, hd⟩ := hx
  have happend : ∀ l : List AccumulatedMessage, (∀ m' ∈ l, m' ∈ x.accepted) →
      l.Pairwise Before → (l ++ [m]).Pairwise Before := by
    intro l hl hp
    refine List.pairwise_append.2 ⟨hp, List.pairwise_singleton _ _, fun m' hm' m'' hm'' => ?_⟩
    obtain rfl : m'' = m := List.mem_singleton.1 hm''
    exact hm m' (hl m' hm')
  have hunwritten : Flow.unwritten
      { x with pending := x.pending ++ [m], accepted := x.accepted ++ [m] } =
        x.unwritten ++ [m] := by simp [Flow.unwritten]
  have hqueue : x.published ++ Flow.unwritten
      { x with pending := x.pending ++ [m], accepted := x.accepted ++ [m] } =
        (x.published ++ x.unwritten) ++ [m] := by rw [hunwritten, List.append_assoc]
  have hwaiting : (Flow.waiting
      { x with pending := x.pending ++ [m], accepted := x.accepted ++ [m] }) ⊆
        insert m x.waiting := by
    rintro m' (hm' | hm')
    · exact .inr (.inl hm')
    · obtain hm' | hm' := List.mem_append.1 (hqueue ▸ hm')
      · exact .inr (.inr hm')
      · exact .inl (List.mem_singleton.1 hm')
  refine ⟨⟨happend _ (fun _ h => h) ho.accepted, fun m' hm' => ?_,
    fun c m' hm' => List.mem_append_left _ (ho.written c m' hm'), ?_, fun m' hm' m'' hm'' => ?_,
    fun c m' hm' m'' hm'' => ?_, ho.current, ho.unused, ho.client, ho.reconnect⟩,
    (hd.await (fun c m' hm' => hm m' (ho.written c m' hm')) hnew).subset hwaiting⟩
  · obtain rfl | hm' := hwaiting hm'
    · exact List.mem_append_right _ (List.mem_singleton.2 rfl)
    · exact List.mem_append_left _ (ho.known m' hm')
  · exact hqueue ▸ happend _ (fun m' hm' => ho.known m' (.inr hm')) ho.queue
  · obtain hm'' | hm'' := List.mem_append.1 (hqueue ▸ hm'')
    · exact ho.behind m' hm' m'' hm''
    · obtain rfl : m'' = m := List.mem_singleton.1 hm''
      exact hm m' (ho.known m' (.inl hm'))
  · obtain hm'' | hm'' := List.mem_append.1 (hunwritten ▸ hm'')
    · exact ho.ahead c m' hm' m'' hm''
    · obtain rfl : m'' = m := List.mem_singleton.1 hm''
      exact hm m' (ho.written c m' hm')

/-- The batch is set up: what is written and what is not stays so. -/
theorem requeue (hx : x.Sound b) (batch : Option Batch) (pending : List AccumulatedMessage)
    (hp : Flow.published { x with batch := batch, pending := pending } = x.published)
    (hu : Flow.unwritten { x with batch := batch, pending := pending } = x.unwritten) :
    Sound { x with batch := batch, pending := pending } b := by
  obtain ⟨ho, hd⟩ := hx
  have hwaiting : Flow.waiting { x with batch := batch, pending := pending } = x.waiting := by
    unfold Flow.waiting
    rw [hp, hu]
  refine ⟨⟨ho.accepted, ?_, ho.written, ?_, ?_, ?_, ?_, ho.unused, ho.client, ho.reconnect⟩, ?_⟩
  · rw [hwaiting]
    exact ho.known
  · rw [hp, hu]
    exact ho.queue
  · rw [hp, hu]
    exact ho.behind
  · rw [hu]
    exact ho.ahead
  · rw [hp]
    exact ho.current
  · rw [hwaiting]
    exact hd

/-- A batch that is extracted and not yet written comes first in what is not written. -/
theorem extracted {caller : Caller} {ms : List AccumulatedMessage}
    (hb : x.batch = some ⟨caller, .extracted ms⟩) :
    x.published = [] ∧ x.unwritten = ms ++ x.pending := by
  simp [Flow.published, Flow.unwritten, hb, BatchPc.done, BatchPc.unwritten]

theorem waiting_published {caller : Caller} {ms : List AccumulatedMessage}
    (hb : x.batch = some ⟨caller, .extracted ms⟩) (written : ℕ → List AccumulatedMessage) :
    Flow.waiting { x with batch := some ⟨caller, .published ms⟩, written := written } =
      x.waiting := by
  obtain ⟨hpub, hunw⟩ := extracted hb
  unfold Flow.waiting
  rw [hpub, hunw]
  rfl

/-- The batch goes on without a client. -/
theorem park (hx : x.Sound b) {caller : Caller} {ms : List AccumulatedMessage}
    (hb : x.batch = some ⟨caller, .extracted ms⟩) (hc : x.client = none) :
    Sound { x with batch := some ⟨caller, .published ms⟩ } b := by
  obtain ⟨ho, hd⟩ := hx
  obtain ⟨hpub, hunw⟩ := extracted hb
  have hwaiting := waiting_published hb x.written
  have hqueue := ho.queue
  have hbehind := ho.behind
  rw [hpub, hunw, List.nil_append] at hqueue hbehind
  refine ⟨⟨ho.accepted, hwaiting ▸ ho.known, ho.written, hqueue, hbehind,
    fun c m hm m' hm' => ho.ahead c m hm m' (hunw ▸ List.mem_append_right _ hm'), fun c hc' => ?_,
    ho.unused, ho.client, ho.reconnect⟩, hwaiting ▸ hd⟩
  exact absurd (hc.symm.trans hc') (by simp)

/-- The batch is written to the client. -/
theorem publish (hx : x.Sound b) (hconn : x.reconnect.connects = true → x.client = none)
    {caller : Caller} {ms : List AccumulatedMessage} (hb : x.batch = some ⟨caller, .extracted ms⟩)
    {c : ℕ} (hc : x.client = some c) :
    Sound { x with
      batch := some ⟨caller, .published ms⟩
      written := Function.update x.written c (x.written c ++ ms) } b := by
  obtain ⟨ho, hd⟩ := hx
  obtain ⟨hpub, hunw⟩ := extracted hb
  have hwaiting := waiting_published hb (Function.update x.written c (x.written c ++ ms))
  have hqueue := ho.queue
  have hbehind := ho.behind
  rw [hpub, hunw, List.nil_append] at hqueue hbehind
  have hms : ∀ m ∈ ms, m ∈ x.accepted := fun m hm =>
    ho.known m (.inr (List.mem_append_right _ (hunw ▸ List.mem_append_left _ hm)))
  have hpending : ∀ m ∈ ms, ∀ m' ∈ x.pending, Before m m' := (List.pairwise_append.1 hqueue).2.2
  have hinc : (x.written c ++ ms).Pairwise Before := by
    refine List.pairwise_append.2 ⟨hd.increasing c, (List.pairwise_append.1 hqueue).1, ?_⟩
    exact fun m hm m' hm' => ho.ahead c m hm m' (hunw ▸ List.mem_append_left _ hm')
  refine ⟨⟨ho.accepted, hwaiting ▸ ho.known, fun e m hm => ?_, hqueue, hbehind,
    fun e m hm m' hm' => ?_, fun e he m hm => ?_, fun e he => ?_, ho.client, ho.reconnect⟩, ?_⟩
  · exact (mem_update_append hm).elim (ho.written e m) (hms m)
  · exact (mem_update_append hm).elim
      (fun h => ho.ahead e m h m' (hunw ▸ List.mem_append_right _ hm'))
      (fun h => hpending m h m' hm')
  · obtain rfl : c = e := Option.some.inj (hc.symm.trans he)
    show m ∈ Function.update x.written c (x.written c ++ ms) c
    rw [Function.update_self]
    obtain hm | hm := hm
    · exact List.mem_append_left _ (ho.current c hc m (.inl hm))
    · exact List.mem_append_right _ hm
  · have hne : e ≠ c := by
      rintro rfl
      obtain hge | hst | hst := he
      · exact absurd (ho.client e hc) (Nat.not_lt.2 hge)
      · exact absurd (hconn (hst ▸ rfl)) (by simp [hc])
      · exact absurd (hconn (hst ▸ rfl)) (by simp [hc])
    show Function.update x.written c (x.written c ++ ms) e = []
    rw [Function.update_of_ne hne]
    exact ho.unused e he
  · rw [hwaiting]
    refine hd.write hinc fun m hm m' hm' hle => ?_
    -- what waits and is not after a message of the batch is unconfirmed or in the batch
    obtain hm' | hm' := hm'
    · exact List.mem_append_left _ (ho.current c hc m' (.inl hm'))
    · rw [hpub, hunw, List.nil_append] at hm'
      obtain hm' | hm' := List.mem_append.1 hm'
      · exact List.mem_append_right _ hm'
      · exact absurd (hpending m hm m' hm') (Nat.not_lt.2 hle)

/-- The batch is moved to `m_unconfirmed`. -/
theorem insert (hx : x.Sound b) {caller : Caller} {ms unconfirmed : List AccumulatedMessage}
    (hb : x.batch = some ⟨caller, .published ms⟩)
    (hu : ∀ m ∈ unconfirmed, m ∈ x.unconfirmed ∨ m ∈ ms) :
    Sound { x with batch := none, unconfirmed := unconfirmed } b := by
  obtain ⟨ho, hd⟩ := hx
  have hpub : x.published = ms := by simp [Flow.published, hb, BatchPc.done]
  have hunw : x.unwritten = x.pending := by simp [Flow.unwritten, hb, BatchPc.unwritten]
  have hqueue := ho.queue
  rw [hpub, hunw] at hqueue
  have hwaiting : Flow.waiting { x with batch := none, unconfirmed := unconfirmed } ⊆ x.waiting := by
    rintro m (hm | hm)
    · exact (hu m hm).imp_right fun h => List.mem_append_left _ (hpub ▸ h)
    · exact .inr (List.mem_append_right _ (hunw ▸ hm))
  refine ⟨⟨ho.accepted, fun m hm => ho.known m (hwaiting hm), ho.written,
    (List.pairwise_append.1 hqueue).2.1, fun m hm m' hm' => ?_,
    fun c m hm m' hm' => ho.ahead c m hm m' (hunw ▸ hm'), fun c hc m hm => ?_, ho.unused, ho.client,
    ho.reconnect⟩, hd.subset hwaiting⟩
  · obtain hm | hm := hu m hm
    · exact ho.behind m hm m' (List.mem_append_right _ (hunw ▸ hm'))
    · exact (List.pairwise_append.1 hqueue).2.2 m hm m' hm'
  · obtain hm | hm := hm
    · exact ho.current c hc m ((hu m hm).imp_right fun h => hpub ▸ h)
    · cases hm

/-- All that is unconfirmed is written, in order, to a new client, which becomes the client of the
producer. -/
theorem resend (hx : x.Sound b) {c : ℕ} (hr : x.reconnect = .declared c) (hb : x.batch = none)
    (sorted : List AccumulatedMessage) (hsorted : sorted.Pairwise Before)
    (hmem : ∀ m, m ∈ sorted ↔ m ∈ x.unconfirmed) :
    Sound { x with
      written := Function.update x.written c (x.written c ++ sorted)
      client := some c
      reconnect := .installed c } b := by
  obtain ⟨ho, hd⟩ := hx
  have hempty : x.written c = [] := ho.unused c (.inr (.inr hr))
  have hcreated : c < x.created := ho.reconnect c (by rw [hr]; rfl)
  have hpub : x.published = [] := by simp [Flow.published, hb]
  have hbefore : ∀ m ∈ sorted, ∀ m' ∈ x.unwritten, Before m m' := fun m hm m' hm' =>
    ho.behind m ((hmem m).1 hm) m' (List.mem_append_right _ hm')
  refine ⟨⟨ho.accepted, ho.known, fun e m hm => ?_, ho.queue, ho.behind, fun e m hm m' hm' => ?_,
    fun e he m hm => ?_, fun e he => ?_, fun e he => ?_, fun e he => ?_⟩, ?_⟩
  · exact (mem_update_append hm).elim (ho.written e m) fun h => ho.known m (.inl ((hmem m).1 h))
  · exact (mem_update_append hm).elim (fun h => ho.ahead e m h m' hm') fun h => hbefore m h m' hm'
  · obtain rfl : c = e := Option.some.inj he
    show m ∈ Function.update x.written c (x.written c ++ sorted) c
    rw [Function.update_self]
    obtain hm | hm := hm
    · exact List.mem_append_right _ ((hmem m).2 hm)
    · exact absurd (hpub ▸ hm) (by simp)
  · have he' : x.created ≤ e := by
      obtain he | he | he := he
      · exact he
      · cases he
      · cases he
    show Function.update x.written c (x.written c ++ sorted) e = []
    rw [Function.update_of_ne (by omega)]
    exact ho.unused e (.inl he')
  · obtain rfl : c = e := Option.some.inj he
    exact hcreated
  · obtain rfl : c = e := Option.some.inj he
    exact hcreated
  · refine hd.write (by rw [hempty]; exact hsorted) fun m hm m' hm' hle => ?_
    obtain hm' | hm' := hm'
    · exact List.mem_append_right _ ((hmem m').2 hm')
    · exact absurd (ho.behind m ((hmem m).1 hm) m' hm') (Nat.not_lt.2 hle)

/-- `reconnect_to_server` goes on, without storing its client. -/
theorem relink (hx : x.Sound b) (client : Option ℕ) (created : ℕ) (reconnect : ReconnectPc)
    (hc : ∀ c ∈ client, c ∈ x.client) (hcreated : x.created ≤ created)
    (hr : ∀ c ∈ reconnect.client, c < created)
    (hunused : ∀ c, Flow.Unused { x with created := created, reconnect := reconnect } c →
      x.Unused c) :
    Sound { x with client := client, created := created, reconnect := reconnect } b := by
  obtain ⟨ho, hd⟩ := hx
  exact ⟨⟨ho.accepted, ho.known, ho.written, ho.queue, ho.behind, ho.ahead,
    fun c hc' => ho.current c (hc c hc'), fun c h => ho.unused c (hunused c h),
    fun c hc' => Nat.lt_of_lt_of_le (ho.client c (hc c hc')) hcreated, hr⟩, hd⟩

end Flow.Sound

/-! ## The steps keep the order -/

/-- The ids come from the counter, which does not wrap; the messages enter the accumulator in the
order of their ids; and `publish_encoded` does not throw. -/
def inOrder (cfg : Config) (s : State) : Act → Bool
  | .send (.call explicit) =>
    explicit.isNone && decide (cfg.firstPublishingId.toNat + s.calls < 2 ^ 64)
  | .send (.insert k) =>
    match s.sends k with
    | .sized m => s.accepted.all fun m' => m'.key < m.key
    | _ => true
  | .batch (.publish failed) => failed.isNone
  | .reconnect (.resend failed) => failed.isNone
  | _ => true

variable {b : Dedup AccumulatedMessage ℕ}

theorem flow_finish (u : State) (caller : Caller) : (u.finish caller).flow = u.flow := by
  cases caller <;> rfl

theorem sound_stepBatch {a : BatchAct} (hs : Stopping s) (hx : s.flow.Sound b)
    (hok : inOrder cfg s (.batch a) = true) (h : stepBatch cfg s a = some t) : t.flow.Sound b := by
  cases batchMove_of_step h with
  | flush | task => exact hx
  | lock hcall hfree =>
    have hnone : s.batch = none := (State.unlocked_iff.1 hfree).1
    exact hx.requeue _ _
      (by simp [Flow.published, State.flow, hnone, BatchPc.done])
      (by simp [Flow.unwritten, State.flow, hnone, BatchPc.unwritten])
  | decline =>
    rw [flow_finish]
    exact hx
  | extract hb =>
    exact hx.requeue _ []
      (by simp [Flow.published, State.flow, hb, BatchPc.done])
      (by simp [Flow.unwritten, State.flow, hb, BatchPc.unwritten, Accumulator.extractAll])
  | @publish caller ms failed c hb hc =>
    obtain rfl : failed = none := by simpa [inOrder] using hok
    exact hx.publish hs.referenced.connecting hb hc
  | park hb hc => exact hx.park hb hc
  | insert hb =>
    rw [flow_finish]
    exact hx.insert hb fun m hm => Unconfirmed.mem_emplaceAll hm

theorem sound_stepReconnect {a : ReconnectAct} (hs : Stopping s) (hx : s.flow.Sound b)
    (hok : inOrder cfg s (.reconnect a) = true) (h : stepReconnect cfg s a = some t) :
    t.flow.Sound b := by
  have hrun := hs.quiet.running_of_reconnect h
  -- a client that is not being connected any more is not unused because of that
  have hleave : ∀ {pc : ReconnectPc}, (∀ c, pc ≠ .started c ∧ pc ≠ .declared c) →
      (∀ c ∈ pc.client, s.reconnect.client = some c) →
      Flow.Sound { s.flow with reconnect := pc } b := by
    intro pc hpc hcl
    refine hx.relink s.client s.created pc (fun _ h => h) (Nat.le_refl _)
      (fun c hc => hx.inOrder.reconnect c (hcl c hc)) fun c hu => .inl ?_
    obtain hu | hu | hu := hu
    · exact hu
    · exact absurd hu (hpc c).1
    · exact absurd hu (hpc c).2
  cases a with
  | delayed =>
    simp only [stepReconnect] at h
    split at h <;> cases h
    exact hx
  | delayedTake =>
    simp only [stepReconnect, if_pos hrun] at h
    split at h <;> cases h
    exact hx.shrink (List.Sublist.refl _) (fun _ h => h) (by simp)
  | delayedStop =>
    simp only [stepReconnect] at h
    (repeat' split at h) <;> first
      | (cases h; done)
      | (cases h; exact hx)
  | enter | check | stop | finish =>
    simp only [stepReconnect] at h
    (repeat' split at h) <;> first
      | (cases h; done)
      | (cases h; exact hleave (by simp) (by simp [ReconnectPc.client]))
  | connect =>
    simp only [stepReconnect] at h
    split at h <;> cases h
    refine hx.relink _ _ _ (fun _ h => h) (Nat.le_succ _) ?_ fun c hu => .inl ?_
    · intro c hc
      obtain rfl : s.created = c := by simpa [ReconnectPc.client] using hc
      exact Nat.lt_succ_self _
    · obtain hu | hu | hu := hu
      · exact Nat.le_of_succ_le hu
      · obtain rfl : s.created = c := by simpa using hu
        exact Nat.le_refl _
      · cases hu
  | declare =>
    simp only [stepReconnect] at h
    split at h <;> cases h
    rename_i c hg
    refine hx.relink _ _ _ (fun _ h => h) (Nat.le_refl _) ?_ fun e hu => ?_
    · intro e he
      obtain rfl : c = e := by simpa [ReconnectPc.client] using he
      exact hx.inOrder.reconnect c (by simp [State.flow, hg, ReconnectPc.client])
    · obtain hu | hu | hu := hu
      · exact .inl hu
      · cases hu
      · obtain rfl : c = e := by simpa using hu
        exact .inr (.inl hg)
  | throw =>
    simp only [stepReconnect] at h
    split at h <;> cases h <;> rename_i hg <;>
      exact hleave (by simp) (by simp [hg, ReconnectPc.client])
  | resend failed =>
    simp only [stepReconnect, if_pos hrun] at h
    obtain rfl : failed = none := by simpa [inOrder] using hok
    split at h
    · rename_i c hg
      split at h <;> cases h
      rename_i hfree
      have hnone : s.batch = none := (State.unlocked_iff.1 hfree).1
      have hflat : (resendBatches cfg.batchSize s.unconfirmed.sorted []).flatten =
          s.unconfirmed.sorted := by rw [flatten_resendBatches, List.nil_append]
      refine hx.resend hg hnone (resendBatches cfg.batchSize s.unconfirmed.sorted []).flatten ?_ ?_
      · rw [hflat]
        exact s.unconfirmed.sorted_pairwise.imp fun h => UInt64.lt_iff_toNat_lt.1 h
      · rw [hflat]
        exact fun m => Unconfirmed.mem_sorted
    · cases h

theorem sound_stepStop {a : StopAct} (hx : s.flow.Sound b) (h : stepStop s a = some t) :
    t.flow.Sound b := by
  cases stopMove_of_step h with
  | take | takeNone => exact hx.shrink (List.Sublist.refl _) (fun _ h => h) (by simp)
  | clear => exact hx.shrink (List.nil_sublist _) (by simp) (fun _ h => h)
  | _ => exact hx

/-- **Each step of the producer keeps the order.** What it accepts has to come last, and to be new to
the broker. -/
theorem step_sound {a : Act} (hs : Stopping s) (hx : s.flow.Sound b)
    (hok : inOrder cfg s a = true)
    (hnew : ∀ k m, s.sends k = .sized m → (∀ m' ∈ s.accepted, Before m' m) → b.IsNew (key m))
    (h : step cfg s a = some t) : t.flow.Sound b := by
  cases a with
  | send a =>
    obtain ⟨k, m, full, rfl, hk, -, rfl⟩ | ⟨_, _, _, _, rfl⟩ := stepSend_inv h
    · have hlast : ∀ m' ∈ s.accepted, Before m' m := by
        simpa [inOrder, hk, Before] using hok
      exact hx.accept hlast (hnew k m hk hlast)
    · exact hx
  | batch a => exact sound_stepBatch hs hx hok h
  | frame a =>
    simp only [step] at h
    cases a <;> simp only [stepFrame, State.takeUnconfirmed] at h <;> (repeat' split at h) <;> first
      | (cases h; done)
      | (cases h; exact hx)
      | (cases h
         exact hx.shrink (List.Sublist.refl _) (fun m hm => Unconfirmed.mem_of_mem_erase hm)
          (fun _ h => h))
  | shutdown a =>
    simp only [step] at h
    cases a <;> simp only [stepShutdown] at h <;> split at h <;> cases h
    · exact hx
    · exact hx.shrink (List.Sublist.refl _) (fun _ h => h) (by simp)
  | timeout a =>
    simp only [step] at h
    cases a <;> simp only [stepTimeout] at h <;> split at h <;> first
      | (cases h; done)
      | (cases h; exact hx)
      | (cases h
         exact hx.shrink (List.Sublist.refl _) (fun m hm => Unconfirmed.mem_of_mem_eraseAll hm)
          (fun _ h => h))
  | reconnect a => exact sound_stepReconnect hs hx hok h
  | stop a => exact sound_stepStop hx h

/-! ## What is confirmed is stored -/

/-- What a frame thread or a handler has been told to be confirmed is stored. -/
structure Confirmed (s : State) (stored : List AccumulatedMessage) : Prop where
  taken : ∀ c m st, s.frames c = .taken m st → st.confirmed = true → m ∈ stored
  handled : ∀ x ∈ s.handled, x.2.confirmed = true → x.1 ∈ stored

namespace Confirmed

variable {stored : List AccumulatedMessage}

/-- A frame thread moves. -/
theorem setFrame (hs : Confirmed s stored) (c : ℕ) (pc : FramePc)
    (hpc : ∀ m st, pc = .taken m st → st.confirmed = true → m ∈ stored) :
    Confirmed (s.setFrame c pc) stored := by
  refine ⟨fun e m st he => ?_, hs.handled⟩
  rcases eq_or_ne e c with rfl | hne
  · exact hpc m st (by simpa [State.setFrame] using he)
  · exact hs.taken e m st (by simpa [State.setFrame, hne] using he)

/-- A handler is called. -/
theorem handle (hs : Confirmed s stored) {m : AccumulatedMessage} {st : ConfirmationStatus}
    (hm : st.confirmed = true → m ∈ stored) : Confirmed (s.handle m st) stored := by
  refine ⟨hs.taken, fun x hx => ?_⟩
  obtain hx | hx := List.mem_append.1 hx
  · exact hs.handled x hx
  · obtain rfl : x = (m, st) := List.mem_singleton.1 hx
    exact hm

theorem stepFrame {a : FrameAct} (hs : Confirmed s stored)
    (hconfirm : ∀ c i m, a = .confirm c i → s.unconfirmed.find i = some m → m ∈ stored)
    (h : stepFrame s a = some t) : Confirmed t stored := by
  have htake : ∀ {c : ℕ} {i : UInt64} {st : ConfirmationStatus},
      (∀ m, s.unconfirmed.find i = some m → st.confirmed = true → m ∈ stored) →
      s.takeUnconfirmed c i st = some t → Confirmed t stored := by
    intro c i st hm h
    simp only [State.takeUnconfirmed] at h
    (repeat' split at h) <;> cases h
    · rename_i m hfind
      have hset := hs.setFrame c (.taken m st) fun m' st' heq => by
        cases heq
        exact hm m hfind
      exact ⟨hset.taken, hset.handled⟩
    · exact hs
  cases a with
  | confirm c i => exact htake (fun m hm _ => hconfirm c i m rfl hm) h
  | error c i e => exact htake (fun m _ hc => absurd hc (by simp)) h
  | invoke c =>
    simp only [Producer.stepFrame] at h
    split at h <;> cases h
    rename_i m st hc
    exact (hs.handle (hs.taken c m st hc)).setFrame c _ (by simp)
  | finish c =>
    simp only [Producer.stepFrame] at h
    (repeat' split at h) <;> cases h
    have hset := hs.setFrame c .reading (by simp)
    exact ⟨hset.taken, hset.handled⟩
  | leave c =>
    simp only [Producer.stepFrame] at h
    split at h <;> cases h
    exact hs.setFrame c _ (by simp)

theorem stepStop {a : StopAct} (hs : Confirmed s stored) (h : stepStop s a = some t) :
    Confirmed t stored := by
  have hfail : ∀ m e, Confirmed (s.handle m ⟨false, e⟩) stored := fun m e => hs.handle (by simp)
  cases stopMove_of_step h with
  | failUnconfirmed | failPending | abortUnconfirmed | abortPending =>
    exact ⟨hs.taken, (hfail _ _).handled⟩
  | _ => exact ⟨hs.taken, hs.handled⟩

theorem step {a : Act} (hs : Confirmed s stored)
    (hconfirm : ∀ c i m, a = .frame (.confirm c i) → s.unconfirmed.find i = some m → m ∈ stored)
    (h : step cfg s a = some t) : Confirmed t stored := by
  cases a with
  | send a =>
    obtain ⟨k, m, full, -, -, -, rfl⟩ | ⟨_, _, _, _, rfl⟩ := stepSend_inv h <;>
      exact ⟨hs.taken, hs.handled⟩
  | batch a =>
    obtain ⟨_, _, _, _, _, _, _, _, rfl⟩ := stepBatch_touches h
    exact ⟨hs.taken, hs.handled⟩
  | frame a => exact hs.stepFrame (fun c i m ha => hconfirm c i m (ha ▸ rfl)) h
  | shutdown a =>
    obtain ⟨_, _, rfl⟩ := stepShutdown_touches h
    exact ⟨hs.taken, hs.handled⟩
  | timeout a =>
    simp only [Producer.step] at h
    cases a <;> simp only [stepTimeout] at h <;> split at h <;> first
      | (cases h; done)
      | (cases h; exact ⟨hs.taken, hs.handled⟩)
      | (cases h; exact ⟨hs.taken, (hs.handle (by simp)).handled⟩)
  | reconnect a =>
    simp only [Producer.step] at h
    cases a with
    | connect =>
      simp only [stepReconnect] at h
      split at h <;> cases h
      exact ⟨(hs.setFrame _ .reading (by simp)).taken, hs.handled⟩
    | _ =>
      simp only [stepReconnect] at h
      (repeat' split at h) <;> first
        | (cases h; done)
        | (cases h; exact ⟨hs.taken, hs.handled⟩)
  | stop a => exact hs.stepStop h

end Confirmed

/-- The invariant of a producer and its broker, whose last stored id was `last` at the start. -/
structure World.Safe (cfg : Config) (last : Option UInt64) (w : World) : Prop where
  stopping : Stopping w.producer
  numbered : Numbered cfg w.producer.sending
  range : cfg.firstPublishingId.toNat + w.producer.calls ≤ 2 ^ 64
  sound : w.producer.flow.Sound w.broker
  highest : ∀ h ∈ w.broker.highest,
    last.map UInt64.toNat = some h ∨ ∃ m ∈ w.producer.accepted, h = key m
  stored : ∀ m ∈ w.broker.stored, m ∈ w.producer.accepted
  confirmed : Confirmed w.producer w.broker.stored

/-- The ids of the counter do not wrap. -/
theorem toNat_publishingId {k : ℕ} (h : cfg.firstPublishingId.toNat + k < 2 ^ 64) :
    (cfg.publishingId k).toNat = cfg.firstPublishingId.toNat + k := by
  rw [Config.publishingId, UInt64.toNat_add, UInt64.toNat_ofNat']
  omega

namespace World

variable {last : Option UInt64} {w v : World}

/-- `m_next_publishing_id` is one more than the last id that was stored, or zero. -/
def StartsAfter (cfg : Config) (last : Option UInt64) : Prop :=
  cfg.firstPublishingId.toNat = (last.map fun i => i.toNat + 1).getD 0

instance (cfg : Config) (last : Option UInt64) : Decidable (StartsAfter cfg last) :=
  inferInstanceAs (Decidable (_ = _))

theorem last_lt (hstart : StartsAfter cfg last) {h : ℕ} (hl : last.map UInt64.toNat = some h)
    (k : ℕ) :
    h < cfg.firstPublishingId.toNat + k := by
  cases last with
  | none => cases hl
  | some i =>
    simp only [StartsAfter, Option.map_some, Option.getD_some, Option.some.injEq] at hstart hl
    omega

/-- A message that is about to be accepted, after all others, is new to the broker. -/
theorem Safe.isNew (hw : w.Safe cfg last) (hstart : StartsAfter cfg last) {k : ℕ}
    {m : AccumulatedMessage} (hk : w.producer.sends k = .sized m)
    (hm : ∀ m' ∈ w.producer.accepted, Before m' m) : w.broker.IsNew (key m) := by
  intro h hh
  obtain hl | ⟨m', hm', rfl⟩ := hw.highest h hh
  · have hlt : k < w.producer.calls :=
      hw.numbered.ticketed.lt_calls (k := k) (by simp [State.sending, hk])
    have hid : m.publishingId = cfg.publishingId k :=
      hw.numbered.ids k _ (by simp [State.sending, hk, SendPc.publishingId])
    rw [key, hid, toNat_publishingId (by have := hw.range; omega)]
    exact last_lt hstart hl k
  · exact hm m' hm'

/-- A confirmation that a client passes on is for a message that is stored, if it is waited for. -/
theorem Safe.stored_of_confirm (hw : w.Safe cfg last) {c : ℕ} {i : UInt64} {m : AccumulatedMessage}
    (hc : w.confirms (.frame (.confirm c i)) = true) (hm : w.producer.unconfirmed.find i = some m) :
    m ∈ w.broker.stored := by
  obtain ⟨hmem, rfl⟩ := Unconfirmed.mem_of_find hm
  simp only [World.confirms, List.any_eq_true, decide_eq_true_eq] at hc
  obtain ⟨m', hm', hid⟩ := hc
  exact hw.sound.dedup.stored_of_received (.inl hmem) hm' (congrArg UInt64.toNat hid)

/-- The steps of a producer and its broker that the result is about. -/
def inOrder (cfg : Config) (w : World) : WorldAct → Bool
  | .producer a => Producer.inOrder cfg w.producer a
  | .receive _ => true

theorem counted_of_inOrder {a : Act} (h : Producer.inOrder cfg s a = true) :
    counted s a = true := by
  cases a with
  | send a =>
    cases a with
    | call explicit =>
      simp only [Producer.inOrder, Bool.and_eq_true, decide_eq_true_eq] at h
      simp only [counted, Bool.and_eq_true, decide_eq_true_eq]
      exact ⟨h.1, by omega⟩
    | _ => rfl
  | _ => rfl

/-- The counter stays in range. -/
theorem range_step {a : Act} (h : step cfg s a = some t) (hok : Producer.inOrder cfg s a = true)
    (hs : cfg.firstPublishingId.toNat + s.calls ≤ 2 ^ 64) :
    cfg.firstPublishingId.toNat + t.calls ≤ 2 ^ 64 := by
  cases a with
  | send a =>
    simp only [step] at h
    cases a with
    | call explicit =>
      simp only [Producer.inOrder, Bool.and_eq_true, decide_eq_true_eq] at hok
      have hcalls : t.calls = s.calls + 1 := by
        cases explicit <;> cases h <;> rfl
      omega
    | _ =>
      simp only [stepSend] at h
      (repeat' split at h) <;> first
        | (cases h; done)
        | (cases h; exact hs)
  | _ =>
    rw [(step_send_frame h (by simp)).1]
    exact hs

theorem Safe.initial (cfg : Config) (last : Option UInt64) :
    (worldInitial cfg last).Safe cfg last := by
  have hempty : Flow.waiting (Producer.initial cfg).flow = ∅ := by
    simp [Flow.waiting, Flow.published, Flow.unwritten, State.flow, Producer.initial]
  have horder : InOrder (Producer.initial cfg).flow := by
    constructor
    case known => simp [hempty]
    all_goals simp [Flow.published, Flow.unwritten, State.flow, Producer.initial, ReconnectPc.client]
  refine ⟨.initial cfg, (Accounted.initial cfg).numbered, ?_, ⟨horder, ?_⟩, ?_, ?_, ⟨?_, ?_⟩⟩
  · exact Nat.le_of_lt (UInt64.toNat_lt _)
  · rw [show (worldInitial cfg last).producer = Producer.initial cfg from rfl, hempty]
    exact Dedup.Sound.start key _
  · exact fun h hh => .inl hh
  · simp [worldInitial]
  · intro c m st hc
    by_cases h0 : c = 0 <;> simp [worldInitial, Producer.initial, h0] at hc
  · simp [worldInitial, Producer.initial]

theorem Safe.step {a : WorldAct} (hw : w.Safe cfg last) (hstart : StartsAfter cfg last)
    (hok : w.inOrder cfg a = true) (h : worldStep cfg w a = some v) : v.Safe cfg last := by
  cases a with
  | producer a =>
    simp only [worldStep] at h
    split at h
    · rename_i hc
      obtain ⟨t, ht, rfl⟩ := Option.map_eq_some_iff.1 h
      have hsub := accepted_step ht
      refine ⟨hw.stopping.step ht, hw.numbered.step (counted_of_inOrder hok) ht,
        range_step ht hok hw.range,
        step_sound hw.stopping hw.sound hok (fun k m hk hm => hw.isNew hstart hk hm) ht,
        fun h hh => (hw.highest h hh).imp_right fun ⟨m, hm, heq⟩ => ⟨m, hsub m hm, heq⟩,
        fun m hm => hsub m (hw.stored m hm), hw.confirmed.step ?_ ht⟩
      rintro c i m rfl hm
      exact hw.stored_of_confirm hc hm
    · cases h
  | receive c =>
    simp only [worldStep] at h
    obtain ⟨m, hm, rfl⟩ := Option.map_eq_some_iff.1 h
    have hmem : m ∈ w.producer.accepted :=
      hw.sound.inOrder.written c m (List.mem_of_getElem? hm)
    refine ⟨hw.stopping, hw.numbered, hw.range, ⟨hw.sound.inOrder, hw.sound.dedup.receive hm⟩,
      fun h hh => ?_, fun m' hm' => ?_, ?_⟩
    · obtain hh | rfl := Dedup.highest_receive hh
      · exact hw.highest h hh
      · exact .inr ⟨m, hmem, rfl⟩
    · obtain hm' | rfl := Dedup.mem_stored_receive hm'
      · exact hw.stored m' hm'
      · exact hmem
    · exact ⟨fun e m' st he hc => Dedup.stored_subset_receive c m (hw.confirmed.taken e m' st he hc),
        fun x hx hc => Dedup.stored_subset_receive c m (hw.confirmed.handled x hx hc)⟩

/-- **Exactly-once publishing.** In a run that starts after the last stored id, in which the ids come
from a counter that does not wrap, the messages enter the accumulator in the order of their ids and
`publish_encoded` does not throw: no message is stored twice; what is stored is in the order of the
ids, after what was stored before the run; and a message whose handler is told that it is confirmed
is stored exactly once. -/
theorem exactlyOnce_of_run (hstart : StartsAfter cfg last) {as : List WorldAct}
    (hok : (world cfg last).Along (fun w a => w.inOrder cfg a = true) (worldInitial cfg last) as)
    (h : (world cfg last).run (worldInitial cfg last) as = some v) :
    v.broker.stored.Nodup ∧
    v.broker.stored.Pairwise (fun m m' => m.publishingId < m'.publishingId) ∧
    (∀ m ∈ v.broker.stored, ∀ i ∈ last, i < m.publishingId) ∧
    ∀ x ∈ v.producer.handled, x.2.confirmed = true → v.broker.stored.count x.1 = 1 := by
  have hv : v.Safe cfg last := Machine.run_invariant (M := world cfg last)
    (fun hs hok h => hs.step hstart hok h) (.initial cfg last) hok h
  have hinc := hv.sound.dedup.stored_increasing
  have hnodup : v.broker.stored.Nodup :=
    hinc.imp fun {m m'} (hlt : key m < key m') heq => absurd hlt (by simp [heq])
  refine ⟨hnodup, hinc.imp fun hlt => UInt64.lt_iff_toNat_lt.2 hlt, fun m hm i hi => ?_,
    fun x hx hc => ?_⟩
  · have hmem := hv.stored m hm
    obtain ⟨hid, hacc⟩ := hv.numbered.accepted m hmem
    have hlt : m.ticket < v.producer.calls := hv.numbered.ticketed.lt_calls fun hidle => by
      simp [hidle, SendPc.accepted] at hacc
    rw [UInt64.lt_iff_toNat_lt, hid, toNat_publishingId (by have := hv.range; omega)]
    exact last_lt hstart (by rw [Option.mem_def.1 hi]; rfl) m.ticket
  · exact List.count_eq_one_of_mem hnodup (hv.confirmed.handled x hx hc)

/-- Batches of two messages, after the id 6. -/
def afterSix : Config := { pairs with firstPublishingId := 7 }

/-- Two messages are published, and the connection is lost after the broker has taken the first. Two
more come in while there is no client. The broker takes the second message from the old connection
after the new one is there, and then all four from the new one. -/
def lostConnection : List WorldAct :=
  let producer (as : List Act) : List WorldAct := as.map .producer
  producer (acceptedSend 0 ++ acceptedSend 1 ++ publishFull 1) ++ [WorldAct.receive 0] ++
    producer [.frame (.leave 0), .shutdown (.call 0), .shutdown (.handle 0)] ++
    producer (acceptedSend 2 ++ acceptedSend 3 ++ publishFull 3) ++
    producer [.reconnect .enter, .reconnect .check, .reconnect .connect, .reconnect .declare,
      .reconnect (.resend none), .reconnect .finish] ++
    [WorldAct.receive 0] ++ List.replicate 4 (WorldAct.receive 1) ++
    producer [.frame (.confirm 1 7), .frame (.invoke 1), .frame (.finish 1), .frame (.confirm 1 10),
      .frame (.invoke 1)]

/-- The theorem at that run. -/
theorem exactlyOnce_of_lostConnection :
    ∃ v, StartsAfter afterSix (some 6) ∧
      (world afterSix (some 6)).run (worldInitial afterSix (some 6)) lostConnection = some v ∧
      v.broker.stored.map key = [7, 8, 9, 10] ∧ v.producer.handled.map (fun x => x.1.key) = [7, 10] ∧
      ∀ x ∈ v.producer.handled, x.2.confirmed = true → v.broker.stored.count x.1 = 1 := by
  have hstart : StartsAfter afterSix (some 6) := rfl
  have hok : (world afterSix (some 6)).checkAlong (fun w a => w.inOrder afterSix a = true)
      (worldInitial afterSix (some 6)) lostConnection = true := rfl
  exact ⟨_, hstart, rfl, rfl, rfl,
    (exactlyOnce_of_run hstart (Machine.along_of_check hok) rfl).2.2.2⟩

end World

end Hareflow.Producer
