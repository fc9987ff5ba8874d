import Hareflow.Client.Lifecycle

/-!
# The heartbeat timeout

When nothing was read for two heartbeats, the reader-idle handler moves the client from `Started` to
`Stopping` on the strand of its connection and calls the shutdown listener of the client's owner.
The owner takes its mutex and clears its pointer to the client. If that was the last reference, the
client is destroyed there and then, on the strand and under the mutex, and its destructor joins the
frame thread.

The frame thread alternates between a read, whose promise only handlers of the strand fulfil, and
listeners, which take the mutex of the owner. It can be joined only if it does neither of the two
again, that is, if it is already on its way out of its loop. The result about runs assumes this of
the steps that drop the last reference on the strand.
-/

namespace Hareflow.Client.Heartbeat

open Foundations
open Lifecycle (Status)

/-- Who owns the client. -/
inductive Owner
  | producer
  | consumer
  | environment
  deriving DecidableEq, Repr

/-- The frames, as far as their handlers go. -/
inductive Frame
  /-- A publish confirm or a publish error. -/
  | publish
  | deliver
  /-- A close request of the server. -/
  | close
  /-- A response to a close request. -/
  | closeResponse
  /-- Any frame whose handler takes no mutex of the owner and stays in the loop, or that cannot be
  decoded. -/
  | other
  deriving DecidableEq, Repr

/-- The owner's listener for the frame takes the owner's mutex. -/
def Owner.listens : Owner → Frame → Bool
  | .producer, .publish => true
  | .consumer, .deliver => true
  | _, _ => false

theorem Owner.listens_close (o : Owner) : o.listens .close = false := by cases o <;> rfl

/-- Who holds the owner's mutex. -/
inductive Holder
  | strand
  | frame
  | other
  deriving DecidableEq, Repr

/-- Where the frame thread is. -/
inductive FramePc
  /-- `read()` has posted its handler to the strand. -/
  | posted
  /-- The promise is `m_pending_read`. -/
  | pending
  /-- The promise has a frame. -/
  | received (f : Frame)
  /-- The promise has an exception. -/
  | failed
  /-- In the handler of a frame. -/
  | handling (f : Frame)
  /-- A listener waits for the mutex. -/
  | locking (f : Frame)
  /-- A listener has the mutex. -/
  | locked (f : Frame)
  /-- Out of the loop. -/
  | left
  /-- The exchange of `Started` for `Stopping` succeeded: in `shutdown`. -/
  | closing
  | exited
  deriving DecidableEq, Repr

/-- Where the strand is: between handlers, or in the reader-idle handler. -/
inductive StrandPc
  | idle
  /-- The status has been exchanged: in `shutdown`. -/
  | shutdown
  /-- In the owner's shutdown listener. -/
  | listener
  /-- Past the tests of the listener, before the mutex. -/
  | locking
  | locked
  /-- In the destructor of the client, at the join of the frame thread. -/
  | joining
  deriving DecidableEq, Repr

structure State where
  owner : Owner
  /-- The owner's own status is `Started`. -/
  ownerStarted : Bool
  status : Status
  /-- `m_client` or `m_locator` of the owner refers to the client. -/
  owned : Bool
  /-- The other references to the client. -/
  borrowed : ℕ
  mutex : Option Holder
  inbox : List Frame
  /-- `m_connection_failed`. -/
  connectionFailed : Bool
  frame : FramePc
  strand : StrandPc

/-- A started client in service, with the frame thread about to read. -/
def initial (owner : Owner) (ownerStarted : Bool) : State where
  owner := owner
  ownerStarted := ownerStarted
  status := .started
  owned := true
  borrowed := 0
  mutex := none
  inbox := []
  connectionFailed := false
  frame := .posted
  strand := .idle

/-- The atomic steps. -/
inductive Act
  /-- The strand runs the handler that `read()` posted. -/
  | strandRead
  /-- The strand completes the read of a frame from the socket. -/
  | strandFrame (f : Frame)
  /-- The strand completes a read from the socket with an error. -/
  | strandError
  /-- The reader-idle timer: exchange `Started` for `Stopping`. -/
  | idle
  /-- `m_connection->shutdown()`, and the outstanding requests fail. -/
  | idleShutdown
  /-- The tests of the owner's listener. -/
  | idleTest
  | idleLock
  /-- Clear the owner's pointer to the client. -/
  | idleClear
  /-- The frame thread has ended and the join returns. -/
  | idleJoin
  /-- The listener ends and releases the mutex. -/
  | idleEnd
  /-- The frame thread takes what the promise has. -/
  | frameTake
  /-- A listener goes for the mutex. -/
  | frameListen
  | frameLock
  | frameUnlock
  /-- The handler is done: read again, or leave the loop. -/
  | frameDone
  /-- The exchange of `Started` for `Stopping`. -/
  | frameExchange
  /-- Another thread takes, or releases, the mutex. -/
  | otherLock
  | otherUnlock
  /-- Another thread copies the owner's reference, moves it out, or drops its own. -/
  | borrow
  | take
  | release
  /-- Another thread calls `stop()`: the exchange. -/
  | stop
  | ownerStatus (started : Bool)
  deriving DecidableEq, Repr

/-- The listener goes on to the mutex: a producer that is not started ignores the shutdown. -/
def State.heeds (s : State) : Bool := s.owner ≠ .producer || s.ownerStarted

def step (s : State) : Act → Option State
  | .strandRead =>
    if s.strand = .idle ∧ s.frame = .posted then
      match s.inbox with
      | f :: inbox => some { s with inbox := inbox, frame := .received f }
      | [] => some { s with frame := if s.connectionFailed then .failed else .pending }
    else none
  | .strandFrame f =>
    if s.strand = .idle ∧ s.connectionFailed = false then
      if s.frame = .pending then some { s with frame := .received f }
      else some { s with inbox := s.inbox ++ [f] }
    else none
  | .strandError =>
    if s.strand = .idle then
      some { s with
        connectionFailed := true
        frame := if s.frame = .pending then .failed else s.frame }
    else none
  | .idle =>
    if s.strand = .idle then
      if s.status = .started then some { s with status := .stopping, strand := .shutdown }
      else some s
    else none
  | .idleShutdown => if s.strand = .shutdown then some { s with strand := .listener } else none
  | .idleTest =>
    if s.strand = .listener then
      some { s with strand := if s.heeds then .locking else .idle }
    else none
  | .idleLock =>
    if s.strand = .locking ∧ s.mutex = none then
      some { s with strand := .locked, mutex := some .strand }
    else none
  | .idleClear =>
    if s.strand = .locked then
      some { s with
        owned := false
        strand := if s.owned ∧ s.borrowed = 0 then .joining else .locked }
    else none
  | .idleJoin =>
    if s.strand = .joining ∧ s.frame = .exited then some { s with strand := .locked } else none
  | .idleEnd =>
    if s.strand = .locked ∧ s.owned = false then some { s with strand := .idle, mutex := none }
    else none
  | .frameTake =>
    match s.frame with
    | .failed => some { s with frame := .left }
    | .received f =>
      if s.status = .stopping then
        some { s with frame := if f = .closeResponse then .left else .posted }
      else some { s with frame := .handling f }
    | _ => none
  | .frameListen =>
    match s.frame with
    | .handling f => if s.owner.listens f then some { s with frame := .locking f } else none
    | _ => none
  | .frameLock =>
    match s.frame with
    | .locking f =>
      if s.mutex = none then some { s with frame := .locked f, mutex := some .frame } else none
    | _ => none
  | .frameUnlock =>
    match s.frame with
    | .locked f => some { s with frame := .handling f, mutex := none }
    | _ => none
  | .frameDone =>
    match s.frame with
    | .handling f => some { s with frame := if f = .close then .left else .posted }
    | _ => none
  | .frameExchange =>
    if s.frame = .left then
      if s.status = .started then some { s with status := .stopping, frame := .closing }
      else some { s with frame := .exited }
    else none
  | .otherLock => if s.mutex = none then some { s with mutex := some .other } else none
  | .otherUnlock => if s.mutex = some .other then some { s with mutex := none } else none
  | .borrow =>
    if s.owned ∧ s.mutex = some .other then some { s with borrowed := s.borrowed + 1 } else none
  | .take =>
    if s.owned ∧ s.mutex = some .other then
      some { s with owned := false, borrowed := s.borrowed + 1 }
    else none
  | .release => if 0 < s.borrowed then some { s with borrowed := s.borrowed - 1 } else none
  | .stop => if 0 < s.borrowed then some { s with status := .stopping } else none
  | .ownerStatus b => some { s with ownerStarted := b }

/-- The client and its owner as a machine. -/
def machine : Machine State Act := ⟨fun s => ∃ owner started, s = initial owner started, step⟩

/-! ## The strand and the frame thread do not wait for each other -/

/-- The strand joins the frame thread, which waits for a promise that a later handler of the strand
would fulfil, or for the mutex that the strand holds. -/
def State.Deadlocked (s : State) : Prop :=
  s.strand = .joining ∧
    (s.frame = .posted ∨ s.frame = .pending ∨
      (∃ f, s.frame = .locking f) ∧ s.mutex = some .strand)

/-- The frame thread of a client that is `Stopping` is on its way out of its loop. -/
def FramePc.leaving : FramePc → Bool
  | .failed | .received .closeResponse | .handling .close | .left | .exited => true
  | _ => false

/-- The reader-idle handler drops the last reference only when the frame thread is leaving. -/
def LeavesFirst (s : State) (a : Act) : Prop :=
  a = .idleClear → s.owned = true → s.borrowed = 0 → s.frame.leaving

instance (s : State) (a : Act) : Decidable (LeavesFirst s a) :=
  inferInstanceAs (Decidable (a = .idleClear → s.owned = true → s.borrowed = 0 → s.frame.leaving))

/-- The invariant of the runs in which the frame thread leaves first. -/
structure Inv (s : State) : Prop where
  stopping : s.strand ≠ .idle → s.status = .stopping
  leaving : s.strand = .joining → s.frame.leaving

theorem Inv.not_deadlocked {s : State} (h : Inv s) : ¬s.Deadlocked := by
  rintro ⟨hjoin, hframe⟩
  have hleaving := h.leaving hjoin
  rcases hframe with hf | hf | ⟨⟨f, hf⟩, -⟩ <;> rw [hf] at hleaving <;> cases hleaving

theorem inv_initial (owner : Owner) (started : Bool) : Inv (initial owner started) :=
  ⟨fun h => absurd rfl h, nofun⟩

/-- A step that leaves the strand and the status alone, and the frame thread leaving if it was. -/
theorem Inv.of_frame {s t : State} (hs : Inv s) (hstrand : t.strand = s.strand)
    (hstatus : t.status = s.status)
    (hframe : s.status = .stopping → s.frame.leaving → t.frame.leaving) : Inv t := by
  refine ⟨fun h => ?_, fun h => ?_⟩
  · rw [hstatus]
    exact hs.stopping (hstrand ▸ h)
  · rw [hstrand] at h
    exact hframe (hs.stopping (by rw [h]; exact nofun)) (hs.leaving h)

/-- A handler of the strand other than the reader-idle one runs when no join is going on. -/
theorem Inv.of_idle {s t : State} (hidle : s.strand = .idle) (hstrand : t.strand = s.strand) :
    Inv t :=
  ⟨fun h => absurd (hstrand.trans hidle) h, fun h => nomatch (hstrand.trans hidle).symm.trans h⟩

theorem inv_step {s t : State} {a : Act} (hs : Inv s) (hok : LeavesFirst s a)
    (h : step s a = some t) : Inv t := by
  cases a <;> simp only [step] at h
  case strandRead =>
    split at h
    · rename_i hidle
      split at h <;> cases h
      all_goals exact .of_idle hidle.1 rfl
    · cases h
  case strandFrame f =>
    split at h
    · rename_i hidle
      split at h <;> cases h
      all_goals exact .of_idle hidle.1 rfl
    · cases h
  case strandError =>
    split at h <;> cases h
    rename_i hidle
    exact .of_idle hidle rfl
  case idle =>
    split at h
    · split at h <;> cases h
      · exact ⟨fun _ => rfl, nofun⟩
      · exact hs
    · cases h
  case idleShutdown =>
    split at h <;> cases h
    rename_i hpc
    exact ⟨fun _ => hs.stopping (by rw [hpc]; exact nofun), nofun⟩
  case idleTest =>
    split at h <;> cases h
    rename_i hpc
    refine ⟨fun _ => hs.stopping (by rw [hpc]; exact nofun), fun hjoin => ?_⟩
    dsimp only at hjoin
    split at hjoin <;> cases hjoin
  case idleLock =>
    split at h <;> cases h
    rename_i hpc
    exact ⟨fun _ => hs.stopping (by rw [hpc.1]; exact nofun), nofun⟩
  case idleClear =>
    split at h <;> cases h
    rename_i hpc
    refine ⟨fun _ => hs.stopping (by rw [hpc]; exact nofun), fun hjoin => ?_⟩
    dsimp only at hjoin
    split at hjoin
    · rename_i hlast
      exact hok rfl hlast.1 hlast.2
    · cases hjoin
  case idleJoin =>
    split at h <;> cases h
    rename_i hpc
    exact ⟨fun _ => hs.stopping (by rw [hpc.1]; exact nofun), nofun⟩
  case idleEnd =>
    split at h <;> cases h
    exact ⟨fun h => absurd rfl h, nofun⟩
  case frameTake =>
    split at h
    · cases h
      exact hs.of_frame rfl rfl fun _ _ => rfl
    · rename_i f hf
      split at h <;> cases h
      · refine hs.of_frame rfl rfl fun _ hl => ?_
        -- among the received frames only the close response is on the way out
        rw [hf] at hl
        cases f <;> first | rfl | cases hl
      · rename_i hne
        exact hs.of_frame rfl rfl fun hst => absurd hst hne
    · cases h
  case frameListen =>
    split at h
    · rename_i f hf
      split at h <;> cases h
      rename_i hlisten
      refine hs.of_frame rfl rfl fun _ hl => ?_
      -- the only handler on the way out calls no listener
      obtain rfl : f = .close := by
        rw [hf] at hl
        cases f <;> first | rfl | cases hl
      rw [Owner.listens_close] at hlisten
      cases hlisten
    · cases h
  case frameLock =>
    split at h
    · rename_i f hf
      split at h <;> cases h
      refine hs.of_frame rfl rfl fun _ hl => ?_
      rw [hf] at hl
      cases hl
    · cases h
  case frameUnlock =>
    split at h <;> cases h
    rename_i f hf
    refine hs.of_frame rfl rfl fun _ hl => ?_
    rw [hf] at hl
    cases hl
  case frameDone =>
    split at h <;> cases h
    rename_i f hf
    refine hs.of_frame rfl rfl fun _ hl => ?_
    rw [hf] at hl
    cases f <;> first | rfl | cases hl
  case frameExchange =>
    split at h
    · split at h <;> cases h
      · rename_i hstarted
        -- the status is still `Started`, so the reader-idle handler is not running
        refine ⟨fun _ => rfl, fun hjoin => ?_⟩
        have := hs.stopping (by rw [show s.strand = .joining from hjoin]; exact nofun)
        exact nomatch hstarted.symm.trans this
      · exact hs.of_frame rfl rfl fun _ _ => rfl
    · cases h
  case otherLock =>
    split at h <;> cases h
    exact hs.of_frame rfl rfl fun _ => id
  case otherUnlock =>
    split at h <;> cases h
    exact hs.of_frame rfl rfl fun _ => id
  case borrow =>
    split at h <;> cases h
    exact hs.of_frame rfl rfl fun _ => id
  case take =>
    split at h <;> cases h
    exact hs.of_frame rfl rfl fun _ => id
  case release =>
    split at h <;> cases h
    exact hs.of_frame rfl rfl fun _ => id
  case stop =>
    split at h <;> cases h
    exact ⟨fun _ => rfl, hs.leaving⟩
  case ownerStatus b =>
    cases h
    exact hs.of_frame rfl rfl fun _ => id

/-- **The recovery from a heartbeat timeout does not deadlock**, at the end of every run in which the
reader-idle handler drops the last reference to the client only when the frame thread is already on
its way out of its loop. -/
theorem not_deadlocked_of_run {s t : State} {as : List Act} (h0 : machine.Init s)
    (hok : machine.Along LeavesFirst s as) (h : machine.run s as = some t) : ¬t.Deadlocked := by
  have hinit : ∀ {s}, machine.Init s → Inv s := by
    rintro s ⟨owner, started, rfl⟩
    exact inv_initial owner started
  exact (Machine.invariant_along hinit inv_step h0 hok h).not_deadlocked

/-- The reader-idle handler up to the mutex of the owner. -/
def timeout : List Act := [.idle, .idleShutdown, .idleTest, .idleLock]

/-- The theorem at a run in which the connection fails before the timeout: the frame thread has its
exception when the strand starts to join it. -/
theorem not_deadlocked_of_failed :
    ∃ t, machine.run (initial .consumer true)
        ([Act.strandRead, .strandError] ++ timeout ++ [Act.idleClear, .frameTake]) = some t ∧
      t.strand = .joining ∧ ¬t.Deadlocked := by
  have hok : machine.checkAlong LeavesFirst (initial .consumer true)
      ([Act.strandRead, .strandError] ++ timeout ++ [Act.idleClear, .frameTake]) = true := rfl
  exact ⟨_, rfl, rfl, not_deadlocked_of_run ⟨_, _, rfl⟩ (Machine.along_of_check hok) rfl⟩

/-- **The deadlock**: the server goes silent, the frame thread waits for a frame, and the strand
waits for the frame thread. -/
theorem deadlocked_after_timeout : ¬∀ t, machine.Reachable t → ¬t.Deadlocked := by
  intro h
  exact h _ ⟨initial .consumer true, Act.strandRead :: timeout ++ [Act.idleClear], ⟨_, _, rfl⟩, rfl⟩
    ⟨rfl, .inr (.inl rfl)⟩

end Hareflow.Client.Heartbeat
