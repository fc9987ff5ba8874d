import Hareflow.Client.Publish
import Hareflow.Producer.Recovery

/-!
# The frame limit of the accumulator

`start()` hands the maximum frame size of its client to the accumulator, which refuses what would not
fit into a frame. `reconnect_to_server` does not: after a recovery the accumulator goes by the limit of
the first connection, whatever the new one has negotiated. A greater limit than that of the connection
lets messages in that no connection will carry, a smaller one refuses messages that would be carried.

* `Limited` is the invariant: the accumulator has the limit of the client with the number 0, which is
  the client of `start()`.
* `Accepts` and `Carries` are what the accumulator lets in and what a connection lets out. Even under
  one limit the two differ by the length prefix of four bytes.
-/

namespace Hareflow.Producer.Recovery

open Foundations Wire

variable {s t : State}

/-- Past the early return of `reconnect_to_server`, and before the end of its `catch` block. -/
def ReconnectPc.recovers : ReconnectPc → Bool
  | .idle | .checking => false
  | _ => true

/-- The client of `reconnect_to_server`. -/
def ReconnectPc.client : ReconnectPc → Option ℕ
  | .created c | .started c | .declared c => some c
  | _ => none

/-- `start()` has set the limit of the accumulator. -/
def StartPc.limits : StartPc → Bool
  | .started _ | .declared _ | .returned => true
  | _ => false

/-- What the limit of the accumulator depends on. -/
structure Limits where
  status : Status
  created : ℕ
  maxFrameSize : ℕ → UInt32
  accumulatorMaxFrameSize : UInt32
  start : StartPc
  reconnect : ReconnectPc

def State.limits (s : State) : Limits :=
  ⟨s.status, s.created, s.maxFrameSize, s.accumulatorMaxFrameSize, s.start, s.reconnect⟩

/-- The accumulator has the limit of the client of `start()`, which is the first one. -/
structure Limited (x : Limits) : Prop where
  started : x.status = .started → x.start = .returned
  recovers : x.reconnect.recovers = true → x.start = .returned
  fresh : x.start = .idle ∨ x.start = .entered → x.created = 0
  first : ∀ c, x.start.client = some c → c = 0
  created : x.start.locks = true ∨ x.start = .returned → 0 < x.created
  later : ∀ c, x.reconnect.client = some c → 0 < c
  limit : x.start.limits = true → x.accumulatorMaxFrameSize = x.maxFrameSize 0

namespace Limited

theorem initial : Limited initial.limits := by
  refine ⟨?_, ?_, ?_, ?_, ?_, ?_, ?_⟩ <;>
    simp [State.limits, Recovery.initial, ReconnectPc.recovers, ReconnectPc.client, StartPc.client,
      StartPc.locks, StartPc.limits]

/-- `reconnect_to_server` leaves, or stays where it has no client. -/
theorem setReconnect {x : Limits} (hx : Limited x) {pc : ReconnectPc}
    (hrecovers : pc.recovers = true → x.start = .returned)
    (hclient : ∀ c, pc.client = some c → 0 < c) : Limited { x with reconnect := pc } :=
  ⟨hx.started, hrecovers, hx.fresh, hx.first, hx.created, hclient, hx.limit⟩

/-- `start()` moves, and the status with it, while there is no client of another. -/
theorem setStart {x : Limits} (hx : Limited x) {pc : StartPc} {status : Status}
    (hold : x.start ≠ .returned) (hstarted : status = .started → pc = .returned)
    (hfresh : pc = .idle ∨ pc = .entered → x.created = 0)
    (hfirst : ∀ c, pc.client = some c → c = 0)
    (hcreated : pc.locks = true ∨ pc = .returned → 0 < x.created)
    (hlimit : pc.limits = true → x.accumulatorMaxFrameSize = x.maxFrameSize 0) :
    Limited { x with start := pc, status := status } := by
  refine ⟨hstarted, fun h => ?_, hfresh, hfirst, hcreated, hx.later, hlimit⟩
  exact absurd (hx.recovers h) hold

/-- `reconnect_to_server` returns. -/
theorem leave {x : Limits} (hx : Limited x) : Limited { x with reconnect := .idle } :=
  hx.setReconnect (by simp [ReconnectPc.recovers]) (by simp [ReconnectPc.client])

/-- `start()` throws. -/
theorem threw {x : Limits} (hx : Limited x) (hold : x.start ≠ .returned) :
    Limited { x with start := .threw } :=
  hx.setStart hold (fun hst => absurd (hx.started hst) hold) (by simp)
    (by simp [StartPc.client]) (by simp [StartPc.locks, StartPc.client]) (by simp [StartPc.limits])

theorem step {a : Act} (hs : Limited s.limits) (h : step s a = some t) : Limited t.limits := by
  cases move_of_step h with
  | start hidle =>
    have hfresh : s.limits.created = 0 := hs.fresh (.inl hidle)
    exact hs.setStart (by simp [State.limits, hidle]) (by simp) (fun _ => hfresh)
      (by simp [StartPc.client]) (by simp [StartPc.locks, StartPc.client]) (by simp [StartPc.limits])
  | startRefused hpc | startLate hpc => exact hs.threw (by simp [State.limits, hpc])
  | startStore hentered =>
    have hold : s.limits.start ≠ .returned := by simp [State.limits, hentered]
    have hfresh : s.created = 0 := hs.fresh (.inr hentered)
    refine ⟨fun hst => absurd (hs.started hst) hold, fun hr => absurd (hs.recovers hr) hold,
      by simp [State.limits, State.create], ?_, fun _ => Nat.succ_pos _, hs.later,
      by simp [State.limits, State.create, StartPc.limits]⟩
    intro c hc
    have hc' : some s.created = some c := hc
    simpa [hfresh] using hc'.symm
  | @startClient c m hstored =>
    have hold : s.limits.start ≠ .returned := by simp [State.limits, hstored]
    obtain rfl : c = 0 := hs.first c (by simp [State.limits, hstored, StartPc.client])
    have hcreated : 0 < s.created :=
      hs.created (.inl (by simp [State.limits, hstored, StartPc.locks, StartPc.client]))
    refine ⟨fun hst => absurd (hs.started hst) hold, fun hr => absurd (hs.recovers hr) hold,
      by simp [State.limits, State.startClient], ?_, fun _ => hcreated, hs.later, fun _ => ?_⟩
    · intro c hc
      have hc' : some 0 = some c := hc
      exact (Option.some.inj hc').symm
    · simp [State.limits, State.startClient]
  | @startDeclare c hstarted =>
    have hold : s.limits.start ≠ .returned := by simp [State.limits, hstarted]
    have hclient : s.limits.start.client = some c := by
      simp [State.limits, hstarted, StartPc.client]
    refine hs.setStart hold (fun hst => absurd (hs.started hst) hold) (by simp)
      (fun c' hc' => hs.first c' (hclient.trans hc')) (fun _ => hs.created (.inl ?_))
      (fun _ => hs.limit ?_)
    · simp [StartPc.locks, hclient]
    · simp [State.limits, hstarted, StartPc.limits]
  | startExchange hdeclared =>
    refine hs.setStart (by simp [State.limits, hdeclared]) (fun _ => rfl) (by simp)
      (by simp [StartPc.client]) (fun _ => hs.created (.inl ?_)) (fun _ => hs.limit ?_) <;>
      simp [State.limits, hdeclared, StartPc.locks, StartPc.client, StartPc.limits]
  | startThrow hpc =>
    refine hs.threw fun hreturned => ?_
    have hreturned' : s.start = .returned := hreturned
    simp [hreturned'] at hpc
  | reconnect =>
    exact hs.setReconnect (by simp [ReconnectPc.recovers]) (by simp [ReconnectPc.client])
  | reconnectGo _ _ hstatus =>
    exact hs.setReconnect (fun _ => hs.started hstatus) (by simp [ReconnectPc.client])
  | reconnectCreate hpc =>
    have hreturned : s.start = .returned :=
      hs.recovers (by simp [State.limits, hpc, ReconnectPc.recovers])
    refine ⟨hs.started, fun _ => hreturned, ?_, hs.first, fun _ => Nat.succ_pos _, fun c hc => ?_,
      hs.limit⟩
    · simp [State.limits, State.create, hreturned]
    · have hc' : some s.created = some c := hc
      rw [← Option.some.inj hc']
      exact hs.created (.inr hreturned)
  | @reconnectClient c m hpc =>
    have hlater : 0 < c := hs.later c (by simp [State.limits, hpc, ReconnectPc.client])
    refine ⟨hs.started, fun _ => hs.recovers ?_, hs.fresh, hs.first, hs.created, fun c' hc' => ?_,
      fun hlimits => ?_⟩
    · simp [State.limits, hpc, ReconnectPc.recovers]
    · have hc : some c = some c' := hc'
      rwa [← Option.some.inj hc]
    · -- another client than the first one negotiates
      refine (hs.limit hlimits).trans ?_
      simp [State.limits, State.startClient, hlater.ne]
  | reconnectDeclare hpc =>
    refine hs.setReconnect (fun _ => hs.recovers ?_) fun c' hc' => hs.later c' ?_
    · simp [State.limits, hpc, ReconnectPc.recovers]
    · rw [State.limits, hpc]
      exact hc'
  | reconnectThrow deleted hpc =>
    refine hs.setReconnect (fun _ => hs.recovers ?_) (by simp [ReconnectPc.client])
    obtain hpc | ⟨c, hpc | hpc | hpc⟩ := hpc <;> simp [State.limits, hpc, ReconnectPc.recovers]
  | reconnectEarly | reconnectStore | reconnectLate | reconnectGone | reconnectRetry => exact hs.leave
  | deletedExchange =>
    exact ⟨by simp [State.limits], hs.recovers, hs.fresh, hs.first, hs.created, hs.later, hs.limit⟩
  | shutdown | shutdownWait | shutdownIgnore | shutdownHandle | metadataUpdate | tickReconnect
  | tickDelayed | tickDeleted | delayed | delayedTake | delayedLate | delayedEnd | deleted => exact hs

theorem of_reachable (h : machine.Reachable t) : Limited t.limits := by
  obtain ⟨_, as, rfl, hrun⟩ := h
  exact Machine.run_keeps (M := machine) (P := fun s => Limited s.limits) (fun hs h => hs.step h)
    initial hrun

/-- A started producer accumulates under the limit of its first client. -/
theorem eq_first (hs : Limited s.limits) (hstarted : s.status = .started) :
    s.accumulatorMaxFrameSize = s.maxFrameSize 0 := by
  refine hs.limit ?_
  rw [hs.started hstarted]
  rfl

end Limited

/-! ## What is let in and what is let out -/

open PublishCommand (Message baseSerializedSize)

/-- The size check of `add` lets the message in; it depends on the limit of the accumulator only. -/
def Accepts (maxFrameSize : UInt32) (m : Message) : Prop :=
  (Accumulator.mk 0 maxFrameSize [] false).checkSize m.publishingId m.body = none

instance (maxFrameSize : UInt32) (m : Message) : Decidable (Accepts maxFrameSize m) :=
  inferInstanceAs (Decidable (_ = _))

/-- `send_frame` lets a publish command with the message out. -/
def Carries (maxFrameSize : UInt32) (publisherId : UInt8) (m : Message) : Prop :=
  ∃ b, Client.sendFrame maxFrameSize (PublishCommand.mk publisherId [m]).toSerializable = .ok b

theorem accepts_iff {maxFrameSize : UInt32} {m : Message} : Accepts maxFrameSize m ↔
    (0 < maxFrameSize.toNat → baseSerializedSize + m.serializedSize ≤ maxFrameSize.toNat) :=
  Accumulator.checkSize_eq_none

/-- The length prefix counts here, and the length of a blob is limited. -/
theorem carries_iff {maxFrameSize : UInt32} {publisherId : UInt8} {m : Message} :
    Carries maxFrameSize publisherId m ↔ m.body.length ≤ int32Max ∧
      (0 < maxFrameSize.toNat → baseSerializedSize + m.serializedSize + 4 ≤ maxFrameSize.toNat) := by
  have hsize := m.serializedSize_eq
  have hbase : baseSerializedSize = 9 := rfl
  rw [Carries, Client.sendFrame_publish_isOk_iff_frameFits]
  simp only [Client.FrameFits, GreedyCut.weight_cons, GreedyCut.weight_nil, Nat.add_zero,
    List.mem_singleton, forall_eq]
  constructor
  · rintro ⟨⟨hmax, -⟩, hbody⟩
    exact ⟨hbody, hmax⟩
  · rintro ⟨hbody, hmax⟩
    refine ⟨⟨hmax, ?_⟩, hbody⟩
    simp only [int32Max, uint32Max] at *
    omega

/-- **When the limit of the accumulator is that of the connection**: in a started producer with a
client, exactly if the client has negotiated what the client of `start()` had. Under one limit every
message that the connection carries is let in, and a message that is let in is carried exactly if it
leaves room for the length prefix and fits into a blob. -/
theorem accumulatorMaxFrameSize_eq_iff (hs : machine.Reachable t) (hstarted : t.status = .started) :
    ∀ c, t.client = some c →
      (t.accumulatorMaxFrameSize = t.maxFrameSize c ↔ t.maxFrameSize c = t.maxFrameSize 0) ∧
      (t.accumulatorMaxFrameSize = t.maxFrameSize c → ∀ publisherId m,
        (Carries (t.maxFrameSize c) publisherId m → Accepts t.accumulatorMaxFrameSize m) ∧
        (Accepts t.accumulatorMaxFrameSize m → (Carries (t.maxFrameSize c) publisherId m ↔
          m.body.length ≤ int32Max ∧ (0 < (t.maxFrameSize c).toNat →
            baseSerializedSize + m.serializedSize + 4 ≤ (t.maxFrameSize c).toNat)))) := by
  intro c _
  rw [(Limited.of_reachable hs).eq_first hstarted]
  refine ⟨eq_comm, fun hlimit publisherId m => ⟨fun hcarries => ?_, fun _ => carries_iff⟩⟩
  rw [hlimit, accepts_iff]
  intro hpos
  have := (carries_iff.1 hcarries).2 hpos
  omega

/-- The theorem after a recovery that negotiates the same limit. -/
theorem accumulatorMaxFrameSize_eq_of_same :
    ∃ t, machine.run initial (starting ++ Act.startExchange :: recoveringWith 100) = some t ∧
      t.status = .started ∧ t.client = some 1 ∧ t.accumulatorMaxFrameSize = t.maxFrameSize 1 := by
  refine ⟨_, rfl, rfl, rfl, ?_⟩
  exact (accumulatorMaxFrameSize_eq_iff
    ⟨initial, starting ++ Act.startExchange :: recoveringWith 100, rfl, rfl⟩ rfl 1 rfl).1.2 rfl

/-- **The limit is stale after a recovery**: the first client has negotiated 100 bytes and the new one
50; a message with a body of 40 bytes is let in, and the connection does not carry it. -/
theorem stale_after_recovery :
    ∃ t, machine.run initial (starting ++ Act.startExchange :: recoveringWith 50) = some t ∧
      t.status = .started ∧ t.client = some 1 ∧ t.accumulatorMaxFrameSize = 100 ∧
      t.maxFrameSize 1 = 50 ∧ Accepts t.accumulatorMaxFrameSize ⟨0, List.replicate 40 0⟩ ∧
      ∀ publisherId, ¬Carries (t.maxFrameSize 1) publisherId ⟨0, List.replicate 40 0⟩ := by
  refine ⟨_, rfl, rfl, rfl, rfl, rfl, by decide, fun publisherId hcarries => ?_⟩
  exact absurd ((carries_iff.1 hcarries).2 (by decide)) (by decide)

end Hareflow.Producer.Recovery
