import Hareflow.Producer.Machine
import Hareflow.Producer.Recovery

/-!
# The two machines of a producer

The recovery of a producer occurs in two machines. That of `Producer.Recovery` has `start()` and the
tasks with their timers, and no messages. That of `Producer.Machine` begins where `start()` has
returned and has the messages, the frame threads of the clients and `stop()`; a task of it may run
whenever it is not running.

So the second one lets the recovery do more, and everything that holds of all its runs holds of those
in which the tasks run when they are scheduled: `reachable_of_recovery` says that a started producer
is, after every run of the first machine, in a state that the second one reaches too, with the same
client and with its tasks at the same places. The frame threads of the clients that are given up leave
their loops then.
-/

namespace Hareflow.Producer

open Foundations

/-- The places of `reconnect_to_server`. The second machine has no step between the creation and the
start of a client, and has stopped the client already if it could not be started. -/
def Recovery.ReconnectPc.Matches : Recovery.ReconnectPc → Producer.ReconnectPc → Prop
  | .idle, q => q = .idle
  | .checking, q => q = .checking
  | .connecting, q => q = .connecting
  | .created c, q | .started c, q => q = .started c
  | .declared c, q => q = .declared c
  | .failed _, q => q = .idle ∨ ∃ c, q = .failed c

/-- The places of `delayed_reconnect`. -/
def Recovery.DelayedPc.Matches : Recovery.DelayedPc → Producer.DelayedPc → Prop
  | .idle, q => q = .idle
  | .checking, q => q = .checking
  | .taken, q => ∃ client, q = .taken client

/-- A started producer in both machines. -/
structure Tracks (r : Recovery.State) (s : State) : Prop where
  status : r.status = .started
  start : r.start = .returned
  stopping : r.stopping = false
  stage : s.stage = .running
  batch : s.batch = none
  destroyed : ∀ task, s.destroyed task = false
  client : s.client = r.client
  created : s.created = r.created
  waiting : ∀ c, r.shutdown c = .waiting → s.shutdown c = .waiting
  quiet : ∀ c, r.shutdown c = .none ∨ r.shutdown c = .called → s.shutdown c = .none
  reconnect : r.reconnect.Matches s.reconnect
  delayed : r.delayed.Matches s.delayed
  /-- A client that is not created yet does nothing. -/
  fresh : ∀ c, r.created ≤ c → r.phase c = .absent ∧ r.shutdown c = .none
  frames : ∀ c < s.created, s.frames c = .reading ∨ s.frames c = .left
  clients : ∀ c, s.client = some c ∨ s.reconnect.client = some c ∨ s.delayed = .taken (some c) →
    c < s.created

section Steps

variable {cfg : Config} {r r' : Recovery.State} {s : State} {c : ℕ}

theorem Tracks.unlocked (h : Tracks r s) : s.unlocked = true :=
  State.unlocked_iff.2 ⟨h.batch, by rw [h.stage]; rfl⟩

/-- The frame thread of a client, if there is one, leaves its loop. -/
theorem Tracks.leave (cfg : Config) (h : Tracks r s) {client : Option ℕ}
    (hc : ∀ c, client = some c → c < s.created) :
    ∃ frames, (machine cfg).Leads s { s with frames := frames } ∧
      Tracks r { s with frames := frames } ∧ ∀ c, client = some c → frames c = .left := by
  cases client with
  | none => exact ⟨s.frames, Machine.Leads.refl s, h, nofun⟩
  | some c =>
    obtain hreading | hleft := h.frames c (hc c rfl)
    · refine ⟨Function.update s.frames c .left, Machine.Leads.step (a := .frame (.leave c)) ?_,
        { h with frames := fun c' hc' => ?_ }, fun c' hc' => ?_⟩
      · exact if_pos hreading
      · show Function.update s.frames c .left c' = .reading ∨
          Function.update s.frames c .left c' = .left
        by_cases hcc : c' = c
        · rw [hcc, Function.update_self]
          exact .inr rfl
        · rw [Function.update_of_ne hcc]
          exact h.frames c' hc'
      · obtain rfl := Option.some.inj hc'
        exact Function.update_self ..
    · refine ⟨s.frames, Machine.Leads.refl s, h, fun c' hc' => ?_⟩
      obtain rfl := Option.some.inj hc'
      exact hleft

theorem eq_of_update {α : Type} {f : ℕ → α} {c c' : ℕ} {x y : α}
    (h : Function.update f c x c' = y) : c' = c ∧ x = y ∨ c' ≠ c ∧ f c' = y := by
  by_cases hc : c' = c
  · subst hc
    exact .inl ⟨rfl, (Function.update_self ..).symm.trans h⟩
  · exact .inr ⟨hc, (Function.update_of_ne hc ..).symm.trans h⟩

theorem Tracks.lt_created (h : Tracks r s) (hc : r.phase c ≠ .absent ∨ r.shutdown c ≠ .none) :
    c < s.created := by
  rw [h.created]
  by_contra hle
  obtain ⟨hphase, hshutdown⟩ := h.fresh c (Nat.le_of_not_lt hle)
  exact hc.elim (fun hne => hne hphase) fun hne => hne hshutdown

/-- A call of `handle_shutdown` moves on. -/
theorem Tracks.setShutdown (h : Tracks r s) (hc : c < s.created) {x : Recovery.Shutdown} {y : Shutdown}
    (hwaiting : x = .waiting → y = .waiting) (hquiet : x = .none ∨ x = .called → y = .none) :
    Tracks (r.setShutdown c x) (s.setShutdown c y) := by
  refine { h with waiting := fun c' hc' => ?_, quiet := fun c' hc' => ?_, fresh := fun c' hle => ?_ }
  · show Function.update s.shutdown c y c' = .waiting
    obtain ⟨rfl, hx⟩ | ⟨hne, hold⟩ := eq_of_update hc'
    · rw [Function.update_self]
      exact hwaiting hx
    · rw [Function.update_of_ne hne]
      exact h.waiting c' hold
  · show Function.update s.shutdown c y c' = .none
    by_cases hcc : c' = c
    · subst hcc
      have hx : Function.update r.shutdown c' x c' = x := Function.update_self ..
      rw [Function.update_self]
      exact hquiet (hc'.imp hx.symm.trans hx.symm.trans)
    · have hold : Function.update r.shutdown c x c' = r.shutdown c' := Function.update_of_ne hcc ..
      rw [Function.update_of_ne hcc]
      exact h.quiet c' (hc'.imp hold.symm.trans hold.symm.trans)
  · rw [h.created] at hc
    have hne : c' ≠ c := Nat.ne_of_gt (Nat.lt_of_lt_of_le hc hle)
    exact ⟨(h.fresh c' hle).1, (Function.update_of_ne hne ..).trans (h.fresh c' hle).2⟩

/-- The client is taken away from the producer. -/
theorem Tracks.clear (h : Tracks r s) : Tracks { r with client := none } { s with client := none } :=
  { h with
    client := rfl
    clients := fun c hc => h.clients c (.inr (hc.resolve_left nofun)) }

/-- A client goes on in one of its phases. -/
theorem Tracks.setPhase (h : Tracks r s) (hc : c < r.created) (phase : Recovery.Phase)
    (maxFrameSize : ℕ → UInt32) :
    Tracks { r with phase := Function.update r.phase c phase, maxFrameSize := maxFrameSize } s := by
  refine { h with fresh := fun c' hle => ⟨?_, (h.fresh c' hle).2⟩ }
  have hne : c' ≠ c := Nat.ne_of_gt (Nat.lt_of_lt_of_le hc hle)
  exact (Function.update_of_ne hne ..).trans (h.fresh c' hle).1

/-- `reconnect_to_server` moves in both machines. -/
theorem Tracks.setReconnect (h : Tracks r s) {pc : Recovery.ReconnectPc} {q : ReconnectPc} {u v : Task}
    (hq : pc.Matches q) (hclient : ∀ c, q.client = some c → c < s.created) :
    Tracks { r with reconnect := pc, reconnectTask := u, streamDeletedTask := v }
      { s with reconnect := q } :=
  { h with
    reconnect := hq
    clients := fun c hc => hc.elim (fun hc => h.clients c (.inl hc)) fun hc =>
      hc.elim (hclient c) fun hc => h.clients c (.inr (.inr hc)) }

/-- It moves to a place where it has no client. -/
theorem Tracks.moveReconnect (h : Tracks r s) {pc : Recovery.ReconnectPc} {q : ReconnectPc} {u v : Task}
    (hq : pc.Matches q) (hnone : q.client = none) :
    Tracks { r with reconnect := pc, reconnectTask := u, streamDeletedTask := v }
      { s with reconnect := q } :=
  h.setReconnect hq fun c hc => by
    rw [hnone] at hc
    cases hc

/-- `delayed_reconnect` moves in both machines. -/
theorem Tracks.setDelayed (h : Tracks r s) {pc : Recovery.DelayedPc} {q : DelayedPc} {u v : Task}
    (hq : pc.Matches q) (hclient : ∀ c, q = .taken (some c) → c < s.created) :
    Tracks { r with delayed := pc, delayedReconnectTask := u, reconnectTask := v }
      { s with delayed := q } :=
  { h with
    delayed := hq
    clients := fun c hc => hc.elim (fun hc => h.clients c (.inl hc)) fun hc =>
      hc.elim (fun hc => h.clients c (.inr (.inl hc))) (hclient c) }

/-- A new client comes into being, and its frame thread with it. -/
theorem Tracks.create (h : Tracks r s) :
    Tracks { r.create with reconnect := .created r.created }
      { s.setFrame s.created .reading with
        created := s.created + 1
        reconnect := .started s.created } where
  status := h.status
  start := h.start
  stopping := h.stopping
  stage := h.stage
  batch := h.batch
  destroyed := h.destroyed
  client := h.client
  created := congrArg (· + 1) h.created
  waiting := h.waiting
  quiet := h.quiet
  reconnect := congrArg ReconnectPc.started h.created
  delayed := h.delayed
  fresh c hle := by
    have hne : c ≠ r.created := Nat.ne_of_gt hle
    have hfresh := h.fresh c (Nat.le_of_succ_le hle)
    exact ⟨(Function.update_of_ne hne ..).trans hfresh.1, hfresh.2⟩
  frames c hc := by
    show Function.update s.frames s.created .reading c = .reading ∨
      Function.update s.frames s.created .reading c = .left
    by_cases hcc : c = s.created
    · rw [hcc, Function.update_self]
      exact .inl rfl
    · rw [Function.update_of_ne hcc]
      exact h.frames c (Nat.lt_of_le_of_ne (Nat.le_of_lt_succ hc) hcc)
  clients c hc := by
    obtain hc | hc | hc := hc
    · exact Nat.lt_succ_of_lt (h.clients c (.inl hc))
    · obtain rfl := Option.some.inj hc
      exact Nat.lt_succ_self _
    · exact Nat.lt_succ_of_lt (h.clients c (.inr (.inr hc)))

/-- The client of `reconnect_to_server` is stored. -/
theorem Tracks.install (h : Tracks r s) (hc : c < s.created) (ms : List AccumulatedMessage) (u : Task) :
    Tracks { r with client := some c, reconnect := .idle, reconnectTask := u }
      { s.write c ms with client := some c, reconnect := .idle } := by
  refine { h with client := rfl, reconnect := rfl, clients := fun c' hc' => ?_ }
  obtain hc' | hc' | hc' := hc'
  · obtain rfl := Option.some.inj hc'
    exact hc
  · cases hc'
  · exact h.clients c' (.inr (.inr hc'))

/-- The second machine answers with one step. -/
theorem leads_step {a : Act} {t : State} (h : step cfg s a = some t) (ht : Tracks r' t) :
    ∃ t, (machine cfg).Leads s t ∧ Tracks r' t :=
  ⟨t, Machine.Leads.step h, ht⟩

/-- It answers with nothing. -/
theorem leads_still (ht : Tracks r' s) : ∃ t, (machine cfg).Leads s t ∧ Tracks r' t :=
  ⟨s, Machine.Leads.refl s, ht⟩

/-- The `catch` block of `reconnect_to_server`: a client that was started is stopped first. -/
theorem Tracks.catches (cfg : Config) (h : Tracks r s) {u v : Task} {deleted : Bool}
    (hpc : r.reconnect = .failed deleted) :
    ∃ s', (machine cfg).Leads s s' ∧
      Tracks { r with reconnect := .idle, reconnectTask := u, streamDeletedTask := v } s' := by
  have hmatches := h.reconnect
  rw [hpc] at hmatches
  obtain hq | ⟨c, hq⟩ : s.reconnect = .idle ∨ ∃ c, s.reconnect = .failed c := hmatches
  · exact leads_still { h with reconnect := hq }
  · have hclient : s.reconnect.client = some c := by rw [hq]; rfl
    obtain ⟨frames, hleads, htracks, hleft⟩ := h.leave cfg fun c' hc' =>
      h.clients c' (.inr (.inl (hclient.trans hc')))
    refine ⟨_, hleads.tail (a := .reconnect .stop) ?_, htracks.moveReconnect (q := .idle) rfl rfl⟩
    simp [machine, Producer.step, stepReconnect, hq, hleft c rfl]

/-- `start()` has returned. -/
theorem Tracks.start_ne (h : Tracks r s) {pc : Recovery.StartPc} (hne : pc ≠ .returned) :
    r.start ≠ pc := by
  rw [h.start]
  exact hne.symm

theorem Tracks.step (cfg : Config) {a : Recovery.Act} (h : Tracks r s)
    (hstep : Recovery.step r a = some r') :
    r'.stopping = true ∨ ∃ s', (machine cfg).Leads s s' ∧ Tracks r' s' := by
  have hreconnect {pc : Recovery.ReconnectPc} (hpc : r.reconnect = pc) : pc.Matches s.reconnect :=
    hpc ▸ h.reconnect
  have hdelayed {pc : Recovery.DelayedPc} (hpc : r.delayed = pc) : pc.Matches s.delayed :=
    hpc ▸ h.delayed
  cases Recovery.move_of_step hstep with
  | start hpc | startRefused hpc | startStore hpc | startClient m hpc | startDeclare hpc
  | startExchange hpc | startLate hpc => exact absurd hpc (h.start_ne (by simp))
  | startThrow hpc =>
    obtain hpc | ⟨c, hpc | hpc⟩ := hpc
    all_goals exact absurd hpc (h.start_ne (by simp))
  | @shutdown c hdeclared hnone =>
    have hlt := h.lt_created (c := c) (.inl (by simp [hdeclared]))
    have hquiet := h.quiet c (.inl hnone)
    have htracks := h.setShutdown (c := c) (x := .called) (y := .none) hlt (by simp) fun _ => rfl
    refine .inr (leads_still ?_)
    rw [State.setShutdown, ← hquiet, Function.update_eq_self] at htracks
    exact htracks
  | @shutdownWait c hcalled _ =>
    have hlt := h.lt_created (c := c) (.inr (by simp [hcalled]))
    refine .inr (leads_step (a := .shutdown (.call c)) ?_
      (h.setShutdown (y := .waiting) hlt (fun _ => rfl) (by simp)))
    simp [Producer.step, stepShutdown, hlt, h.quiet c (.inr hcalled), h.stage]
  | @shutdownHandle c hwaiting _ =>
    have hlt := h.lt_created (c := c) (.inr (by simp [hwaiting]))
    -- the frame thread of the client in service leaves its loop before the client is dropped
    obtain ⟨frames, hleads, htracks, hleft⟩ := h.leave cfg fun b hb => h.clients b (.inl hb)
    have hdroppable : s.client.all (State.droppable { s with frames := frames }) = true := by
      cases hclient : s.client with
      | none => rfl
      | some b => simp [State.droppable, hleft b hclient]
    have hcleared := (htracks.setShutdown (c := c) (x := .returned) (y := .returned) hlt (by simp)
      (by simp)).clear
    refine .inr ⟨_, hleads.tail (a := .shutdown (.handle c)) ?_, { hcleared with }⟩
    exact if_pos ⟨h.waiting c hwaiting, htracks.unlocked, hdroppable⟩
  | metadataUpdate | tickReconnect | tickDelayed | tickDeleted => exact .inr (leads_still { h with })
  | reconnect hidle _ =>
    have hq : s.reconnect = .idle := hreconnect hidle
    refine .inr (leads_step (a := .reconnect .enter) ?_ (h.moveReconnect (q := .checking) rfl rfl))
    simp [Producer.step, stepReconnect, h.destroyed, hq]
  | reconnectEarly hchecking hearly =>
    have hq : s.reconnect = .checking := hreconnect hchecking
    have hclient : s.client ≠ none := by
      rw [h.client]
      exact hearly.resolve_right fun hne => hne h.status
    refine .inr (leads_step (a := .reconnect .check) ?_ (h.moveReconnect (q := .idle) rfl rfl))
    simp [Producer.step, stepReconnect, hq, h.unlocked, hclient]
  | reconnectGo hchecking hnone _ =>
    have hq : s.reconnect = .checking := hreconnect hchecking
    have hclient : s.client = none := h.client.trans hnone
    refine .inr (leads_step (a := .reconnect .check) ?_ (h.moveReconnect (q := .connecting) rfl rfl))
    simp [Producer.step, stepReconnect, hq, h.unlocked, hclient, h.stage]
  | reconnectCreate hconnecting =>
    have hq : s.reconnect = .connecting := hreconnect hconnecting
    exact .inr (leads_step (a := .reconnect .connect) (if_pos hq) h.create)
  | @reconnectClient c m hcreated =>
    have hq : s.reconnect = .started c := hreconnect hcreated
    have hlt := h.clients c (.inr (.inl (by simp [hq, ReconnectPc.client])))
    rw [h.created] at hlt
    exact .inr (leads_still { h.setPhase hlt .started (Function.update r.maxFrameSize c m) with
      reconnect := hq })
  | @reconnectDeclare c hstarted =>
    have hq : s.reconnect = .started c := hreconnect hstarted
    have hlt := h.clients c (.inr (.inl (by simp [hq, ReconnectPc.client])))
    have htracks := h.setPhase (h.created ▸ hlt) .declared r.maxFrameSize
    refine .inr (leads_step (a := .reconnect .declare) ?_
      (htracks.setReconnect (q := .declared c) rfl fun c' hc' => ?_))
    · simp [Producer.step, stepReconnect, hq]
    · obtain rfl := Option.some.inj hc'
      exact hlt
  | @reconnectStore c hdeclared _ _ =>
    have hq : s.reconnect = .declared c := hreconnect hdeclared
    have hlt := h.clients c (.inr (.inl (by simp [hq, ReconnectPc.client])))
    have hrun : (machine cfg).run s [.reconnect (.resend none), .reconnect .finish] = some
        { s.write c (resendBatches cfg.batchSize s.unconfirmed.sorted []).flatten with
          client := some c
          reconnect := .idle } := by
      simp [Machine.run, machine, Producer.step, stepReconnect, hq, h.unlocked, h.stage, writtenPart]
    exact .inr ⟨_, ⟨_, hrun⟩, h.install hlt _ _⟩
  | shutdownIgnore _ hstatus | reconnectLate _ hstatus | delayedLate _ hstatus =>
    exact absurd h.status hstatus
  | reconnectThrow deleted hpc =>
    have hfailed {c : ℕ} (hc : s.reconnect.client = some c) : Tracks
        { r with reconnect := .failed deleted } { s with reconnect := .failed c } :=
      h.setReconnect (.inr ⟨c, rfl⟩) fun c' hc' => h.clients c' (.inr (.inl (hc.trans hc')))
    obtain hpc | ⟨c, hpc | hpc | hpc⟩ := hpc
    · have hq : s.reconnect = .connecting := hreconnect hpc
      have hidle : Tracks { r with reconnect := .failed deleted } { s with reconnect := .idle } :=
        h.moveReconnect (.inl rfl) rfl
      refine .inr (leads_step (a := .reconnect .throw) ?_ hidle)
      simp [Producer.step, stepReconnect, hq]
    · have hq : s.reconnect = .started c := hreconnect hpc
      refine .inr (leads_step (a := .reconnect .throw) ?_ (hfailed (by rw [hq]; rfl)))
      simp [Producer.step, stepReconnect, hq]
    · have hq : s.reconnect = .started c := hreconnect hpc
      refine .inr (leads_step (a := .reconnect .throw) ?_ (hfailed (by rw [hq]; rfl)))
      simp [Producer.step, stepReconnect, hq]
    · have hq : s.reconnect = .declared c := hreconnect hpc
      refine .inr (leads_step (a := .reconnect (.resend (some 0)))
        (t := { s.write c [] with reconnect := .failed c }) ?_
        { hfailed (c := c) (by rw [hq]; rfl) with })
      simp [Producer.step, stepReconnect, hq, h.unlocked, h.stage, writtenPart]
  | reconnectGone hfailed | reconnectRetry hfailed => exact .inr (h.catches cfg hfailed)
  | delayed hidle _ =>
    have hq : s.delayed = .idle := hdelayed hidle
    refine .inr (leads_step (a := .reconnect .delayed) ?_ (h.setDelayed (q := .checking) rfl (by simp)))
    simp [Producer.step, stepReconnect, h.destroyed, hq]
  | delayedTake hchecking _ _ =>
    have hq : s.delayed = .checking := hdelayed hchecking
    refine .inr (leads_step (a := .reconnect .delayedTake) ?_
      (h.clear.setDelayed (q := .taken s.client) ⟨s.client, rfl⟩ fun c hc => ?_))
    · simp [Producer.step, stepReconnect, hq, h.unlocked, h.stage]
    · exact h.clients c (.inl (DelayedPc.taken.inj hc))
  | delayedEnd htaken =>
    obtain ⟨client, hq⟩ : ∃ client, s.delayed = .taken client := hdelayed htaken
    obtain ⟨frames, hleads, htracks, hleft⟩ := h.leave cfg fun c hc =>
      h.clients c (.inr (.inr (hc ▸ hq)))
    refine .inr ⟨_, hleads.tail (a := .reconnect .delayedStop) ?_,
      htracks.setDelayed (q := .idle) rfl (by simp)⟩
    cases client with
    | none => simp [machine, Producer.step, stepReconnect, hq]
    | some c => simp [machine, Producer.step, stepReconnect, hq, hleft c rfl]
  | deleted => exact .inl rfl
  | deletedExchange hstopping =>
    rw [h.stopping] at hstopping
    cases hstopping

end Steps

/-! ## From the beginning -/

/-- A producer that is not started yet: at most its first client exists, and no task but
`delayed_reconnect` has anything to do. -/
structure Early (r : Recovery.State) : Prop where
  status : r.status ≠ .started
  start : r.start ≠ .returned
  stopping : r.stopping = false
  reconnectTask : r.reconnectTask = .fresh
  streamDeletedTask : r.streamDeletedTask = .fresh
  reconnect : r.reconnect = .idle
  delayed : r.delayed ≠ .taken
  shutdown : ∀ c, r.shutdown c ≠ .waiting
  created : r.start = .idle ∨ r.start = .entered → r.created = 0
  stored : ∀ c, r.start.client = some c → c = 0 ∧ r.created = 1 ∧ r.client = some 0
  fresh : ∀ c, r.created ≤ c → r.phase c = .absent ∧ r.shutdown c = .none

theorem tick_fresh (e : Tick) : Task.fresh.tick e = none := by cases e <;> rfl

section Beginning

variable {cfg : Config} {r r' : Recovery.State} {c : ℕ}

/-- `start()` has reached its end, with `delayed_reconnect` before its critical section or not. -/
theorem Early.tracks (cfg : Config) (h : Early r) (hdeclared : r.start = .declared c) :
    ∃ s, (machine cfg).Reachable s ∧
      Tracks { r with status := .started, start := .returned } s := by
  obtain ⟨-, hcreated, hclient⟩ := h.stored c (by rw [hdeclared]; rfl)
  have htracks {q : DelayedPc} (hq : r.delayed.Matches q) (hnone : ∀ b, q ≠ .taken b) :
      Tracks { r with status := .started, start := .returned } { initial cfg with delayed := q } := by
    refine ⟨rfl, rfl, h.stopping, rfl, rfl, fun _ => rfl, hclient.symm, hcreated.symm,
      fun c hc => absurd hc (h.shutdown c), fun _ _ => rfl, ?_, hq, h.fresh, fun c hc => ?_,
      fun c hc => ?_⟩
    · show r.reconnect.Matches .idle
      rw [h.reconnect]
      rfl
    · exact .inl (if_pos (Nat.lt_one_iff.1 hc))
    · obtain hc | hc | hc := hc
      · obtain rfl := Option.some.inj hc
        exact Nat.one_pos
      · cases hc
      · exact absurd hc (hnone _)
  cases hpc : r.delayed with
  | idle =>
    rw [hpc] at htracks
    exact ⟨initial cfg, ⟨initial cfg, [], rfl, rfl⟩, htracks (q := .idle) rfl nofun⟩
  | checking =>
    rw [hpc] at htracks
    exact ⟨{ initial cfg with delayed := .checking }, ⟨initial cfg, [.reconnect .delayed], rfl, rfl⟩,
      htracks rfl nofun⟩
  | taken => exact absurd hpc h.delayed

/-- `start()` moves on, or fails. -/
theorem Early.setStart (h : Early r) {pc : Recovery.StartPc} {status : Recovery.Status}
    {maxFrameSize : ℕ → UInt32} {limit : UInt32} {phase : ℕ → Recovery.Phase}
    (hpc : pc ≠ .idle ∧ pc ≠ .entered ∧ pc ≠ .returned) (hstatus : status ≠ .started)
    (hstored : ∀ c, pc.client = some c → r.start.client = some c)
    (hphase : ∀ c, r.created ≤ c → phase c = r.phase c) :
    Early { r with
      status := status
      start := pc
      phase := phase
      maxFrameSize := maxFrameSize
      accumulatorMaxFrameSize := limit } :=
  { h with
    status := hstatus
    start := hpc.2.2
    created := fun hc => (hc.elim hpc.1 hpc.2.1).elim
    stored := fun c hc => h.stored c (hstored c hc)
    fresh := fun c hle => ⟨(hphase c hle).trans (h.fresh c hle).1, (h.fresh c hle).2⟩ }

theorem Early.failStart (h : Early r) : Early { r with start := .threw } :=
  h.setStart ⟨nofun, nofun, nofun⟩ h.status nofun fun _ _ => rfl

theorem Early.ne_of_stored (h : Early r) {c' : ℕ} (hc : r.start.client = some c)
    (hle : r.created ≤ c') : c' ≠ c := by
  obtain ⟨rfl, hcreated, -⟩ := h.stored c hc
  omega

theorem Early.setShutdown (h : Early r) (hc : r.phase c ≠ .absent ∨ r.shutdown c ≠ .none)
    {x : Recovery.Shutdown} (hx : x ≠ .waiting) : Early (r.setShutdown c x) := by
  refine { h with shutdown := fun c' hc' => ?_, fresh := fun c' hle => ?_ }
  · obtain ⟨-, hwaiting⟩ | ⟨-, hold⟩ := eq_of_update hc'
    · exact hx hwaiting
    · exact h.shutdown c' hold
  · have hne : c' ≠ c := by
      rintro rfl
      exact hc.elim (fun hne => hne (h.fresh c' hle).1) fun hne => hne (h.fresh c' hle).2
    exact ⟨(h.fresh c' hle).1, (Function.update_of_ne hne ..).trans (h.fresh c' hle).2⟩

theorem Early.step {a : Recovery.Act} (h : Early r) (hstep : Recovery.step r a = some r') :
    Early r' ∨ ∃ s, (machine cfg).Reachable s ∧ Tracks r' s := by
  have hidle {pc : Recovery.ReconnectPc} (hne : pc ≠ .idle) : r.reconnect ≠ pc := by
    rw [h.reconnect]
    exact hne.symm
  cases Recovery.move_of_step hstep with
  | start hpc =>
    exact .inl { h with
      status := by simp
      start := by simp
      created := fun _ => h.created (.inl hpc)
      stored := by simp [Recovery.StartPc.client] }
  | startRefused | startLate | startThrow => exact .inl h.failStart
  | startStore hentered =>
    have hcreated := h.created (.inr hentered)
    refine .inl { h with
      start := by simp
      created := by simp
      stored := fun c hc => ?_
      fresh := fun c hle => ?_ }
    · obtain rfl := Option.some.inj hc
      exact ⟨hcreated, congrArg (· + 1) hcreated, congrArg some hcreated⟩
    · have hle' : r.created + 1 ≤ c := hle
      obtain ⟨hphase, hshutdown⟩ := h.fresh c (by omega)
      exact ⟨(Function.update_of_ne (by omega) ..).trans hphase, hshutdown⟩
  | @startClient c _ hpc | @startDeclare c hpc =>
    have hstored : r.start.client = some c := by rw [hpc]; rfl
    exact .inl (h.setStart (by simp) h.status (fun _ hc => hstored.trans hc)
      fun c' hle => Function.update_of_ne (h.ne_of_stored hstored hle) ..)
  | startExchange hpc => exact .inr (h.tracks cfg hpc)
  | shutdown hdeclared => exact .inl (h.setShutdown (.inl (by simp [hdeclared])) (by simp))
  | shutdownIgnore hcalled => exact .inl (h.setShutdown (.inr (by simp [hcalled])) (by simp))
  | @shutdownHandle c hwaiting => exact absurd hwaiting (h.shutdown c)
  | metadataUpdate | tickDelayed => exact .inl { h with }
  | tickReconnect hu =>
    rw [h.reconnectTask, tick_fresh] at hu
    cases hu
  | tickDeleted hu =>
    rw [h.streamDeletedTask, tick_fresh] at hu
    cases hu
  | reconnect _ hu =>
    rw [h.reconnectTask] at hu
    cases hu
  | deleted hu =>
    rw [h.streamDeletedTask] at hu
    cases hu
  | reconnectEarly hpc | reconnectGo hpc | reconnectCreate hpc | reconnectClient m hpc
  | reconnectDeclare hpc | reconnectLate hpc | reconnectGone hpc | reconnectRetry hpc =>
    exact absurd hpc (hidle (by simp))
  | reconnectThrow _ hpc =>
    obtain hpc | ⟨c, hpc | hpc | hpc⟩ := hpc
    all_goals exact absurd hpc (hidle (by simp))
  | delayed => exact .inl { h with delayed := by simp }
  | delayedLate => exact .inl { h with delayed := by simp [Recovery.State.leaveDelayed] }
  | shutdownWait _ hstatus | reconnectStore _ _ hstatus | delayedTake _ _ hstatus =>
    exact absurd hstatus h.status
  | delayedEnd htaken => exact absurd htaken h.delayed
  | deletedExchange hstopping =>
    rw [h.stopping] at hstopping
    cases hstopping

theorem early_initial : Early Recovery.initial :=
  { status := nofun
    start := nofun
    stopping := rfl
    reconnectTask := rfl
    streamDeletedTask := rfl
    reconnect := rfl
    delayed := nofun
    shutdown := nofun
    created := fun _ => rfl
    stored := nofun
    fresh := fun _ _ => ⟨rfl, rfl⟩ }

/-- The producer stops because its stream is deleted, for good. -/
theorem stopping_step {a : Recovery.Act} (h : r.stopping = true)
    (hstep : Recovery.step r a = some r') : r'.stopping = true := by
  cases Recovery.move_of_step hstep
  case deleted => rfl
  all_goals exact h

/-- The recovery is over, has not begun, or is followed by the machine with the messages. -/
def Followed (cfg : Config) (r : Recovery.State) : Prop :=
  r.stopping = true ∨ Early r ∨ ∃ s, (machine cfg).Reachable s ∧ Tracks r s

theorem Followed.step {a : Recovery.Act} (h : Followed cfg r) (hstep : Recovery.step r a = some r') :
    Followed cfg r' := by
  obtain hstopping | hearly | ⟨s, hs, htracks⟩ := h
  · exact .inl (stopping_step hstopping hstep)
  · exact .inr (hearly.step hstep)
  · obtain hstopping | ⟨s', hleads, htracks'⟩ := htracks.step cfg hstep
    · exact .inl hstopping
    · exact .inr (.inr ⟨s', hs.leads hleads, htracks'⟩)

/-- **The recovery stays within what the machine with the messages allows**: after every run of it, a
started producer that does not stop is in a state that this machine reaches too. -/
theorem reachable_of_recovery (cfg : Config) (h : Recovery.machine.Reachable r)
    (hstarted : r.status = .started) (hstop : r.stopping = false) :
    ∃ s, (machine cfg).Reachable s ∧ Tracks r s := by
  obtain ⟨r₀, as, rfl, hrun⟩ := h
  have hfollowed : Followed cfg r :=
    Machine.run_keeps (P := Followed cfg) Followed.step (.inr (.inl early_initial)) hrun
  obtain hstopping | hearly | htracks := hfollowed
  · rw [hstop] at hstopping
    cases hstopping
  · exact absurd hstarted hearly.status
  · exact htracks

end Beginning

end Hareflow.Producer
