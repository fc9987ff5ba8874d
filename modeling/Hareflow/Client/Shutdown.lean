import Hareflow.Client.Lifecycle

/-!
# The shutdown listener of a client

Producers and consumers drive their recovery from the shutdown listener of a client. Three kinds of
parties can call it: the frame thread and the heartbeat handler, when their exchange of `Started` for
`Stopping` succeeds, and a call of `stop()`, when the status that it replaced was `Started`. This
module follows the parties through the runs of `Lifecycle.machine`.

* `observe` writes down who moves the status from `Started` to `Stopping`, with the reason of that
  party, and who calls the listener with which reason.
* `Effect` says what a step can do to the status, to the parties that are about to call the listener
  (`Pending`) and to the listener.
* `Noted` is the invariant: the record of a run is empty, or one move, or that move and the call of
  the party that made it.
-/

namespace Hareflow.Client.Lifecycle

open Foundations

/-- The order in which the status goes through its values. -/
def Status.rank : Status → ℕ
  | .initialized => 0
  | .starting => 1
  | .started => 2
  | .stopping => 3

/-- The threads that operate on the status. -/
inductive Party
  | starter
  | frameThread
  | heartbeat
  /-- A call of `stop()`. -/
  | stop (k : Caller)
  deriving DecidableEq, Repr

def Act.party : Act → Party
  | .start | .connected | .proceed | .startFail | .startExchange | .startThrow => .starter
  | .answer | .leave _ | .frameExchange | .frameShutdown => .frameThread
  | .heartbeatExchange | .heartbeatShutdown => .heartbeat
  | .stop k | .stopShutdown k | .stopJoin k => .stop k

/-- What the party gives as the reason of a shutdown. -/
def Party.reason (s : State) : Party → Option ShutdownReason
  | .starter => none
  | .frameThread =>
    match s.frame with
    | .left r | .closing r => some r
    | _ => none
  | .heartbeat => some .heartbeatTimeout
  | .stop _ => some .clientInitiated

inductive Event
  /-- The party has moved the status from `Started` to `Stopping`, with its reason. -/
  | moved (p : Party) (r : Option ShutdownReason)
  /-- The party has called the listener. -/
  | called (p : Party) (r : ShutdownReason)
  deriving DecidableEq, Repr

/-- What there is to see of a step. -/
def observe (s : State) (a : Act) (t : State) : List Event :=
  (if s.status = .started ∧ t.status = .stopping then [.moved a.party (a.party.reason s)] else []) ++
    (t.notified.drop s.notified.length).map (.called a.party)

/-- The party is past its operation on the status and about to call the listener. -/
inductive Pending (s : State) : Party → ShutdownReason → Prop
  | frameThread {r : ShutdownReason} (h : s.frame = .closing r) : Pending s .frameThread r
  | heartbeat (h : s.heartbeat = true) : Pending s .heartbeat .heartbeatTimeout
  | stop {k : Caller} (h : s.stops k = .exchanged .started) : Pending s (.stop k) .clientInitiated

/-- What a step can do. -/
inductive Effect (s : State) (a : Act) (t : State) : Prop
  | quiet (hrank : s.status.rank ≤ t.status.rank)
    (hmoved : ¬(s.status = .started ∧ t.status = .stopping))
    (hpending : ∀ p r, Pending t p r ↔ Pending s p r) (hnotified : t.notified = s.notified)
  | move (p : Party) (r : ShutdownReason) (hs : s.status = .started) (ht : t.status = .stopping)
    (hparty : a.party = p) (hreason : p.reason s = some r)
    (hpending : ∀ p' r', Pending t p' r' ↔ Pending s p' r' ∨ (p' = p ∧ r' = r))
    (hnotified : t.notified = s.notified)
  | call (p : Party) (r : ShutdownReason) (hstatus : t.status = s.status) (hparty : a.party = p)
    (hs : Pending s p r) (hpending : ∀ p' r', Pending t p' r' ↔ Pending s p' r' ∧ p' ≠ p)
    (hnotified : t.notified = s.notified ++ [r])

theorem pending_congr {s t : State} (hframe : ∀ r, t.frame = .closing r ↔ s.frame = .closing r)
    (hheartbeat : t.heartbeat = s.heartbeat)
    (hstops : ∀ k, t.stops k = .exchanged .started ↔ s.stops k = .exchanged .started)
    (p : Party) (r : ShutdownReason) : Pending t p r ↔ Pending s p r := by
  constructor
  · rintro (h | h | h)
    · exact .frameThread ((hframe _).1 h)
    · exact .heartbeat (hheartbeat ▸ h)
    · exact .stop ((hstops _).1 h)
  · rintro (h | h | h)
    · exact .frameThread ((hframe _).2 h)
    · exact .heartbeat (hheartbeat ▸ h)
    · exact .stop ((hstops _).2 h)

/-- A step that leaves the status alone, and the parties that are about to call the listener. -/
theorem Effect.of_status {s t : State} {a : Act} (hstatus : t.status = s.status)
    (hframe : ∀ r, t.frame = .closing r ↔ s.frame = .closing r)
    (hheartbeat : t.heartbeat = s.heartbeat)
    (hstops : ∀ k, t.stops k = .exchanged .started ↔ s.stops k = .exchanged .started)
    (hnotified : t.notified = s.notified) : Effect s a t := by
  refine .quiet (Nat.le_of_eq (by rw [hstatus])) ?_ (pending_congr hframe hheartbeat hstops) hnotified
  rintro ⟨hs, ht⟩
  rw [hstatus, hs] at ht
  cases ht

/-- A call of `stop()` goes on that did not stop a started client. -/
theorem exchanged_update {s : State} {k : Caller} {pc : StopPc}
    (hold : s.stops k ≠ .exchanged .started) (hnew : pc ≠ .exchanged .started) (k' : Caller) :
    Function.update s.stops k pc k' = .exchanged .started ↔ s.stops k' = .exchanged .started := by
  by_cases hk : k' = k
  · subst hk
    simp [hold, hnew]
  · rw [Function.update_of_ne hk]

/-- There is no frame thread before the connection is up. -/
def NoFrameThread (s : State) : Prop :=
  s.start = .idle ∨ s.start = .connecting → s.frame = .absent

theorem noFrameThread_step {exchange : Bool} {s t : State} {a : Act} (h : NoFrameThread s)
    (hstep : step exchange s a = some t) : NoFrameThread t := by
  intro hstart
  cases change_of_step hstep with
  | start hidle => exact h (.inl hidle)
  | startRefused hidle => exact h (.inl hidle)
  | leave hframe =>
    have habsent := h hstart
    simp [hframe] at habsent
  | frameExchange hframe =>
    have habsent := h hstart
    simp [hframe] at habsent
  | frameExit hframe =>
    have habsent := h hstart
    simp [hframe] at habsent
  | frameShutdown hframe =>
    have habsent := h hstart
    simp [hframe] at habsent
  | heartbeatExchange => exact h hstart
  | heartbeatLate => exact h hstart
  | heartbeatShutdown => exact h hstart
  | stop => exact h hstart
  | stopLate => exact h hstart
  | stopShutdown => exact h hstart
  | stopJoin => exact h hstart
  | _ => simp at hstart

theorem effect_of_step {exchange : Bool} {s t : State} {a : Act} (hnone : NoFrameThread s)
    (hstep : step exchange s a = some t) : Effect s a t := by
  cases change_of_step hstep with
  | start _ hstatus =>
    exact .quiet (by simp [hstatus, Status.rank]) (by simp) (pending_congr (by simp) rfl (by simp)) rfl
  | startExchange _ hstatus =>
    exact .quiet (by simp [hstatus, Status.rank]) (by simp) (pending_congr (by simp) rfl (by simp)) rfl
  | connected hstart =>
    have habsent : s.frame = .absent := hnone (.inr hstart)
    exact .of_status rfl (by simp [habsent]) rfl (by simp) rfl
  | leave hframe => exact .of_status rfl (by simp [hframe]) rfl (by simp) rfl
  | frameExit hframe => exact .of_status rfl (by simp [hframe]) rfl (by simp) rfl
  | @frameExchange r hleft hstatus =>
    refine .move .frameThread r hstatus rfl rfl (by simp [Party.reason, hleft]) ?_ rfl
    intro p' r'
    constructor
    · rintro (h | h | h)
      · exact .inr ⟨rfl, (FramePc.closing.inj h).symm⟩
      · exact .inl (.heartbeat h)
      · exact .inl (.stop h)
    · rintro ((h | h | h) | ⟨rfl, rfl⟩)
      · simp [hleft] at h
      · exact .heartbeat h
      · exact .stop h
      · exact .frameThread rfl
  | @frameShutdown r hclosing =>
    refine .call .frameThread r rfl rfl (.frameThread hclosing) ?_ rfl
    intro p' r'
    constructor
    · rintro (h | h | h)
      · cases h
      · exact ⟨.heartbeat h, by simp⟩
      · exact ⟨.stop h, by simp⟩
    · rintro ⟨h | h | h, hne⟩
      · exact absurd rfl hne
      · exact .heartbeat h
      · exact .stop h
  | heartbeatExchange hbeat hstatus =>
    refine .move .heartbeat .heartbeatTimeout hstatus rfl rfl rfl ?_ rfl
    intro p' r'
    constructor
    · rintro (h | h | h)
      · exact .inl (.frameThread h)
      · exact .inr ⟨rfl, rfl⟩
      · exact .inl (.stop h)
    · rintro ((h | h | h) | ⟨rfl, rfl⟩)
      · exact .frameThread h
      · simp [hbeat] at h
      · exact .stop h
      · exact .heartbeat rfl
  | heartbeatShutdown hbeat =>
    refine .call .heartbeat .heartbeatTimeout rfl rfl (.heartbeat hbeat) ?_ rfl
    intro p' r'
    constructor
    · rintro (h | h | h)
      · exact ⟨.frameThread h, by simp⟩
      · cases h
      · exact ⟨.stop h, by simp⟩
    · rintro ⟨h | h | h, hne⟩
      · exact .frameThread h
      · exact absurd rfl hne
      · exact .stop h
  | @stop k hidle =>
    by_cases hstatus : s.status = .started
    · refine .move (.stop k) .clientInitiated hstatus rfl rfl rfl ?_ rfl
      intro p' r'
      constructor
      · rintro (h | h | @⟨k', h⟩)
        · exact .inl (.frameThread h)
        · exact .inl (.heartbeat h)
        · by_cases hk : k' = k
          · exact .inr ⟨by rw [hk], rfl⟩
          · exact .inl (.stop (by simpa [Function.update_of_ne hk] using h))
      · rintro ((h | h | @⟨k', h⟩) | ⟨rfl, rfl⟩)
        · exact .frameThread h
        · exact .heartbeat h
        · have hk : k' ≠ k := by
            rintro rfl
            simp [hidle] at h
          exact .stop (by simpa [Function.update_of_ne hk] using h)
        · exact .stop (by simp [hstatus])
    · have hrank : s.status.rank ≤ Status.stopping.rank := by cases s.status <;> decide
      exact .quiet hrank (fun h => hstatus h.1)
        (pending_congr (by simp) rfl (exchanged_update (by simp [hidle]) (by simp [hstatus]))) rfl
  | stopLate hstop =>
    exact .of_status rfl (by simp) rfl (exchanged_update (by simp [hstop]) (by simp)) rfl
  | @stopShutdown k previous hprevious =>
    by_cases hstarted : previous = .started
    · subst hstarted
      refine .call (.stop k) .clientInitiated rfl rfl (.stop hprevious) ?_ rfl
      intro p' r'
      constructor
      · rintro (h | h | @⟨k', h⟩)
        · exact ⟨.frameThread h, by simp⟩
        · exact ⟨.heartbeat h, by simp⟩
        · have hk : k' ≠ k := by
            rintro rfl
            simp at h
          exact ⟨.stop (by simpa [Function.update_of_ne hk] using h), by simpa using hk⟩
      · rintro ⟨h | h | @⟨k', h⟩, hne⟩
        · exact .frameThread h
        · exact .heartbeat h
        · have hk : k' ≠ k := by
            rintro rfl
            exact hne rfl
          exact .stop (by simpa [Function.update_of_ne hk] using h)
    · have hnone : stopReason previous = [] := by cases previous <;> simp_all [stopReason]
      exact .of_status rfl (by simp) rfl (exchanged_update (by simp [hprevious, hstarted]) (by simp))
        (by simp [hnone])
  | stopJoin hjoining =>
    exact .of_status rfl (by simp) rfl (exchanged_update (by simp [hjoining]) (by simp)) rfl
  | _ => exact .of_status rfl (by simp) rfl (by simp) rfl

/-! ## The record of a run -/

/-- The reason in a call of the listener. -/
def Event.notification : Event → Option ShutdownReason
  | .moved _ _ => none
  | .called _ r => some r

/-- The records that a run can have: nothing; a move, with a party that is about to call the listener;
and its call. -/
inductive Phase (s : State) : List Event → Prop
  | before (hpending : ∀ p r, ¬Pending s p r) : Phase s []
  | moved (p : Party) (r : ShutdownReason) (hstatus : s.status = .stopping)
    (hpending : ∀ p' r', Pending s p' r' ↔ p' = p ∧ r' = r) : Phase s [.moved p (some r)]
  | called (p : Party) (r : ShutdownReason) (hstatus : s.status = .stopping)
    (hpending : ∀ p' r', ¬Pending s p' r') : Phase s [.moved p (some r), .called p r]

structure Noted (s : State) (events : List Event) : Prop where
  noFrame : NoFrameThread s
  notified : events.filterMap Event.notification = s.notified
  phase : Phase s events

theorem noted_initial : Noted initial [] where
  noFrame _ := rfl
  notified := rfl
  phase := .before (by rintro p r (h | h | h) <;> cases h)

theorem stopping_of_rank {s t : State} (hs : s.status = .stopping)
    (hrank : s.status.rank ≤ t.status.rank) : t.status = .stopping := by
  rw [hs] at hrank
  cases ht : t.status with
  | stopping => rfl
  | _ => simp [ht, Status.rank] at hrank

theorem noted_step {exchange : Bool} {s t : State} {a : Act} {events : List Event}
    (h : Noted s events) (hstep : step exchange s a = some t) :
    Noted t (events ++ observe s a t) := by
  have hnoFrame := noFrameThread_step h.noFrame hstep
  cases effect_of_step h.noFrame hstep with
  | quiet hrank hmoved hpending hnotified =>
    have hobserve : observe s a t = [] := by simp [observe, hmoved, hnotified]
    rw [hobserve, List.append_nil]
    refine ⟨hnoFrame, h.notified.trans hnotified.symm, ?_⟩
    cases h.phase with
    | before hnone => exact .before fun p r => (hpending p r).not.2 (hnone p r)
    | moved p r hstatus hone =>
      exact .moved p r (stopping_of_rank hstatus hrank) fun p' r' => (hpending p' r').trans (hone p' r')
    | called p r hstatus hnone =>
      exact .called p r (stopping_of_rank hstatus hrank) fun p' r' => (hpending p' r').not.2 (hnone p' r')
  | move p r hs ht hparty hreason hpending hnotified =>
    have hobserve : observe s a t = [.moved p (some r)] := by
      simp [observe, hs, ht, hnotified, hparty, hreason]
    rw [hobserve]
    -- the status was `Started`, so that nobody has moved it before
    cases h.phase with
    | before hnone =>
      refine ⟨hnoFrame, h.notified.trans hnotified.symm, .moved p r ht fun p' r' => ?_⟩
      exact (hpending p' r').trans (or_iff_right (hnone p' r'))
    | moved _ _ hstatus _ => simp [hs] at hstatus
    | called _ _ hstatus _ => simp [hs] at hstatus
  | call p r hstatus hparty hs hpending hnotified =>
    have hobserve : observe s a t = [.called p r] := by
      have hmoved : ¬(s.status = .started ∧ s.status = .stopping) := by
        rintro ⟨h₁, h₂⟩
        rw [h₁] at h₂
        cases h₂
      simp [observe, hstatus, hmoved, hnotified, hparty]
    rw [hobserve]
    -- a party that is about to call the listener is the one that has moved the status
    generalize hevents : events = log at h
    cases h.phase with
    | before hnone => exact absurd hs (hnone p r)
    | moved p' r' hstopping hone =>
      obtain ⟨rfl, rfl⟩ := (hone p r).1 hs
      refine ⟨hnoFrame, ?_, .called p r (hstatus.trans hstopping) fun p' r' hpend => ?_⟩
      · have hlog := h.notified
        rw [hnotified, ← hlog]
        rfl
      · obtain ⟨hold, hne⟩ := (hpending p' r').1 hpend
        exact hne ((hone p' r').1 hold).1
    | called _ _ _ hnone => exact absurd hs (hnone p r)

theorem noted_run {exchange : Bool} {t : State} {as : List Act}
    (h : (machine exchange).run initial as = some t) :
    Noted t ((machine exchange).record observe initial as) :=
  Machine.run_record (M := machine exchange) (P := Noted) noted_step noted_initial h

/-! ## At most one call, by the party that stopped the client -/

/-- The status only goes forward, from any state. -/
theorem rank_le_run {exchange : Bool} {s t : State} {as : List Act} {events : List Event}
    (hs : Noted s events) (h : (machine exchange).run s as = some t) :
    s.status.rank ≤ t.status.rank := by
  induction as generalizing s events with
  | nil =>
    obtain rfl := Option.some.inj h
    exact Nat.le_refl _
  | cons a as ih =>
    obtain ⟨u, hu, h⟩ := Machine.run_cons.1 h
    have hrest := ih (noted_step hs hu) h
    refine Nat.le_trans ?_ hrest
    cases effect_of_step hs.noFrame hu with
    | quiet hrank _ _ _ => exact hrank
    | move _ _ hstarted hstopping _ _ _ _ => rw [hstarted, hstopping]; decide
    | call _ _ hstatus _ _ _ _ => exact Nat.le_of_eq (by rw [hstatus])

/-- A party that is about to call the listener does so in its next step. -/
theorem Pending.exists_call {exchange : Bool} {s : State} {p : Party} {r : ShutdownReason}
    (h : Pending s p r) :
    ∃ a u, a.party = p ∧ step exchange s a = some u ∧ u.notified = s.notified ++ [r] := by
  cases h with
  | frameThread h => exact ⟨.frameShutdown, _, rfl, by simp only [step, h]; rfl, rfl⟩
  | heartbeat h => exact ⟨.heartbeatShutdown, _, rfl, if_pos h, rfl⟩
  | @stop k h => exact ⟨.stopShutdown k, _, rfl, by simp only [step, h]; rfl, rfl⟩

/-- A client that never was `Started` has not called the listener. -/
theorem notified_eq_nil {exchange : Bool} {t : State} {as : List Act}
    (h : (machine exchange).run initial as = some t)
    (hnever : ∀ bs u, bs <+: as → (machine exchange).run initial bs = some u →
      u.status ≠ .started) : t.notified = [] := by
  have hnoted := noted_run h
  generalize hrecord : (machine exchange).record observe initial as = events at hnoted
  have hmoved : ∀ p r, Event.moved p r ∉ events := by
    intro p r hmem
    obtain ⟨bs, a, u, v, hbs, hu, -, hmem⟩ := Machine.exists_of_mem_record (hrecord ▸ hmem)
    have hstarted : u.status = .started := by
      rcases List.mem_append.1 hmem with hmem | hmem
      · split at hmem
        · rename_i hstatus
          exact hstatus.1
        · cases hmem
      · obtain ⟨r', -, heq⟩ := List.mem_map.1 hmem
        cases heq
    exact hnever bs u ((List.prefix_append bs [a]).trans hbs) hu hstarted
  rw [← hnoted.notified]
  cases hnoted.phase with
  | before => rfl
  | moved p r => exact absurd (List.mem_singleton_self _) (hmoved p (some r))
  | called p r => exact absurd (List.mem_cons_self ..) (hmoved p (some r))

/-- **The shutdown listener is called at most once, by the party that moved the client from `Started`
to `Stopping`, with the reason of that party.** For every run of a client: from then on the status
never returns to an earlier value, and stays `Stopping` once it is that; the record of the run is
nothing, or that one party has moved the status with its reason, or that it has and then has called
the listener with this reason; the listener has been called for nothing else, and so at most once; a
party that has moved the status and has not called the listener can; and a client that never was
`Started` has not called it. -/
theorem shutdown_notifiedOnce (exchange : Bool) (as : List Act) (t : State)
    (h : (machine exchange).run initial as = some t) :
    (∀ bs u, (machine exchange).run t bs = some u →
      t.status.rank ≤ u.status.rank ∧ (t.status = .stopping → u.status = .stopping)) ∧
    (∃ p r, (machine exchange).record observe initial as <+: [.moved p (some r), .called p r]) ∧
    ((machine exchange).record observe initial as).filterMap Event.notification = t.notified ∧
    t.notified.length ≤ 1 ∧
    (∀ p r, (machine exchange).record observe initial as = [.moved p (some r)] →
      ∃ a u, a.party = p ∧ (machine exchange).step t a = some u ∧
        u.notified = t.notified ++ [r]) ∧
    ((∀ bs u, bs <+: as → (machine exchange).run initial bs = some u → u.status ≠ .started) →
      t.notified = []) := by
  have hnoted := noted_run h
  generalize (machine exchange).record observe initial as = events at hnoted ⊢
  refine ⟨fun bs u hu => ?_, ?_, hnoted.notified, ?_, ?_, notified_eq_nil h⟩
  · have hrank := rank_le_run hnoted hu
    exact ⟨hrank, fun hstopping => stopping_of_rank hstopping hrank⟩
  · cases hnoted.phase with
    | before => exact ⟨.starter, .unknown, List.nil_prefix⟩
    | moved p r => exact ⟨p, r, [.called p r], rfl⟩
    | called p r => exact ⟨p, r, List.prefix_refl _⟩
  · rw [← hnoted.notified]
    cases hnoted.phase with
    | before => exact Nat.zero_le 1
    | moved p r => exact Nat.zero_le 1
    | called p r => exact Nat.le_refl 1
  · intro p r hrecord
    subst hrecord
    cases hnoted.phase with
    | moved _ _ _ hpending => exact ((hpending p r).2 ⟨rfl, rfl⟩).exists_call

/-- The connection fails, and two threads call `stop()` while the frame thread is in its exchange. -/
def failedWhileStopping : List Act :=
  handshake ++ [Act.startExchange, .leave .unknown, .stop (.user 0), .frameExchange, .heartbeatExchange,
    .stop (.user 1), .stopShutdown (.user 1), .stopShutdown (.user 0)]

theorem shutdown_notifiedOnce_failedWhileStopping :
    ∃ t, (machine false).run initial failedWhileStopping = some t ∧
      t.notified = [.clientInitiated] ∧ t.notified.length ≤ 1 ∧
      ∃ p r, (machine false).record observe initial failedWhileStopping <+:
        [.moved p (some r), .called p r] := by
  obtain ⟨t, ht, hnotified⟩ : ∃ t, (machine false).run initial failedWhileStopping = some t ∧
      t.notified = [.clientInitiated] := ⟨_, rfl, rfl⟩
  obtain ⟨-, hrecord, -, hlength, -, -⟩ := shutdown_notifiedOnce false failedWhileStopping t ht
  exact ⟨t, ht, hnotified, hlength, hrecord⟩

end Hareflow.Client.Lifecycle
