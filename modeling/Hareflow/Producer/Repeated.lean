import Hareflow.Producer.Resolution
import Hareflow.Producer.Timeout

/-!
# Publishing ids that repeat

`m_unconfirmed` is keyed by the publishing ids, and a user may give ids of their own. `publish_batch`
then finds ids taken, by a message that waits for its confirmation or by an earlier one of its batch,
and `emplace` keeps the older message: the newer one is destroyed, and its handler is never called.

* `Resolvable` says that a confirmation, an error, a timeout and a stop each find the message, and
  `Lost` that its handler is called in no continuation.
* `Tracked.posted_step`: a message that `m_unconfirmed` has kept stays in its places until its handler
  is called, unless the exception of another handler loses it.
* Of the messages of a batch each one is resolvable or lost afterwards, and all of them are resolvable
  exactly if no id repeats.
-/

namespace Hareflow.Producer

open Foundations

variable {cfg : Config} {s t : State} {m : AccumulatedMessage}

open Ledger

/-! ## Messages that are kept and messages that are lost -/

/-- What has been through `publish_batch` and was kept: it waits in `m_unconfirmed`, or its resolver
has it, or its handler has been called. -/
def State.posted (s : State) : Multiset AccumulatedMessage :=
  s.waiting + s.inHand + s.handled.map Prod.fst

theorem ledger_all (s : State) :
    s.ledger.all = s.accumulator.pending + s.moving + s.posted := by
  simp only [Ledger.all, State.ledger, State.posted]
  ac_rfl

theorem stepBatch_unposted {a : BatchAct} (h : stepBatch cfg s a = some t)
    (hm : m ∈ t.accumulator.pending ++ t.moving) : m ∈ s.accumulator.pending ++ s.moving := by
  have hfinish : ∀ {u : State} {caller : Caller}, m ∈ (u.finish caller).accumulator.pending ++
      (u.finish caller).moving → m ∈ u.accumulator.pending ++ u.moving := by
    intro u caller hu
    obtain ⟨_, _, _, hf⟩ := State.finish_eq u caller
    rw [hf] at hu
    exact hu
  cases batchMove_of_step h with
  | flush | task => exact hm
  | lock =>
    refine List.mem_append_left _ ?_
    simpa [State.moving, BatchPc.messages] using hm
  | decline => exact hfinish hm
  | extract =>
    refine List.mem_append_left _ ?_
    simpa [State.moving, BatchPc.messages, Accumulator.extractAll] using hm
  | @publish _ ms _ _ hb | @park _ ms _ hb =>
    have hmoving : s.moving = ms := by simp [State.moving, hb, BatchPc.messages]
    rw [hmoving]
    exact hm
  | insert =>
    refine List.mem_append_left _ ?_
    have hu := hfinish hm
    simpa [State.moving, State.release] using hu

theorem stepStop_unposted {a : StopAct} (h : stepStop s a = some t) :
    t.batch = s.batch ∧ ∀ m ∈ t.accumulator.pending, m ∈ s.accumulator.pending := by
  cases stopMove_of_step h with
  | clear => exact ⟨rfl, by simp [Accumulator.extractAll]⟩
  | _ => exact ⟨rfl, fun _ hm => hm⟩

/-- Nothing but a new message gets into the accumulator, or from there into a batch. -/
theorem mem_of_mem_unposted {a : Act} (hn : Ticketed s.sending) (h : step cfg s a = some t)
    (hm : m ∈ t.accumulator.pending ++ t.moving) :
    m ∈ s.accumulator.pending ++ s.moving ∨ m ∉ s.accepted := by
  cases a with
  | send a =>
    obtain ⟨k, m', full, -, hk, -, rfl⟩ | ⟨_, _, _, _, rfl⟩ := stepSend_inv h
    · rcases List.mem_append.1 hm with hm | hm
      · rcases List.mem_append.1 hm with hm | hm
        · exact .inl (List.mem_append_left _ hm)
        · obtain rfl := List.mem_singleton.1 hm
          exact .inr (hn.insert full hk).2
      · exact .inl (List.mem_append_right _ hm)
    · exact .inl hm
  | batch a =>
    exact .inl (stepBatch_unposted h hm)
  | frame a =>
    obtain ⟨_, _, _, _, rfl⟩ := stepFrame_touches h
    exact .inl hm
  | shutdown a =>
    obtain ⟨_, _, rfl⟩ := stepShutdown_touches h
    exact .inl hm
  | timeout a =>
    obtain ⟨_, _, _, _, rfl⟩ := stepTimeout_touches h
    exact .inl hm
  | reconnect a =>
    obtain ⟨_, _, _, _, _, _, rfl⟩ := stepReconnect_touches h
    exact .inl hm
  | stop a =>
    obtain ⟨hbatch, hpending⟩ := stepStop_unposted h
    rcases List.mem_append.1 hm with hm | hm
    · exact .inl (List.mem_append_left _ (hpending m hm))
    · rw [State.moving, hbatch] at hm
      exact .inl (List.mem_append_right _ hm)

/-- What is kept stays so, unless a handler throws. -/
theorem Tracked.posted_step {a : Act} (hs : Tracked s) (h : Producer.step cfg s a = some t)
    (ht : ¬t.Abandoned) (hm : m ∈ s.posted) : m ∈ t.posted := by
  have htraced := hs.traced fun hst => ht (.inr ⟨_, aborted_step h hst⟩)
  have hall : m ∈ s.ledger.all := by
    rw [ledger_all]
    exact Multiset.mem_add.2 (.inr hm)
  have hfresh : m ∉ s.accumulator.pending ++ s.moving := by
    intro hmem
    have hnodup := htraced.nodup_all
    rw [ledger_all] at hnodup
    exact Multiset.disjoint_left.1 (Multiset.nodup_add.1 hnodup).2.2 (by simpa using hmem) hm
  have hkept : m ∈ t.ledger.all := by
    by_cases ha : a = .batch .insert
    · subst ha
      have hinsert : stepBatch cfg s .insert = some t := h
      obtain ⟨hwaiting, hwaiting', hout, hcalled⟩ := ledger_insert hs.stopping hinsert
      rw [Ledger.all, hwaiting] at hall
      rw [Ledger.all, hwaiting', hout, hcalled]
      simp only [Multiset.mem_add, Multiset.mem_coe, List.mem_append, not_or] at hall hfresh ⊢
      obtain (((hm | hm) | hm) | hm) | hm := hall
      · exact absurd hm hfresh.1
      · exact absurd hm hfresh.2
      · exact .inl (.inl (.inr (Unconfirmed.mem_emplaceAll_of_mem hm _)))
      · exact .inl (.inr hm)
      · exact .inr hm
    · have hids := State.distinctIds_of_ne (s := s) ha
      obtain ⟨o, hmove, -, -⟩ :=
        step_move hs.stopping hs.ticketed hids (spares_of_not_abandoned h ht) h
      rw [hmove.all_eq]
      exact Multiset.mem_add.2 (.inl hall)
  rw [ledger_all] at hkept
  rcases Multiset.mem_add.1 hkept with hmem | hmem
  · rcases mem_of_mem_unposted hs.ticketed h (by simpa using hmem) with hmem | hnew
    · exact absurd hmem hfresh
    · exact absurd (htraced.mem_accepted hall) hnew
  · exact hmem

/-- A later confirmation, error, timeout or stop finds the message: the step that takes it out of
`m_unconfirmed` is followed by the call of its handler, the only one. -/
structure Resolvable (cfg : Config) (s : State) (m : AccumulatedMessage) : Prop where
  /-- The message is in `m_unconfirmed`, under its id. -/
  waits : s.unconfirmed.find m.publishingId = some m
  confirm : ∀ c, s.frames c = .reading → ∃ t, (machine cfg).run s
    [.frame (.confirm c m.publishingId), .frame (.invoke c)] = some t ∧
      (m, ⟨true, ResponseCode.ok.value⟩) ∈ t.handled ∧ t.invocations m.ticket = 1
  error : ∀ c errorCode, s.frames c = .reading → ∃ t, (machine cfg).run s
    [.frame (.error c m.publishingId errorCode), .frame (.invoke c)] = some t ∧
      (m, ⟨false, errorCode⟩) ∈ t.handled ∧ t.invocations m.ticket = 1
  /-- Once all that waits is late, the scan of `check_confirm_timeout` finds the message, and its handler
  is called if those before it return. -/
  timeout : ∀ now throws, s.timeout = .entered →
    (∀ m' ∈ s.unconfirmed.entries, cfg.expired now m' = true) →
    (∀ m' ∈ s.unconfirmed.entries, m'.publishingId < m.publishingId → throws m' = false) → ∃ t,
      (machine cfg).run s (checkConfirmTimeout cfg s now throws) = some t ∧
        (m, s.timeoutStatus) ∈ t.handled ∧ t.invocations m.ticket = 1
  /-- However the producer goes on: once it has stopped, the handler has been called. -/
  stop : ∀ as t, (machine cfg).run s as = some t → t.stage = .done → t.invocations m.ticket = 1

/-- `handle_publish_confirm` and `handle_publish_error` take the message out, and call its handler. -/
theorem run_takeUnconfirmed {a : FrameAct} {c : ℕ} {st : ConfirmationStatus} (hs : Tracked s)
    (hrunning : s.stage = .running) (hfree : s.unlocked = true)
    (hfind : s.unconfirmed.find m.publishingId = some m) (hc : s.frames c = .reading)
    (ha : stepFrame s a = s.takeUnconfirmed c m.publishingId st) :
    ∃ t, (machine cfg).run s [.frame a, .frame (.invoke c)] = some t ∧ (m, st) ∈ t.handled ∧
      t.invocations m.ticket = 1 := by
  set u := { s.setFrame c (.taken m st) with unconfirmed := s.unconfirmed.erase m.publishingId }
    with hu
  have htake : (machine cfg).step s (.frame a) = some u := by
    show stepFrame s a = some u
    rw [ha, State.takeUnconfirmed, if_pos ⟨hc, hfree⟩, hfind]
  have hinvoke : (machine cfg).step u (.frame (.invoke c)) =
      some ((u.handle m st).setFrame c (.handling m)) := by
    simp [machine, step, stepFrame, hu, State.setFrame]
  have hrun : (machine cfg).run s [.frame a, .frame (.invoke c)] =
      some ((u.handle m st).setFrame c (.handling m)) :=
    Machine.run_cons.2 ⟨u, htake, Machine.run_cons.2 ⟨_, hinvoke, rfl⟩⟩
  have hmem : (m, st) ∈ ((u.handle m st).setFrame c (.handling m)).handled :=
    List.mem_append_right _ (List.mem_singleton_self _)
  have hstage : ((u.handle m st).setFrame c (.handling m)).stage = .running := hrunning
  exact ⟨_, hrun, hmem, (hs.of_run hrun).invocations_eq_one (by simp [hstage]) hmem⟩

/-- What is in `m_unconfirmed` of a running producer while nobody is in a critical section is
resolvable. -/
theorem Tracked.resolvable (hs : Tracked s) (hrunning : s.stage = .running) (hfree : s.unlocked = true)
    (hm : m ∈ s.unconfirmed.entries) : Resolvable cfg s m := by
  have hfind := Unconfirmed.find_of_mem hm
  refine ⟨hfind, fun c hc => run_takeUnconfirmed hs hrunning hfree hfind hc rfl,
    fun c e hc => run_takeUnconfirmed hs hrunning hfree hfind hc rfl,
    fun now throws hentered hlate hreturn => ?_, fun as t hrun hdone => ?_⟩
  · obtain ⟨t, hrun, -, hhandled, hstage⟩ := run_checkConfirmTimeout throws hentered hfree
    have hfound : s.unconfirmed.timedOut now cfg.confirmTimeout = s.unconfirmed.sorted := by
      refine List.takeWhile_eq_self_iff.2 fun m' hm' => ?_
      exact hlate m' (Unconfirmed.mem_sorted.1 hm')
    have hmem : (m, s.timeoutStatus) ∈ t.handled := by
      rw [hhandled, hfound]
      refine List.mem_append_right _ (List.mem_map_of_mem ?_)
      refine mem_throughFirst s.unconfirmed.sorted_pairwise (Unconfirmed.mem_sorted.2 hm) ?_
      exact fun m' hm' => hreturn m' (Unconfirmed.mem_sorted.1 hm')
    exact ⟨t, hrun, hmem, (hs.of_run hrun).invocations_eq_one (by simp [hstage, hrunning]) hmem⟩
  · have hposted : m ∈ s.posted := by
      rw [State.posted, waiting_of_not_locks (State.unlocked_iff.1 hfree).2]
      exact Multiset.mem_add.2 (.inl (Multiset.mem_add.2 (.inl hm)))
    have hstep : ∀ {u v a}, Tracked u ∧ (¬u.Abandoned → m ∈ u.posted) →
        (machine cfg).step u a = some v → Tracked v ∧ (¬v.Abandoned → m ∈ v.posted) := by
      rintro u v a ⟨hu, hkept⟩ h
      exact ⟨hu.step h, fun hv => hu.posted_step h hv (hkept fun habandoned => hv (habandoned.step h))⟩
    obtain ⟨ht, hkept⟩ := Machine.run_keeps (M := machine cfg)
      (P := fun u => Tracked u ∧ (¬u.Abandoned → m ∈ u.posted)) hstep ⟨hs, fun _ => hposted⟩ hrun
    -- a stop that has come to its end comes after no exception
    have hall : m ∈ t.ledger.all := by
      rw [ledger_all]
      exact Multiset.mem_add.2 (.inr (hkept (ht.stopping.not_abandoned hdone)))
    rw [Ledger.all, ht.stopping.waiting_eq_zero hdone, ht.stopping.out_eq_zero hdone] at hall
    obtain ⟨⟨m', st⟩, hmem, rfl⟩ : ∃ p ∈ t.handled, p.1 = m := by
      simpa [State.ledger] using hall
    exact ht.invocations_eq_one (by simp [hdone]) hmem

/-! ## What a batch loses -/

/-- The steps of a call of `publish_batch`. -/
def publishBatch (caller : Caller) (failed : Option ℕ) : List Act :=
  [.batch (.lock caller), .batch .extract, .batch (.publish failed), .batch .insert]

/-- What a call of `publish_batch` does: it adds what was pending to `m_unconfirmed`. -/
structure Published (s t : State) : Prop where
  stage : t.stage = s.stage
  unlocked : t.unlocked = true
  accepted : t.accepted = s.accepted
  pending : t.accumulator.pending = []
  unconfirmed : t.unconfirmed = s.unconfirmed.emplaceAll s.accumulator.pending
  out : t.ledger.out = s.ledger.out
  called : t.ledger.called = s.ledger.called

/-- A call runs to its end. -/
theorem run_publishBatch (cfg : Config) {caller : Caller} (hrunning : s.stage = .running)
    (hcalling : s.calling caller = true) (hfree : s.unlocked = true) (failed : Option ℕ) :
    ∃ t, (machine cfg).run s (publishBatch caller failed) = some t ∧ Published s t := by
  have hopen := (State.unlocked_iff.1 hfree).2
  set ms := s.accumulator.pending with hms
  let u : State := { s with
    batch := some ⟨caller, .published ms⟩
    accumulator := { s.accumulator with pending := [] } }
  obtain ⟨written, hpublish⟩ : ∃ written, (machine cfg).run s
      [.batch (.lock caller), .batch .extract, .batch (.publish failed)] =
        some { u with written := written } := by
    cases hc : s.client with
    | none =>
      refine ⟨s.written, ?_⟩
      simp [machine, Machine.run, step, stepBatch, hcalling, hfree, hrunning, hc, u, hms,
        Accumulator.extractAll]
    | some c =>
      refine ⟨Function.update s.written c (s.written c ++ writtenPart failed ms), ?_⟩
      simp [machine, Machine.run, step, stepBatch, hcalling, hfree, hrunning, hc, u, hms,
        Accumulator.extractAll, State.write]
  let v : State := { u with written := written }
  let n := v.unconfirmed.entries.length + ms.length - (v.unconfirmed.emplaceAll ms).entries.length
  let w : State := { v.release n with unconfirmed := v.unconfirmed.emplaceAll ms, batch := none }
  have hinsert : (machine cfg).run v [.batch .insert] = some (w.finish caller) := rfl
  refine ⟨_, Machine.run_append.2 ⟨v, hpublish, hinsert⟩, ?_⟩
  obtain ⟨sends, flushes, batchTask, hfinish⟩ := w.finish_eq caller
  rw [hfinish]
  exact ⟨rfl, State.unlocked_iff.2 ⟨rfl, hopen⟩, rfl, rfl, rfl, rfl, rfl⟩

/-- While nobody is in a critical section, no message is twice in what waits. -/
theorem Tracked.nodup_waiting (hs : Tracked s) (hrunning : s.stage = .running)
    (hfree : s.unlocked = true) : (s.unconfirmed.entries ++ s.accumulator.pending).Nodup := by
  have hnodup := (hs.traced (by simp [hrunning])).nodup_all
  rw [Ledger.all, ledger_waiting hfree, add_assoc] at hnodup
  have hwaiting := (Multiset.nodup_add.1 hnodup).1
  rw [add_comm, Multiset.coe_add] at hwaiting
  exact Multiset.coe_nodup.1 hwaiting

/-- A message that was pending and is not in `m_unconfirmed` afterwards is lost. -/
theorem Published.lost (hp : Published s t) (hs : Tracked s) (ht : Tracked t)
    (hrunning : s.stage = .running) (hfree : s.unlocked = true) (hm : m ∈ s.accumulator.pending)
    (hgone : m ∉ t.unconfirmed.entries) : Lost cfg t m := by
  have hwaiting : m ∈ s.ledger.waiting := by
    rw [ledger_waiting hfree]
    exact Multiset.mem_add.2 (.inl hm)
  have htraced := hs.traced (by simp [hrunning])
  have hnodup := htraced.nodup_all
  rw [Ledger.all, add_assoc] at hnodup
  have hnot := Multiset.disjoint_left.1 (Multiset.nodup_add.1 hnodup).2.2 hwaiting
  refine ht.lost ?_ fun hall => ?_
  · rw [hp.accepted]
    exact htraced.mem_accepted (Multiset.mem_add.2 (.inl (Multiset.mem_add.2 (.inl hwaiting))))
  · rw [Ledger.all, hp.out, hp.called, ledger_waiting hp.unlocked, hp.pending, add_assoc] at hall
    rcases Multiset.mem_add.1 hall with hall | hall
    · exact hgone (by simpa using hall)
    · exact hnot hall

/-- **What a call of `publish_batch` loses**: the messages that were in `m_unconfirmed` stay
resolvable, and each message that was pending is resolvable or lost. None is lost if and only if the
ids of all of them are distinct. -/
theorem publishBatch_resolvable_iff {caller : Caller} (hs : (machine cfg).Reachable s)
    (hrunning : s.stage = .running) (hcalling : s.calling caller = true)
    (hfree : s.unlocked = true) (failed : Option ℕ) :
    ∃ t, (machine cfg).run s (publishBatch caller failed) = some t ∧
      (∀ m ∈ s.unconfirmed.entries, Resolvable cfg t m) ∧
      (∀ m ∈ s.accumulator.pending, Resolvable cfg t m ∨ Lost cfg t m) ∧
      ((∀ m ∈ s.accumulator.pending, Resolvable cfg t m) ↔
        ((s.unconfirmed.entries ++ s.accumulator.pending).map
          AccumulatedMessage.publishingId).Nodup) := by
  have htracked := Tracked.of_reachable hs
  obtain ⟨t, hrun, hp⟩ := run_publishBatch cfg hrunning hcalling hfree failed
  have ht := htracked.of_run hrun
  have hresolvable : ∀ {m}, m ∈ t.unconfirmed.entries → Resolvable cfg t m :=
    fun hm => ht.resolvable (hp.stage.trans hrunning) hp.unlocked hm
  refine ⟨t, hrun, fun m hm => hresolvable ?_, fun m hm => ?_, ?_⟩
  · rw [hp.unconfirmed]
    exact Unconfirmed.mem_emplaceAll_of_mem hm _
  · by_cases hmem : m ∈ t.unconfirmed.entries
    · exact .inl (hresolvable hmem)
    · exact .inr (hp.lost htracked ht hrunning hfree hm hmem)
  · rw [← Unconfirmed.forall_mem_emplaceAll_iff (htracked.nodup_waiting hrunning hfree), ← hp.unconfirmed]
    constructor
    · intro h m hm
      exact (Unconfirmed.mem_of_find (h m hm).waits).1
    · intro h m hm
      exact hresolvable (h m hm)

/-- A call of `send` with an id of the user, whose message is accepted. -/
def acceptedWithId (k : ℕ) (publishingId : UInt64) : List Act :=
  [.send (.call (some publishingId)), .send (.check k), .send (.acquire k),
    .send (.encode k (some []) k), .send (.insert k), .send (.proceed k)]

/-- The theorem after two calls with distinct ids: the batch of the second one loses nothing. -/
theorem publishBatch_resolvable_of_distinct :
    ∃ s t, (machine pairs).run (initial pairs) (acceptedWithId 0 7 ++ acceptedWithId 1 3) = some s ∧
      s.accumulator.pending.length = 2 ∧
      (machine pairs).run s (publishBatch (.send 1) none) = some t ∧
      ∀ m ∈ s.accumulator.pending, Resolvable pairs t m := by
  have hrun : ((machine pairs).run (initial pairs)
      (acceptedWithId 0 7 ++ acceptedWithId 1 3)).any (fun s =>
        s.stage = .running ∧ s.calling (.send 1) = true ∧ s.unlocked = true ∧
          s.accumulator.pending.length = 2 ∧
          ((s.unconfirmed.entries ++ s.accumulator.pending).map
            AccumulatedMessage.publishingId).Nodup) = true := by decide +kernel
  obtain ⟨s, hs, hend⟩ := (Option.any_eq_true ..).1 hrun
  obtain ⟨hrunning, hcalling, hfree, hlength, hids⟩ := of_decide_eq_true hend
  obtain ⟨t, ht, -, -, hiff⟩ :=
    publishBatch_resolvable_iff ⟨_, _, rfl, hs⟩ hrunning hcalling hfree none
  exact ⟨s, t, hs, hlength, ht, hiff.2 hids⟩

/-- **A message whose id is taken is lost**: after `send(message)`, which takes the id 0, the user
calls `send(0, message)`. Both messages are accepted and published in one batch, and the handler of
the second is never called. -/
theorem lost_of_explicitId :
    ∃ s t m, (machine pairs).run (initial pairs) (acceptedSend 0 ++ acceptedWithId 1 0) = some s ∧
      s.accumulator.pending = [⟨0, 0, [], 0⟩, m] ∧
      (machine pairs).run s (publishBatch (.send 1) none) = some t ∧
      t.sends 1 = .returned ∧ ¬Resolvable pairs t m ∧ Lost pairs t m := by
  have hrun : ((machine pairs).run (initial pairs) (acceptedSend 0 ++ acceptedWithId 1 0)).any
      (fun s => s.stage = .running ∧ s.calling (.send 1) = true ∧ s.unlocked = true ∧
        s.accumulator.pending = [⟨0, 0, [], 0⟩, ⟨0, 1, [], 1⟩] ∧
        ((machine pairs).run s (publishBatch (.send 1) none)).any (fun t =>
          t.sends 1 = .returned ∧ t.unconfirmed.entries = [⟨0, 0, [], 0⟩]) = true) = true := by
    decide +kernel
  obtain ⟨s, hs, hend⟩ := (Option.any_eq_true ..).1 hrun
  obtain ⟨hrunning, hcalling, hfree, hpending, hend⟩ := of_decide_eq_true hend
  obtain ⟨t, ht, hend⟩ := (Option.any_eq_true ..).1 hend
  obtain ⟨hreturned, hentries⟩ := of_decide_eq_true hend
  have hgone : ⟨0, 1, [], 1⟩ ∉ t.unconfirmed.entries := by
    rw [hentries]
    decide
  have htracked : Tracked s := .of_reachable ⟨_, _, rfl, hs⟩
  obtain ⟨t', ht', hp⟩ := run_publishBatch pairs hrunning hcalling hfree none
  obtain rfl := Option.some.inj (ht.symm.trans ht')
  refine ⟨s, t, _, hs, hpending, ht, hreturned, fun hres => ?_, ?_⟩
  · exact hgone (Unconfirmed.mem_of_find hres.waits).1
  · exact hp.lost htracked (htracked.of_run ht) hrunning hfree (by simp [hpending]) hgone

end Hareflow.Producer
