import Hareflow.Foundations.Scan
import Hareflow.Producer.Machine

/-!
# The scan for confirmations that are late

`check_confirm_timeout` copies `m_unconfirmed` into a map that is sorted by the publishing ids, takes
messages out of it while they are old enough, and stops at the first that is not: it takes the order
of the ids for the order of the times. A user who gives ids of their own, or two threads that call
`send` at the same time, can make the two orders differ. An old message behind a young one is then
not found. After the critical section it calls the handlers of the messages that it has taken out, and
when one of them throws, the others are not called.

`checkConfirmTimeout` is one call of the function, from its critical section to its end, for any choice
of the handlers that throw, and `ScansExactly` what it is for.
-/

namespace Hareflow.Producer

open Foundations

variable {cfg : Config} {s t : State}

/-- The message was published at `now - m_confirm_timeout` or before. -/
def Config.expired (cfg : Config) (now : ℕ) (m : AccumulatedMessage) : Bool :=
  m.publishTime + cfg.confirmTimeout ≤ now

/-- The loop over the messages that were taken out, in which the handlers that `throws` selects
throw. -/
def failTimedOut (throws : AccumulatedMessage → Bool) : List AccumulatedMessage → List Act
  | [] => [.timeout .finish]
  | m :: todo =>
    if throws m then [.timeout .throw] else .timeout .invoke :: failTimedOut throws todo

/-- The steps of a call of `check_confirm_timeout` in the state `s`. -/
def checkConfirmTimeout (cfg : Config) (s : State) (now : ℕ) (throws : AccumulatedMessage → Bool) :
    List Act :=
  .timeout (.scan now) ::
    failTimedOut throws (s.unconfirmed.timedOut now cfg.confirmTimeout)

/-- From `s` to `t`, the messages that are late were taken out of `m_unconfirmed` and failed, each of
them once, and no other message was touched. -/
structure ScansExactly (cfg : Config) (now : ℕ) (s t : State) : Prop where
  unconfirmed : ∀ m, m ∈ t.unconfirmed.entries ↔
    m ∈ s.unconfirmed.entries ∧ cfg.expired now m = false
  failed : ∃ calls, t.handled = s.handled ++ calls ∧ (∀ c ∈ calls, c.2.confirmed = false) ∧
    (calls.map Prod.fst).Perm (s.unconfirmed.entries.filter (cfg.expired now))

/-- What the call fails a message with. -/
def State.timeoutStatus (s : State) : ConfirmationStatus :=
  ⟨false, (if s.client = none then ProducerErrorCode.producerNotAvailable
    else .confirmTimeout).value⟩

/-- The loop runs to its end, or to the first handler that throws. -/
theorem run_failTimedOut (cfg : Config) (throws : AccumulatedMessage → Bool)
    {timedOut todo : List AccumulatedMessage} {e : ProducerErrorCode}
    (h : s.timeout = .failing timedOut todo e) :
    ∃ semaphore timeout, (machine cfg).run s (failTimedOut throws todo) = some { s with
      semaphore := semaphore
      timeout := timeout
      handled := s.handled ++ (throughFirst throws todo).map fun m => (m, ⟨false, e.value⟩) } := by
  induction todo generalizing s with
  | nil =>
    refine ⟨(s.release timedOut.length).semaphore, .idle, ?_⟩
    simp only [failTimedOut, throughFirst, List.map_nil, List.append_nil]
    refine Machine.run_cons.2 ⟨_, ?_, rfl⟩
    simp only [machine, step, stepTimeout, h]
    rfl
  | cons m todo ih =>
    cases hm : throws m with
    | true =>
      refine ⟨(s.release timedOut.length).semaphore, .threw, ?_⟩
      simp only [failTimedOut, throughFirst, hm, if_true]
      refine Machine.run_cons.2 ⟨_, ?_, rfl⟩
      simp only [machine, step, stepTimeout, h]
      rfl
    | false =>
      have hinvoke : (machine cfg).step s (.timeout .invoke) =
          some { s.handle m ⟨false, e.value⟩ with timeout := .failing timedOut todo e } := by
        simp only [machine, step, stepTimeout, h]
      obtain ⟨semaphore, timeout, hrest⟩ :=
        ih (s := { s.handle m ⟨false, e.value⟩ with timeout := .failing timedOut todo e }) rfl
      refine ⟨semaphore, timeout, ?_⟩
      simp only [failTimedOut, throughFirst, hm, Bool.false_eq_true, if_false]
      refine Machine.run_cons.2 ⟨_, hinvoke, hrest.trans ?_⟩
      simp [State.handle]

/-- A call runs to its end, and fails what its scan has found, up to a handler that throws. -/
theorem run_checkConfirmTimeout {now : ℕ} (throws : AccumulatedMessage → Bool)
    (hentered : s.timeout = .entered) (hunlocked : s.unlocked = true) :
    ∃ t, (machine cfg).run s (checkConfirmTimeout cfg s now throws) = some t ∧
      t.unconfirmed = s.unconfirmed.eraseAll (s.unconfirmed.timedOut now cfg.confirmTimeout) ∧
      t.handled = s.handled ++ (throughFirst throws
        (s.unconfirmed.timedOut now cfg.confirmTimeout)).map (fun m => (m, s.timeoutStatus)) ∧
      t.stage = s.stage := by
  set timedOut := s.unconfirmed.timedOut now cfg.confirmTimeout with htimedOut
  set e : ProducerErrorCode := if s.client = none then .producerNotAvailable else .confirmTimeout
    with he
  have hscan : (machine cfg).step s (.timeout (.scan now)) = some { s with
      unconfirmed := s.unconfirmed.eraseAll timedOut
      timeout := .failing timedOut timedOut e } := by
    simp only [machine, step, stepTimeout, hentered, hunlocked, and_self, if_true, ← htimedOut, he]
  obtain ⟨semaphore, timeout, hloop⟩ := run_failTimedOut cfg throws (s := { s with
    unconfirmed := s.unconfirmed.eraseAll timedOut, timeout := .failing timedOut timedOut e }) rfl
  refine ⟨_, Machine.run_cons.2 ⟨_, hscan, hloop⟩, rfl, ?_, rfl⟩
  simp only [State.timeoutStatus, he]

/-- The call is exact exactly if it calls the handlers of all that is late. -/
theorem scansExactly_iff_perm {now : ℕ} {throws : AccumulatedMessage → Bool}
    (hunconfirmed : t.unconfirmed =
      s.unconfirmed.eraseAll (s.unconfirmed.timedOut now cfg.confirmTimeout))
    (hhandled : t.handled = s.handled ++ (throughFirst throws
      (s.unconfirmed.timedOut now cfg.confirmTimeout)).map fun m => (m, s.timeoutStatus)) :
    ScansExactly cfg now s t ↔
      (throughFirst throws (s.unconfirmed.timedOut now cfg.confirmTimeout)).Perm
        (s.unconfirmed.entries.filter (cfg.expired now)) := by
  set timedOut := s.unconfirmed.timedOut now cfg.confirmTimeout with htimedOut
  set called := throughFirst throws timedOut with hcalled
  have hsplit : s.unconfirmed.entries.Perm (timedOut ++ t.unconfirmed.entries) := by
    rw [hunconfirmed]
    exact s.unconfirmed.perm_timedOut now cfg.confirmTimeout
  have hfst : (called.map fun m => (m, s.timeoutStatus)).map Prod.fst = called := by
    simp [Function.comp_def]
  constructor
  · rintro ⟨-, calls, hcalls, -, hperm⟩
    obtain rfl := List.append_cancel_left (hhandled.symm.trans hcalls)
    rwa [hfst] at hperm
  · intro hperm
    refine ⟨fun m => ?_, _, hhandled, ?_, by rwa [hfst]⟩
    · have hnodup : (timedOut ++ t.unconfirmed.entries).Nodup :=
        hsplit.nodup_iff.1 (s.unconfirmed.keys.of_map _)
      -- all that is late has been called, and what has been called was taken out
      have hlate : m ∈ s.unconfirmed.entries → cfg.expired now m = true → m ∈ timedOut := by
        intro hm hexpired
        have hmem := hperm.mem_iff.2 (List.mem_filter.2 ⟨hm, hexpired⟩)
        exact (throughFirst_isPrefix throws timedOut).subset hmem
      constructor
      · intro hm
        have hin := hsplit.mem_iff.2 (List.mem_append_right timedOut hm)
        refine ⟨hin, Bool.eq_false_iff.2 fun hexpired => ?_⟩
        exact List.disjoint_of_nodup_append hnodup (hlate hin hexpired) hm
      · rintro ⟨hin, hyoung⟩
        rcases List.mem_append.1 (hsplit.mem_iff.1 hin) with hm | hm
        · have hexpired : cfg.expired now m = true := List.mem_takeWhile_imp hm
          simp [hexpired] at hyoung
        · exact hm
    · intro c hc
      obtain ⟨m, -, rfl⟩ := List.mem_map.1 hc
      rfl

/-- The handlers of all that is late are called exactly if ids and times are ordered alike as far as the
limit goes, and only the handler of the last one throws. -/
theorem called_perm_iff (u : Unconfirmed) (now : ℕ) (throws : AccumulatedMessage → Bool) :
    (throughFirst throws (u.timedOut now cfg.confirmTimeout)).Perm
        (u.entries.filter (cfg.expired now)) ↔
      (∀ m ∈ u.entries, ∀ m' ∈ u.entries, m.publishingId < m'.publishingId →
        cfg.expired now m' = true → cfg.expired now m = true) ∧
      ∀ m ∈ u.entries, ∀ m' ∈ u.entries, m.publishingId < m'.publishingId →
        cfg.expired now m = true → cfg.expired now m' = true → throws m = false := by
  have hfilter := (u.sorted_perm.filter (cfg.expired now)).symm
  have hasymm : ∀ {m m' : AccumulatedMessage}, m.publishingId < m'.publishingId →
      ¬m'.publishingId < m.publishingId := fun h => UInt64.lt_asymm h
  have hscan := throughFirst_takeWhile_perm_filter_iff (p := cfg.expired now) (q := throws)
    (l := u.sorted)
  rw [pairwise_iff_forall_mem hasymm u.sorted_pairwise,
    pairwise_iff_forall_mem hasymm u.sorted_pairwise] at hscan
  simp only [Unconfirmed.mem_sorted] at hscan
  rw [← hscan]
  exact ⟨fun h => h.trans hfilter, fun h => h.trans hfilter.symm⟩

/-- **When the scan is exact**: a call of `check_confirm_timeout` fails exactly the messages that are
late if and only if no message that is not late has a smaller id than one that is, and of the handlers of
those that are late only that of the message with the greatest id throws. -/
theorem checkConfirmTimeout_exact_iff (cfg : Config) (s : State) (now : ℕ)
    (throws : AccumulatedMessage → Bool) (hentered : s.timeout = .entered)
    (hunlocked : s.unlocked = true) :
    ∃ t, (machine cfg).run s (checkConfirmTimeout cfg s now throws) = some t ∧
      (ScansExactly cfg now s t ↔
        (∀ m ∈ s.unconfirmed.entries, ∀ m' ∈ s.unconfirmed.entries,
          m.publishingId < m'.publishingId → m'.publishTime + cfg.confirmTimeout ≤ now →
          m.publishTime + cfg.confirmTimeout ≤ now) ∧
        ∀ m ∈ s.unconfirmed.entries, ∀ m' ∈ s.unconfirmed.entries,
          m.publishingId < m'.publishingId → m.publishTime + cfg.confirmTimeout ≤ now →
          m'.publishTime + cfg.confirmTimeout ≤ now → throws m = false) := by
  obtain ⟨t, hrun, hunconfirmed, hhandled, -⟩ := run_checkConfirmTimeout throws hentered hunlocked
  refine ⟨t, hrun, ?_⟩
  rw [scansExactly_iff_perm hunconfirmed hhandled, called_perm_iff]
  simp only [Config.expired, decide_eq_true_eq]

/-- Batches of one message, and confirmations that are late after five units of time. -/
def impatient : Config where
  batchSize := 1
  batchPublishingDelay := 0
  maxUnconfirmed := 8
  confirmTimeout := 5
  enqueueTimeout := 0
  firstPublishingId := 0
  maxFrameSize := 0

/-- A call of `send` with an id of the user, which publishes its message. -/
def sentAt (k : ℕ) (publishingId : UInt64) (now : ℕ) : List Act :=
  [.send (.call (some publishingId)), .send (.check k), .send (.acquire k),
    .send (.encode k (some []) now), .send (.insert k), .send (.proceed k),
    .batch (.lock (.send k)), .batch .extract, .batch (.publish none), .batch .insert]

/-- The theorem after two messages in the order of their ids: the first fails, even if its handler
throws. -/
theorem checkConfirmTimeout_exact_inOrder :
    ∃ s, (machine impatient).run (initial impatient)
        (sentAt 0 1 0 ++ sentAt 1 2 10 ++ [Act.timeout .enter]) = some s ∧
      ∃ t, (machine impatient).run s (checkConfirmTimeout impatient s 10 fun _ => true) = some t ∧
        ScansExactly impatient 10 s t := by
  have hrun : ((machine impatient).run (initial impatient)
      (sentAt 0 1 0 ++ sentAt 1 2 10 ++ [Act.timeout .enter])).any (fun s =>
        s.timeout = .entered ∧ s.unlocked = true ∧
          (∀ m ∈ s.unconfirmed.entries, ∀ m' ∈ s.unconfirmed.entries,
            m.publishingId < m'.publishingId → m'.publishTime + impatient.confirmTimeout ≤ 10 →
            m.publishTime + impatient.confirmTimeout ≤ 10) ∧
          ∀ m ∈ s.unconfirmed.entries, ∀ m' ∈ s.unconfirmed.entries,
            m.publishingId < m'.publishingId → m.publishTime + impatient.confirmTimeout ≤ 10 →
            m'.publishTime + impatient.confirmTimeout ≤ 10 → true = false) = true := by
    decide +kernel
  obtain ⟨s, hs, hend⟩ := (Option.any_eq_true ..).1 hrun
  obtain ⟨hentered, hunlocked, hordered, hlast⟩ := of_decide_eq_true hend
  obtain ⟨t, ht, hexact⟩ :=
    checkConfirmTimeout_exact_iff impatient s 10 (fun _ => true) hentered hunlocked
  exact ⟨s, hs, t, ht, hexact.2 ⟨hordered, hlast⟩⟩

/-- **A late message behind a young one is not found**: the user sends id 2 at time 0 and id 1 at
time 10, and the call at time 10 ends without failing either. **A late message behind one whose handler
throws is not failed**: the user sends the ids 1 and 2 at time 0, and the call at time 10 takes both out,
calls the handler of the first and ends with its exception. -/
theorem late_missed_of_smallerId :
    (∃ s t, (machine impatient).run (initial impatient)
        (sentAt 0 2 0 ++ sentAt 1 1 10 ++ [Act.timeout .enter]) = some s ∧
      (machine impatient).run s (checkConfirmTimeout impatient s 10 fun _ => false) = some t ∧
      t.timeout = .idle ∧ t.handled = [] ∧ ¬ScansExactly impatient 10 s t) ∧
    ∃ s t, (machine impatient).run (initial impatient)
        (sentAt 0 1 0 ++ sentAt 1 2 0 ++ [Act.timeout .enter]) = some s ∧
      (machine impatient).run s (checkConfirmTimeout impatient s 10 fun m => m.publishingId = 1) =
        some t ∧
      t.timeout = .threw ∧ t.unconfirmed.entries = [] ∧
      t.handled.map (fun c => c.1.publishingId) = [1] ∧ ¬ScansExactly impatient 10 s t := by
  refine ⟨?_, ?_⟩
  · have hrun : ((machine impatient).run (initial impatient)
        (sentAt 0 2 0 ++ sentAt 1 1 10 ++ [Act.timeout .enter])).any (fun s =>
          ((machine impatient).run s (checkConfirmTimeout impatient s 10 fun _ => false)).any fun t =>
            t.timeout = .idle ∧ t.handled = [] ∧
              ⟨2, 0, [], 0⟩ ∈ t.unconfirmed.entries) = true := by decide +kernel
    obtain ⟨s, hs, hend⟩ := (Option.any_eq_true ..).1 hrun
    obtain ⟨t, ht, hend⟩ := (Option.any_eq_true ..).1 hend
    obtain ⟨hidle, hhandled, hkept⟩ := of_decide_eq_true hend
    refine ⟨s, t, hs, ht, hidle, hhandled, fun hexact => ?_⟩
    have hyoung := ((hexact.unconfirmed _).1 hkept).2
    exact absurd hyoung (by decide)
  · have hrun : ((machine impatient).run (initial impatient)
        (sentAt 0 1 0 ++ sentAt 1 2 0 ++ [Act.timeout .enter])).any (fun s =>
          s.handled = [] ∧ (s.unconfirmed.entries.filter (impatient.expired 10)).length = 2 ∧
          ((machine impatient).run s
            (checkConfirmTimeout impatient s 10 fun m => m.publishingId = 1)).any (fun t =>
              t.timeout = .threw ∧ t.unconfirmed.entries = [] ∧
                t.handled.map (fun c => c.1.publishingId) = [1]) = true) = true := by decide +kernel
    obtain ⟨s, hs, hend⟩ := (Option.any_eq_true ..).1 hrun
    obtain ⟨hnone, htwo, hend⟩ := of_decide_eq_true hend
    obtain ⟨t, ht, hend⟩ := (Option.any_eq_true ..).1 hend
    obtain ⟨hthrew, hempty, hhandled⟩ := of_decide_eq_true hend
    refine ⟨s, t, hs, ht, hthrew, hempty, hhandled, fun hexact => ?_⟩
    -- two messages are late, and one handler was called
    obtain ⟨calls, hcalls, -, hperm⟩ := hexact.failed
    rw [hnone, List.nil_append] at hcalls
    have hlength := hperm.length_eq
    have hone := congrArg List.length hhandled
    rw [List.length_map] at hlength hone
    rw [htwo, ← hcalls, hone] at hlength
    simp at hlength

end Hareflow.Producer
