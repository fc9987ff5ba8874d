import Hareflow.Foundations.Pool
import Hareflow.Producer.Repeated
import Mathlib.Algebra.Order.BigOperators.Group.Finset

/-!
# Permits

`send` takes a permit of `m_enqueue_semaphore` before it adds its message, and from then on the
permit is part of the message: it goes back when the last reference to the message is dropped, or when
`send` throws. Permits are counted by the calls of `send` that they were given to.

* `State.alive` is the messages that some container or some thread refers to, and `State.pool` the
  semaphore with the holders of its permits: the calls that have not yet added their message, and the
  messages that are alive.
* `step_poolMove`: each step of the producer is a move of that pool, whatever the ids are.
* A message that `publish_batch` drops because its id is taken gives its permit back although its
  handler is not called, and so does one that is lost to the exception of another handler. So the permits
  bound the messages that are alive and, only if no id repeats and no message is lost to an exception,
  those that have been accepted and not resolved.
-/

namespace Hareflow.Producer

open Foundations

variable {cfg : Config} {s t : State} {m : AccumulatedMessage}

/-! ## The holders of the permits -/

/-- The permit that the call with the number `k` holds itself. -/
def SendPc.permit (k : ℕ) : SendPc → Multiset ℕ
  | .permitted _ | .sized _ => {k}
  | _ => 0

/-- The call has been given a permit, and has not thrown since. -/
def SendPc.entitled : SendPc → Bool
  | .permitted _ | .sized _ | .added _ | .publishing | .returned => true
  | _ => false

/-- The message that a frame thread refers to. -/
def FramePc.held : FramePc → Multiset AccumulatedMessage
  | .taken m _ | .handling m => {m}
  | _ => 0

/-- The messages that `check_confirm_timeout` refers to, until it returns. -/
def TimeoutPc.held : TimeoutPc → List AccumulatedMessage
  | .failing timedOut _ _ => timedOut
  | _ => []

/-- The messages that the second loop of `fail_all_unconfirmed` refers to, until it is done. -/
def Stage.held : Stage → List AccumulatedMessage
  | .pending extracted _ => extracted
  | _ => []

namespace State

/-- The calls of `send` that hold a permit and have not yet added their message. -/
def holding (s : State) : Multiset ℕ := ∑ k ∈ Finset.range s.calls, (s.sends k).permit k

/-- The messages that are alive. -/
def alive (s : State) : Multiset AccumulatedMessage :=
  s.accumulator.pending + s.moving + s.unconfirmed.entries +
    (∑ c ∈ Finset.range s.created, (s.frames c).held + s.timeout.held + s.stage.held)

/-- The live permits, by the calls of `send` that they were given to. -/
def permits (s : State) : Multiset ℕ := s.holding + s.alive.map AccumulatedMessage.ticket

def pool (s : State) : Pool ℕ := ⟨s.semaphore.available, s.permits⟩

end State

open Pool

/-! ## The steps of `send` -/

/-- A call moves: what the calls hold changes by what it held and holds. -/
theorem holding_setSend {k : ℕ} (hk : k < s.calls) (pc : SendPc) :
    (s.sends k).permit k + (s.setSend k pc).holding = pc.permit k + s.holding :=
  add_sum_update s.sends (fun k => SendPc.permit k) (Finset.mem_range.2 hk) pc

/-- A call that holds the same before and after leaves the pool alone. -/
theorem pool_setSend {k : ℕ} {pc : SendPc} (hk : k < s.calls)
    (hsame : pc.permit k = (s.sends k).permit k) : (s.setSend k pc).pool = s.pool := by
  have hsum := holding_setSend hk pc
  rw [hsame] at hsum
  exact Pool.ext rfl (congrArg (· + _) (add_left_cancel hsum))

/-- A call that throws drops its permit. -/
theorem permits_throwPermitted {k : ℕ} (hk : k < s.calls) (hpermit : (s.sends k).permit k = {k}) :
    s.permits = {k} + (s.throwPermitted k).permits := by
  have hsum := holding_setSend (s := s.release 1) hk .threw
  have hheld : s.holding = {k} + (s.throwPermitted k).holding := by
    rw [← hpermit]
    exact (hsum.trans (zero_add _)).symm
  rw [State.permits, hheld, add_assoc]
  rfl

/-- A step is a move of the pool: a permit goes to a call that had none, and only a call whose permit
goes back may throw. -/
structure PoolStep (s t : State) (o : Option ℕ) : Prop where
  move : Move s.pool t.pool o
  acquires : ∀ k ∈ o, (s.sends k).entitled = false ∧ (t.sends k).entitled = true
  keeps : s.pool.held.Nodup → ∀ k ∈ t.pool.held,
    (s.sends k).entitled = true → (t.sends k).entitled = true

theorem PoolStep.keep (hmove : Move s.pool t.pool none)
    (hkeeps : ∀ k, (s.sends k).entitled = true → (t.sends k).entitled = true) :
    PoolStep s t none :=
  ⟨hmove, by simp, fun _ k _ => hkeeps k⟩

/-- A call moves and keeps its permit, if it has one. -/
theorem entitled_setSend {k : ℕ} {pc : SendPc}
    (hpc : (s.sends k).entitled = true → pc.entitled = true) (l : ℕ)
    (hl : (s.sends l).entitled = true) : ((s.setSend k pc).sends l).entitled = true := by
  by_cases hlk : l = k
  · subst hlk
    simpa [State.setSend] using hpc hl
  · simpa [State.setSend, hlk] using hl

theorem PoolStep.setSend {k : ℕ} {pc : SendPc} (hk : k < s.calls)
    (hsame : pc.permit k = (s.sends k).permit k)
    (hpc : (s.sends k).entitled = true → pc.entitled = true) : PoolStep s (s.setSend k pc) none :=
  .keep (.stay (pool_setSend hk hsame)) (entitled_setSend hpc)

theorem PoolStep.throwPermitted {k : ℕ} (hk : k < s.calls)
    (hpermit : (s.sends k).permit k = {k}) : PoolStep s (s.throwPermitted k) none := by
  have hheld : s.pool.held = {k} + (s.throwPermitted k).pool.held :=
    permits_throwPermitted hk hpermit
  refine ⟨.release {k} rfl hheld, by simp, fun hnodup l hl hentitled => ?_⟩
  have hlk : l ≠ k := by
    rintro rfl
    rw [hheld] at hnodup
    exact Multiset.disjoint_left.1 (Multiset.nodup_add.1 hnodup).2.2 (Multiset.mem_singleton_self _) hl
  simpa [State.throwPermitted, State.setSend, State.release, hlk] using hentitled

theorem poolStep_stepSend {a : SendAct} (hn : Ticketed s.sending) (h : stepSend cfg s a = some t) :
    ∃ o, PoolStep s t o := by
  have hlt : ∀ {k}, s.sends k ≠ .idle → k < s.calls := hn.lt_calls
  cases a with
  | call explicit =>
    have hidle : s.sends s.calls = .idle := hn.fresh _ (Nat.le_refl _)
    have hcall : ∀ (i next : UInt64), PoolStep s { s.setSend s.calls (.allocated i) with
        nextPublishingId := next, calls := s.calls + 1 } none := by
      intro i next
      refine .keep (.stay (Pool.ext rfl (congrArg (· + _) ?_)))
        (entitled_setSend fun h => by rw [hidle] at h; cases h)
      simp only [State.holding, State.setSend]
      rw [Finset.sum_range_succ, Function.update_self]
      refine (add_zero _).trans (Finset.sum_congr rfl fun k hk => ?_)
      rw [Function.update_of_ne (Finset.mem_range.1 hk).ne]
    cases explicit <;> cases h <;> exact ⟨none, hcall _ _⟩
  | acquire k =>
    simp only [stepSend] at h
    split at h
    · rename_i i hk
      have hk' : k < s.calls := hlt (by simp [hk])
      split at h
      · cases h
        exact ⟨none, .setSend hk' (by simp [hk, SendPc.permit]) fun h => by rw [hk] at h; cases h⟩
      · split at h <;> cases h
        rename_i havail
        have hsum := holding_setSend hk' (.permitted i)
        rw [hk] at hsum
        have hholding : (s.setSend k (.permitted i)).holding = {k} + s.holding :=
          (zero_add _).symm.trans hsum
        refine ⟨some k, .acquire k ?_ ?_, ?_, fun _ l _ => ?_⟩
        · simp only [State.pool]
          omega
        · show (s.setSend k (.permitted i)).holding + s.alive.map AccumulatedMessage.ticket = _
          rw [hholding, add_assoc, Multiset.singleton_add]
          rfl
        · intro l hl
          obtain rfl := Option.mem_some_iff.1 hl
          have hself : (s.setSend k (.permitted i)).sends k = .permitted i := Function.update_self ..
          rw [hk]
          refine ⟨rfl, ?_⟩
          show ((s.setSend k (.permitted i)).sends k).entitled = true
          rw [hself]
          rfl
        · exact entitled_setSend (fun _ => rfl) l
    · cases h
  | encode k encoded now =>
    simp only [stepSend] at h
    split at h
    · rename_i hk
      cases h
      exact ⟨none, .throwPermitted (hlt (by simp [hk])) (by simp [hk, SendPc.permit])⟩
    · rename_i i e hk
      split at h <;> cases h
      · exact ⟨none, .throwPermitted (hlt (by simp [hk])) (by simp [hk, SendPc.permit])⟩
      · exact ⟨none, .setSend (hlt (by simp [hk])) (by simp [hk, SendPc.permit]) fun _ => rfl⟩
    · cases h
  | insert k =>
    simp only [stepSend] at h
    split at h
    · rename_i m hk
      have hk' : k < s.calls := hlt (by simp [hk])
      split at h
      · cases h
        exact ⟨none, .throwPermitted hk' (by simp [hk, SendPc.permit])⟩
      · rename_i full a ha
        cases h
        obtain ⟨-, -, rfl⟩ := Accumulator.insert_eq_added ha
        have hticket : m.ticket = k := hn.tickets k m hk
        have hsum := holding_setSend hk' (.added full)
        rw [hk] at hsum
        have hholding : s.holding = {k} + (s.setSend k (.added full)).holding :=
          (hsum.trans (zero_add _)).symm
        refine ⟨none, .keep (.stay (Pool.ext rfl ?_))
          (entitled_setSend fun _ => rfl)⟩
        -- the permit goes from the call to its message
        have halive : State.alive { s.setSend k (.added full) with
            accumulator := { s.accumulator with pending := s.accumulator.pending ++ [m] }
            accepted := s.accepted ++ [m] } = {m} + s.alive := by
          simp only [State.alive, State.moving, State.setSend, ← Multiset.coe_add,
            Multiset.coe_singleton]
          ac_rfl
        simp only [State.pool, State.permits, halive, hholding, Multiset.map_add,
          Multiset.map_singleton, hticket]
        rw [add_left_comm, add_assoc]
        rfl
      · cases h
    · cases h
  | check k | timeout k | proceed k =>
    simp only [stepSend] at h
    split at h
    · rename_i hk
      have hk' : k < s.calls := hlt (by simp [hk])
      (repeat' split at h) <;> first
        | (cases h; done)
        | (cases h
           exact ⟨none, .setSend hk' (by simp [hk, SendPc.permit]) fun _ => rfl⟩)
        | (cases h
           exact ⟨none, .setSend hk' (by simp [hk, SendPc.permit]) fun h => by rw [hk] at h; cases h⟩)
    · cases h

/-! ## The other steps -/

/-- Messages that are no longer alive give their permits back. -/
theorem poolMove_release (r : Multiset AccumulatedMessage) (hholding : t.holding = s.holding)
    (halive : s.alive = r + t.alive)
    (havail : t.semaphore.available = s.semaphore.available + r.card) :
    Move s.pool t.pool none := by
  refine .release (r.map AccumulatedMessage.ticket) (by simpa [State.pool] using havail) ?_
  simp only [State.pool, State.permits, hholding, halive, Multiset.map_add]
  exact add_left_comm _ _ _

theorem poolMove_stay (hholding : t.holding = s.holding) (halive : t.alive = s.alive)
    (havail : t.semaphore.available = s.semaphore.available) : Move s.pool t.pool none :=
  poolMove_release 0 hholding (by rw [halive, zero_add]) havail

/-- The call of `publish_batch` returns to its caller, who keeps nothing. -/
theorem PoolStep.finish {u : State} {caller : Caller} (hmove : Move s.pool u.pool none)
    (hsends : u.sends = s.sends) (hcalls : u.calls = s.calls) (hn : Ticketed s.sending)
    (hcall : ∀ k, caller = .send k → s.sends k = .publishing) : PoolStep s (u.finish caller) none := by
  cases caller with
  | send k =>
    have hk : u.sends k = .publishing := (congrFun hsends k).trans (hcall k rfl)
    have hlt : k < u.calls := by
      rw [hcalls]
      exact hn.lt_calls (by simp [State.sending, hcall k rfl])
    refine .keep ?_ fun l hl => entitled_setSend (fun _ => rfl) l ?_
    · show Move s.pool (u.setSend k .returned).pool none
      rwa [pool_setSend hlt (by simp [hk, SendPc.permit])]
    · rwa [hsends]
  | flush k | task =>
    refine .keep hmove fun l hl => ?_
    show (u.sends l).entitled = true
    rwa [hsends]

theorem poolStep_stepBatch {a : BatchAct} (hn : Ticketed s.sending)
    (h : stepBatch cfg s a = some t) : PoolStep s t none := by
  cases batchMove_of_step h with
  | flush | task => exact .keep (.stay rfl) fun _ hk => hk
  | lock hcall hfree =>
    have hnone : s.batch = none := (State.unlocked_iff.1 hfree).1
    refine .keep (poolMove_stay rfl ?_ rfl) fun _ hk => hk
    simp [State.alive, State.moving, hnone, BatchPc.messages]
  | decline hcall =>
    refine .finish (.stay rfl) rfl rfl hn ?_
    rintro k rfl
    simpa [State.calling] using hcall
  | extract hb =>
    refine .keep (poolMove_stay rfl ?_ rfl) fun _ hk => hk
    simp [State.alive, State.moving, hb, BatchPc.messages, Accumulator.extractAll]
  | publish hb | park hb =>
    refine .keep (poolMove_stay rfl ?_ rfl) fun _ hk => hk
    simp [State.alive, State.moving, State.write, hb, BatchPc.messages]
  | @insert caller ms hb =>
    obtain ⟨dropped, hperm, hlength⟩ := s.unconfirmed.exists_dropped ms
    have hsplit : (s.unconfirmed.entries + ms : Multiset AccumulatedMessage) =
        dropped + (s.unconfirmed.emplaceAll ms).entries := Multiset.coe_eq_coe.2 hperm
    refine .finish (poolMove_release dropped rfl ?_ ?_) rfl rfl hn ?_
    · have hmoving : s.moving = ms := by simp [State.moving, hb, BatchPc.messages]
      rw [State.alive, hmoving, add_assoc (s.accumulator.pending : Multiset AccumulatedMessage),
        add_comm (ms : Multiset AccumulatedMessage), hsplit]
      simp only [State.alive, State.moving, State.release, Option.map_none, Option.getD_none,
        Multiset.coe_nil, add_zero]
      ac_rfl
    · simp [State.release, hlength]
    · rintro k rfl
      exact hn.batch k _ hb

/-- One frame thread moves. -/
theorem sum_held_update (frames : ℕ → FramePc) {c n : ℕ} (hc : c < n) (pc : FramePc) :
    (frames c).held + ∑ d ∈ Finset.range n, (Function.update frames c pc d).held =
      pc.held + ∑ d ∈ Finset.range n, (frames d).held :=
  add_sum_update frames (fun _ => FramePc.held) (Finset.mem_range.2 hc) pc

/-- A frame thread that refers to the same message before and after leaves the pool alone. -/
theorem alive_setFrame {c : ℕ} {pc : FramePc} (hs : Stopping s) (hc : (s.frames c).active = true)
    (hsame : pc.held = (s.frames c).held) : (s.setFrame c pc).alive = s.alive := by
  have hsum := sum_held_update s.frames (hs.lt_created hc) pc
  rw [hsame] at hsum
  simp only [State.alive, State.setFrame, add_left_cancel hsum]
  rfl

theorem poolMove_takeUnconfirmed {c : ℕ} {i : UInt64} {st : ConfirmationStatus} (hs : Stopping s)
    (h : s.takeUnconfirmed c i st = some t) : Move s.pool t.pool none := by
  simp only [State.takeUnconfirmed] at h
  split at h
  · rename_i hg
    split at h <;> cases h
    · rename_i m hm
      have hsum := sum_held_update s.frames (hs.lt_created (c := c) (by simp [hg.1, FramePc.active]))
        (.taken m st)
      rw [hg.1] at hsum
      have hframes : ∑ d ∈ Finset.range s.created, (Function.update s.frames c (.taken m st) d).held =
          {m} + ∑ d ∈ Finset.range s.created, (s.frames d).held := (zero_add _).symm.trans hsum
      have hperm : (s.unconfirmed.entries : Multiset AccumulatedMessage) =
          {m} + (s.unconfirmed.erase i).entries :=
        Multiset.coe_eq_coe.2 (Unconfirmed.perm_of_find hm)
      refine poolMove_stay rfl ?_ rfl
      simp only [State.alive, State.moving, State.setFrame, hframes, hperm]
      ac_rfl
    · exact .stay rfl
  · cases h

theorem poolMove_stepFrame {a : FrameAct} (hs : Stopping s) (h : stepFrame s a = some t) :
    Move s.pool t.pool none := by
  cases a with
  | confirm c i => exact poolMove_takeUnconfirmed hs h
  | error c i e => exact poolMove_takeUnconfirmed hs h
  | invoke c =>
    simp only [stepFrame] at h
    split at h <;> cases h
    rename_i m st hc
    have halive : (s.setFrame c (.handling m)).alive = s.alive :=
      alive_setFrame hs (by simp [hc, FramePc.active]) (by simp [hc, FramePc.held])
    exact poolMove_stay rfl halive rfl
  | finish c =>
    simp only [stepFrame] at h
    split at h
    · rename_i m hc
      split at h <;> cases h
      have hsum := sum_held_update s.frames (hs.lt_created (c := c) (by simp [hc, FramePc.active]))
        .reading
      rw [hc] at hsum
      have hframes : ∑ d ∈ Finset.range s.created, (s.frames d).held =
          {m} + ∑ d ∈ Finset.range s.created, (Function.update s.frames c .reading d).held :=
        (hsum.trans (zero_add _)).symm
      refine poolMove_release {m} rfl ?_ rfl
      simp only [State.alive, State.moving, State.setFrame, State.release, hframes]
      ac_rfl
    · cases h
  | leave c =>
    simp only [stepFrame] at h
    split at h <;> cases h
    rename_i hc
    refine poolMove_stay rfl ?_ rfl
    exact alive_setFrame hs (by simp [hc, FramePc.active]) (by simp [hc, FramePc.held])

theorem poolMove_stepTimeout {a : TimeoutAct} (h : stepTimeout cfg s a = some t) :
    Move s.pool t.pool none := by
  cases a with
  | enter =>
    simp only [stepTimeout] at h
    split at h <;> cases h
    rename_i hg
    refine poolMove_stay rfl ?_ rfl
    simp [State.alive, State.moving, hg.2.2, TimeoutPc.held]
  | scan now =>
    simp only [stepTimeout] at h
    split at h <;> cases h
    rename_i hg
    have hperm : (s.unconfirmed.entries : Multiset AccumulatedMessage) =
        s.unconfirmed.timedOut now cfg.confirmTimeout +
          (s.unconfirmed.eraseAll (s.unconfirmed.timedOut now cfg.confirmTimeout)).entries :=
      Multiset.coe_eq_coe.2 (s.unconfirmed.perm_timedOut now cfg.confirmTimeout)
    refine poolMove_stay rfl ?_ rfl
    simp only [State.alive, State.moving, hg.1, TimeoutPc.held, Multiset.coe_nil, add_zero]
    rw [hperm]
    ac_rfl
  | invoke =>
    simp only [stepTimeout] at h
    split at h <;> cases h
    rename_i timedOut m todo e hg
    refine poolMove_stay rfl ?_ rfl
    simp [State.alive, State.moving, State.handle, hg, TimeoutPc.held]
  | throw =>
    simp only [stepTimeout] at h
    split at h <;> cases h
    rename_i timedOut m todo e hg
    refine poolMove_release timedOut rfl ?_ rfl
    simp only [State.alive, State.moving, State.release, State.handle, hg, TimeoutPc.held,
      Multiset.coe_nil]
    ac_rfl
  | finish =>
    simp only [stepTimeout] at h
    split at h <;> cases h
    rename_i timedOut e hg
    refine poolMove_release timedOut rfl ?_ rfl
    simp only [State.alive, State.moving, State.release, hg, TimeoutPc.held, Multiset.coe_nil]
    ac_rfl

theorem poolMove_stepReconnect {a : ReconnectAct} (h : stepReconnect cfg s a = some t) :
    Move s.pool t.pool none := by
  cases a with
  | connect =>
    simp only [stepReconnect] at h
    split at h <;> cases h
    have hsum : ∑ c ∈ Finset.range (s.created + 1),
        (Function.update s.frames s.created .reading c).held =
          ∑ c ∈ Finset.range s.created, (s.frames c).held := by
      rw [Finset.sum_range_succ, Function.update_self]
      refine (add_zero _).trans (Finset.sum_congr rfl fun c hc => ?_)
      rw [Function.update_of_ne (Finset.mem_range.1 hc).ne]
    refine poolMove_stay rfl ?_ rfl
    simp only [State.alive, State.moving, State.setFrame, hsum]
  | _ =>
    simp only [stepReconnect] at h
    (repeat' split at h) <;> first
      | (cases h; done)
      | (cases h; exact .stay rfl)

theorem poolMove_stepStop {a : StopAct} (h : stepStop s a = some t) : Move s.pool t.pool none := by
  cases stopMove_of_step h with
  | callUser | callFrame | callTask | destroy | join | joinThrew | decline => exact .stay rfl
  | exchange hpc hst | accumulator hpc hst | semaphore hpc hst | take hpc hst | takeNone hpc hst
  | stopped hpc hst | lock hpc hst | failUnconfirmed hpc hst | failPending hpc hst
  | abortUnconfirmed hpc hst =>
    refine poolMove_stay rfl ?_ rfl
    simp [State.alive, State.moving, State.handle, State.setStop, Accumulator.destroy, hst,
      Stage.held]
  | clear hpc hst =>
    refine poolMove_release s.unconfirmed.entries rfl ?_ rfl
    simp only [State.alive, State.moving, State.release, hst, Stage.held, Accumulator.extractAll,
      Unconfirmed.entries_empty, Multiset.coe_nil, add_zero, zero_add]
    ac_rfl
  | @finish p extracted hpc hst | @abortPending p m extracted todo hpc hst =>
    refine poolMove_release extracted rfl ?_ rfl
    simp only [State.alive, State.moving, State.release, State.setStop, State.handle, hst, Stage.held,
      Multiset.coe_nil, add_zero]
    ac_rfl

/-- **Each step is a move of the pool.** -/
theorem step_poolMove {a : Act} (hs : Stopping s) (hn : Ticketed s.sending)
    (h : step cfg s a = some t) : ∃ o, PoolStep s t o := by
  cases a with
  | send a => exact poolStep_stepSend hn h
  | batch a => exact ⟨none, poolStep_stepBatch hn h⟩
  | frame a =>
    have hmove := poolMove_stepFrame hs h
    obtain ⟨_, _, _, _, rfl⟩ := stepFrame_touches h
    exact ⟨none, .keep hmove fun _ hk => hk⟩
  | shutdown a =>
    obtain ⟨_, _, rfl⟩ := stepShutdown_touches h
    exact ⟨none, .keep (.stay rfl) fun _ hk => hk⟩
  | timeout a =>
    have hmove := poolMove_stepTimeout h
    obtain ⟨_, _, _, _, rfl⟩ := stepTimeout_touches h
    exact ⟨none, .keep hmove fun _ hk => hk⟩
  | reconnect a =>
    have hmove := poolMove_stepReconnect h
    obtain ⟨_, _, _, _, _, _, rfl⟩ := stepReconnect_touches h
    exact ⟨none, .keep hmove fun _ hk => hk⟩
  | stop a =>
    have hmove := poolMove_stepStop h
    obtain ⟨_, _, _, _, _, _, _, _, rfl⟩ := stepStop_touches h
    exact ⟨none, .keep hmove fun _ hk => hk⟩

/-! ## What the permits bound -/

/-- What the loops over messages have still to do is part of what they refer to. -/
structure Looping (s : State) : Prop where
  timeout : s.timeout.todo.Sublist s.timeout.held
  unconfirmed : ∀ todo, s.stage = .unconfirmed todo → todo.Sublist s.unconfirmed.entries
  pending : ∀ extracted todo, s.stage = .pending extracted todo → todo.Sublist extracted

namespace Looping

/-- Outside the critical section of `fail_all_unconfirmed` only `check_confirm_timeout` loops. -/
theorem of_open (hopen : s.stage.locks = false) (htimeout : s.timeout.todo.Sublist s.timeout.held) :
    Looping s := by
  refine ⟨htimeout, fun todo hst => ?_, fun extracted todo hst => ?_⟩ <;>
    simp [hst, Stage.locks] at hopen

theorem initial (cfg : Config) : Looping (initial cfg) := .of_open rfl (.refl _)

theorem stepTimeout {a : TimeoutAct} (h : stepTimeout cfg s a = some t)
    (hs : s.timeout.todo.Sublist s.timeout.held) : t.timeout.todo.Sublist t.timeout.held := by
  cases a with
  | enter =>
    simp only [Producer.stepTimeout] at h
    split at h <;> cases h
    exact .refl _
  | scan now =>
    simp only [Producer.stepTimeout] at h
    split at h <;> cases h
    exact .refl _
  | invoke =>
    simp only [Producer.stepTimeout] at h
    split at h <;> cases h
    rename_i timedOut m todo e hg
    rw [hg] at hs
    exact (List.sublist_cons_self m todo).trans hs
  | throw =>
    simp only [Producer.stepTimeout] at h
    split at h <;> cases h
    exact .refl _
  | finish =>
    simp only [Producer.stepTimeout] at h
    split at h <;> cases h
    exact .refl _

theorem stepStop {a : StopAct} (hl : Looping s) (h : stepStop s a = some t) : Looping t := by
  cases stopMove_of_step h with
  | callUser | callFrame | callTask | destroy | join | joinThrew | decline =>
    exact ⟨hl.timeout, hl.unconfirmed, hl.pending⟩
  | exchange | accumulator | semaphore | take | takeNone | stopped | finish | abortUnconfirmed
  | abortPending => exact .of_open rfl hl.timeout
  | lock =>
    refine ⟨hl.timeout, fun todo ht => ?_, fun extracted todo ht => by simp at ht⟩
    obtain rfl := Stage.unconfirmed.inj ht
    exact .refl _
  | @failUnconfirmed p m todo hpc hst =>
    refine ⟨hl.timeout, fun todo' ht => ?_, fun extracted todo ht => by simp at ht⟩
    obtain rfl := Stage.unconfirmed.inj ht
    exact (List.sublist_cons_self m todo).trans (hl.unconfirmed _ hst)
  | clear =>
    refine ⟨hl.timeout, fun todo ht => by simp at ht, fun extracted todo ht => ?_⟩
    obtain ⟨rfl, rfl⟩ := Stage.pending.inj ht
    exact .refl _
  | @failPending p m extracted todo hpc hst =>
    refine ⟨hl.timeout, fun todo ht => by simp at ht, fun extracted' todo' ht => ?_⟩
    obtain ⟨rfl, rfl⟩ := Stage.pending.inj ht
    exact (List.sublist_cons_self m todo).trans (hl.pending _ _ hst)

theorem step {a : Act} (hl : Looping s) (hs : Stopping s) (h : step cfg s a = some t) :
    Looping t := by
  by_cases hstop : ∃ b, a = .stop b
  · obtain ⟨b, rfl⟩ := hstop
    exact hl.stepStop h
  · have ha : ∀ b, a ≠ .stop b := fun b hb => hstop ⟨b, hb⟩
    have hstage := (step_stop_frame h ha).2.1
    have htimeout : t.timeout.todo.Sublist t.timeout.held := by
      cases a with
      | timeout a => exact stepTimeout h hl.timeout
      | send a =>
        obtain ⟨k, m, full, -, -, -, rfl⟩ | ⟨_, _, _, _, rfl⟩ := stepSend_inv h <;> exact hl.timeout
      | batch a =>
        obtain ⟨_, _, _, _, _, _, _, _, rfl⟩ := stepBatch_touches h
        exact hl.timeout
      | frame a =>
        obtain ⟨_, _, _, _, rfl⟩ := stepFrame_touches h
        exact hl.timeout
      | shutdown a =>
        obtain ⟨_, _, rfl⟩ := stepShutdown_touches h
        exact hl.timeout
      | reconnect a =>
        obtain ⟨_, _, _, _, _, _, rfl⟩ := stepReconnect_touches h
        exact hl.timeout
      | stop a => exact absurd rfl (ha a)
    refine ⟨htimeout, fun todo ht => ?_, fun extracted todo ht => ?_⟩
    · have hst : s.stage = .unconfirmed todo := hstage ▸ ht
      rw [hs.unconfirmed_of_locks h ha (by simp [hst, Stage.locks])]
      exact hl.unconfirmed todo hst
    · exact hl.pending extracted todo (hstage ▸ ht)

end Looping

/-- The permits of a state, with what they rest on. -/
structure Permitted (cfg : Config) (s : State) : Prop where
  tracked : Tracked s
  looping : Looping s
  total : s.pool.total = cfg.maxUnconfirmed
  fair : Fair (fun k => (s.sends k).entitled = true) s.pool

theorem Permitted.initial (cfg : Config) : Permitted cfg (initial cfg) := by
  refine ⟨.initial cfg, .initial cfg, ?_, ?_, ?_⟩ <;>
    simp [Pool.total, State.pool, State.permits, State.holding, State.alive, State.moving,
      Producer.initial, FramePc.held, TimeoutPc.held, Stage.held]

theorem Permitted.step {a : Act} (hs : Permitted cfg s) (h : step cfg s a = some t) :
    Permitted cfg t := by
  obtain ⟨o, hpool⟩ := step_poolMove hs.tracked.stopping hs.tracked.ticketed h
  refine ⟨hs.tracked.step h, hs.looping.step hs.tracked.stopping h, ?_, ?_⟩
  · rw [hpool.move.total_eq, hs.total]
  · refine hs.fair.move hpool.move (fun k hk => ?_) (hpool.keeps hs.fair.nodup)
    exact ⟨by simp [(hpool.acquires k hk).1], (hpool.acquires k hk).2⟩

/-- What waits and what has been taken out is alive. -/
theorem Looping.unresolved_le_alive (hl : Looping s) : s.ledger.waiting + s.ledger.out ≤ s.alive := by
  have hframes : ∑ c ∈ Finset.range s.created, (s.frames c).message ≤
      ∑ c ∈ Finset.range s.created, (s.frames c).held := by
    refine Finset.sum_le_sum fun c _ => ?_
    cases s.frames c <;> simp [FramePc.message, FramePc.held]
  have htimeout : (s.timeout.todo : Multiset AccumulatedMessage) ≤ s.timeout.held :=
    Multiset.coe_le.2 hl.timeout.subperm
  have hstage : (s.waiting + s.stage.todo : Multiset AccumulatedMessage) ≤
      s.unconfirmed.entries + s.stage.held := by
    cases hst : s.stage with
    | unconfirmed todo =>
      simpa [State.waiting, hst, Stage.todo, Stage.held] using (hl.unconfirmed todo hst).subperm
    | pending extracted todo =>
      have htodo : (todo : Multiset AccumulatedMessage) ≤ extracted :=
        Multiset.coe_le.2 (hl.pending extracted todo hst).subperm
      simpa only [State.waiting, hst, Stage.todo, Stage.held] using add_le_add_right htodo _
    | _ => simp [State.waiting, hst, Stage.todo, Stage.held]
  calc s.ledger.waiting + s.ledger.out
      = s.accumulator.pending + s.moving + ((s.waiting + s.stage.todo) +
          (∑ c ∈ Finset.range s.created, (s.frames c).message + s.timeout.todo)) := by
        simp only [State.ledger, State.inHand]
        ac_rfl
    _ ≤ s.accumulator.pending + s.moving + ((s.unconfirmed.entries + s.stage.held) +
          (∑ c ∈ Finset.range s.created, (s.frames c).held + s.timeout.held)) :=
        add_le_add_right (add_le_add hstage (add_le_add hframes htimeout)) _
    _ = s.alive := by
        simp only [State.alive]
        ac_rfl

namespace State

/-- The accepted messages whose handler has not been called. -/
def unresolved (s : State) : List AccumulatedMessage :=
  s.accepted.filter fun m => s.invocations m.ticket = 0

/-- Nobody is between two steps with a permit that is not needed any more, or not yet: no `send`
between its permit and `add`, no confirmation handler that has not returned to the frame thread, no
`check_confirm_timeout` or `fail_all_unconfirmed` that has not let go of its messages. -/
structure AtRest (s : State) : Prop where
  sends : ∀ k, (s.sends k).permit k = 0
  frames : ∀ c, (s.frames c).held = 0
  timeout : s.timeout.held = []
  stage : s.stage.locks = false

end State

/-- In a ledger that is kept, what is unresolved is what waits and what has been taken out. -/
theorem length_unresolved_le (hk : Ledger.Kept s.accepted s.ledger) :
    s.unresolved.length ≤ (s.ledger.waiting + s.ledger.out).card := by
  have hcalled : s.ledger.called.filter (fun m => s.invocations m.ticket = 0) = 0 := by
    refine Multiset.filter_eq_nil.2 fun m hm hzero => ?_
    rw [invocations_eq, Multiset.count_eq_zero] at hzero
    exact hzero (Multiset.mem_map_of_mem AccumulatedMessage.ticket hm)
  calc s.unresolved.length
      = (s.ledger.all.filter fun m => s.invocations m.ticket = 0).card := by
        rw [hk.all_eq, Multiset.filter_coe, Multiset.coe_card]
        rfl
    _ = ((s.ledger.waiting + s.ledger.out).filter fun m => s.invocations m.ticket = 0).card := by
        rw [Ledger.all, Multiset.filter_add, hcalled, add_zero]
    _ ≤ (s.ledger.waiting + s.ledger.out).card := Multiset.card_le_card (Multiset.filter_le _ _)

namespace Permitted

theorem card_permits (hs : Permitted cfg s) :
    s.semaphore.available + s.permits.card = cfg.maxUnconfirmed := hs.total

/-- There are no more messages alive than permits. -/
theorem card_alive_le (hs : Permitted cfg s) : s.alive.card ≤ cfg.maxUnconfirmed := by
  have htotal := hs.card_permits
  rw [State.permits, Multiset.card_add, Multiset.card_map] at htotal
  omega

/-- A message that is alive has its permit, and no other. -/
theorem count_permits_eq_one (hs : Permitted cfg s) (hm : m ∈ s.alive) :
    s.permits.count m.ticket = 1 :=
  hs.fair.count_eq_one (Multiset.mem_add.2 (.inr (Multiset.mem_map_of_mem _ hm)))

/-- When everything is resolved and nobody is between two steps, no message is alive. -/
theorem alive_eq_zero (hs : Permitted cfg s) (hcleared : s.stage ≠ .aborted false)
    (hnone : s.unresolved = []) (hrest : s.AtRest) : s.alive = 0 := by
  have htraced := hs.tracked.traced hcleared
  have hwaiting : s.ledger.waiting = 0 := by
    refine Multiset.eq_zero_of_forall_notMem fun m hm => ?_
    have hnodup := htraced.nodup_all
    have haccepted := htraced.mem_accepted (a := m)
      (Multiset.mem_add.2 (.inl (Multiset.mem_add.2 (.inl hm))))
    have hzero : s.invocations m.ticket = 0 := by
      refine hs.tracked.invocations_eq_zero haccepted fun hcalled => ?_
      rw [Ledger.all, add_assoc] at hnodup
      exact Multiset.disjoint_left.1 (Multiset.nodup_add.1 hnodup).2.2 hm
        (Multiset.mem_add.2 (.inr hcalled))
    have hmem : m ∈ s.unresolved := List.mem_filter.2 ⟨haccepted, by simp [hzero]⟩
    simp [hnone] at hmem
  have hstage : s.stage.held = [] := by
    have hopen := hrest.stage
    cases hst : s.stage <;> simp [hst, Stage.locks, Stage.held] at hopen ⊢
  simp only [State.ledger, waiting_of_not_locks hrest.stage] at hwaiting
  rw [State.alive, hwaiting, hrest.timeout, hstage, zero_add]
  simp [hrest.frames]

/-- When everything is resolved and nobody is between two steps, all permits are back. -/
theorem available_eq (hs : Permitted cfg s) (hcleared : s.stage ≠ .aborted false)
    (hnone : s.unresolved = []) (hrest : s.AtRest) :
    s.semaphore.available = cfg.maxUnconfirmed := by
  have hholding : s.holding = 0 := Finset.sum_eq_zero fun k _ => hrest.sends k
  have htotal := hs.card_permits
  rw [State.permits, hholding, hs.alive_eq_zero hcleared hnone hrest] at htotal
  simpa using htotal

end Permitted

/-- **Permits are conserved**, in every run: what is available and the live permits add up to
`max_unconfirmed`, and every message in the accumulator, in the batch that is moved or in
`m_unconfirmed` has one of them. The messages that are in one of these places or in the hands of their
resolver are never more than `max_unconfirmed`; if no batch repeats an id and no message is lost to the
exception of a handler, these are all the accepted messages whose handler has not been called. All
permits are back when everything is resolved, unless a handler has thrown out of the loop of
`fail_all_unconfirmed` over `m_unconfirmed`, which then keeps its messages. -/
theorem permits_conserved {as : List Act} (h : (machine cfg).run (initial cfg) as = some t) :
    t.semaphore.available + t.permits.card = cfg.maxUnconfirmed ∧
    (∀ m ∈ t.accumulator.pending ++ t.moving ++ t.unconfirmed.entries,
      t.permits.count m.ticket = 1) ∧
    (t.ledger.waiting + t.ledger.out).card ≤ cfg.maxUnconfirmed ∧
    ((machine cfg).Along State.DistinctIds (initial cfg) as →
      (machine cfg).Along (fun s a => spares s a = true) (initial cfg) as →
      t.unresolved.length ≤ cfg.maxUnconfirmed) ∧
    (t.stage ≠ .aborted false → t.unresolved = [] → t.AtRest →
      t.semaphore.available = cfg.maxUnconfirmed) := by
  have hs : Permitted cfg t :=
    Machine.run_keeps (M := machine cfg) (P := Permitted cfg) (fun hs h => hs.step h)
      (.initial cfg) h
  have hbound : (t.ledger.waiting + t.ledger.out).card ≤ cfg.maxUnconfirmed :=
    (Multiset.card_le_card hs.looping.unresolved_le_alive).trans hs.card_alive_le
  refine ⟨hs.card_permits, fun m hm => hs.count_permits_eq_one ?_, hbound, fun hids hspares => ?_,
    fun hcleared hnone hrest => hs.available_eq hcleared hnone hrest⟩
  · refine Multiset.mem_add.2 (.inl ?_)
    simpa using hm
  · exact (length_unresolved_le (kept_of_run hids hspares h)).trans hbound

/-- Batches of two messages, two permits, and confirmations that are late after five units of time. -/
def twoPermits : Config where
  batchSize := 2
  batchPublishingDelay := 0
  maxUnconfirmed := 2
  confirmTimeout := 5
  enqueueTimeout := 0
  firstPublishingId := 0
  maxFrameSize := 0

/-- Two messages with distinct ids are published, and one of them is confirmed. -/
def oneConfirmed : List Act :=
  acceptedWithId 0 7 ++ acceptedWithId 1 3 ++ publishFull 1 ++
    [Act.frame (.confirm 0 3), .frame (.invoke 0), .frame (.finish 0)]

/-- The theorem after that: the permit of the confirmed message is back. -/
theorem permits_conserved_of_confirmed :
    ∃ t, (machine twoPermits).run (initial twoPermits) oneConfirmed = some t ∧
      t.semaphore.available = 1 ∧ t.permits.card = 1 ∧ t.unresolved.length = 1 ∧
      t.unresolved.length ≤ twoPermits.maxUnconfirmed := by
  have hids : (machine twoPermits).checkAlong State.DistinctIds (initial twoPermits) oneConfirmed =
      true := by decide +kernel
  have hspares : (machine twoPermits).checkAlong (fun s a => spares s a = true) (initial twoPermits)
      oneConfirmed = true := by decide +kernel
  have hrun : ((machine twoPermits).run (initial twoPermits) oneConfirmed).any (fun t =>
      t.semaphore.available = 1 ∧ t.unresolved.length = 1) = true := by decide +kernel
  obtain ⟨t, ht, hend⟩ := (Option.any_eq_true ..).1 hrun
  obtain ⟨havailable, hlength⟩ := of_decide_eq_true hend
  obtain ⟨htotal, -, -, hbound, -⟩ := permits_conserved ht
  refine ⟨t, ht, havailable, ?_, hlength,
    hbound (Machine.along_of_check hids) (Machine.along_of_check hspares)⟩
  rw [havailable] at htotal
  exact Nat.add_left_cancel htotal

/-- **More messages are unresolved than there are permits.** The user calls `send(5, message)` twice,
and the batch drops the second message with its permit; the next call is accepted, and three messages
are accepted and not resolved. Or the user gives distinct ids, both messages are late, and the handler of
the first throws out of `check_confirm_timeout`: the second message is gone with its permit, two more
calls are accepted, and three messages are accepted and not resolved. -/
theorem unresolved_exceeds_of_repeated :
    (∃ t, (machine twoPermits).run (initial twoPermits) (acceptedWithId 0 5 ++ acceptedWithId 1 5 ++
        publishFull 1 ++ acceptedWithId 2 6) = some t ∧
      t.sends 0 = .returned ∧ t.sends 1 = .returned ∧ t.sends 2 = .returned ∧
      t.handled = [] ∧ t.unresolved.length = 3 ∧ twoPermits.maxUnconfirmed = 2) ∧
    ∃ t, (machine twoPermits).run (initial twoPermits) (acceptedWithId 0 1 ++ acceptedWithId 1 2 ++
        publishFull 1 ++ [Act.timeout .enter, .timeout (.scan 10), .timeout .throw] ++
        acceptedWithId 2 3 ++ acceptedWithId 3 4 ++ publishFull 3) = some t ∧
      t.sends 0 = .returned ∧ t.sends 1 = .returned ∧ t.sends 2 = .returned ∧
      t.sends 3 = .returned ∧ t.handled.map (fun c => c.1.ticket) = [0] ∧
      t.unresolved.length = 3 ∧ twoPermits.maxUnconfirmed = 2 := by
  refine ⟨?_, ?_⟩
  · have hrun : ((machine twoPermits).run (initial twoPermits) (acceptedWithId 0 5 ++
        acceptedWithId 1 5 ++ publishFull 1 ++ acceptedWithId 2 6)).any (fun t =>
        t.sends 0 = .returned ∧ t.sends 1 = .returned ∧ t.sends 2 = .returned ∧
          t.handled = [] ∧ t.unresolved.length = 3) = true := by decide +kernel
    obtain ⟨t, ht, hend⟩ := (Option.any_eq_true ..).1 hrun
    obtain ⟨h0, h1, h2, hhandled, hlength⟩ := of_decide_eq_true hend
    exact ⟨t, ht, h0, h1, h2, hhandled, hlength, rfl⟩
  · have hrun : ((machine twoPermits).run (initial twoPermits) (acceptedWithId 0 1 ++
        acceptedWithId 1 2 ++ publishFull 1 ++
        [Act.timeout .enter, .timeout (.scan 10), .timeout .throw] ++
        acceptedWithId 2 3 ++ acceptedWithId 3 4 ++ publishFull 3)).any (fun t =>
        t.sends 0 = .returned ∧ t.sends 1 = .returned ∧ t.sends 2 = .returned ∧
          t.sends 3 = .returned ∧ t.handled.map (fun c => c.1.ticket) = [0] ∧
          t.unresolved.length = 3) = true := by decide +kernel
    obtain ⟨t, ht, hend⟩ := (Option.any_eq_true ..).1 hrun
    obtain ⟨h0, h1, h2, h3, hhandled, hlength⟩ := of_decide_eq_true hend
    exact ⟨t, ht, h0, h1, h2, h3, hhandled, hlength, rfl⟩

end Hareflow.Producer
