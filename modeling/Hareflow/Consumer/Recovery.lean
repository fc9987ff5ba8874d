import Hareflow.Consumer.Engaged
import Hareflow.Task.Reconnection

/-!
# The recovery of a consumer

`ConsumerImpl` recovers as the producer does: an unexpected shutdown of a client clears `m_client`
and schedules `reconnect_to_server`, a metadata update of the stream schedules `delayed_reconnect`,
and a stream that is gone schedules the task that stops the consumer. The difference is that a
client is subscribed and stored in one critical section, in `start()` and in `reconnect_to_server`,
and that `handle_shutdown` always acts: so a notification of a client that is subscribed acts after
the client is stored.

* `lawful` is what the clients and the broker promise: a client that was shut down refuses a
  subscription, and metadata updates come after the subscription.
* `Recovery` is the part of the state that the recovery works on, and `Recovery.reconnection` what it
  has in common with that of a producer.
* `Recovery.Serving` is the invariant until the stream-deleted task stops the consumer
  (`State.Ending`): its field `keeps` is the common part. That a subscription always has an offset to
  ask for is part of `Engaged`.
-/

namespace Hareflow.Consumer

open Foundations

/-! ## What is claimed -/

/-- The part of a consumer that its recovery works on. -/
structure Recovery where
  status : Status
  client : Option ℕ
  created : ℕ
  shutdown : ℕ → Shutdown
  updated : ℕ → Bool
  /-- The client has a subscription. -/
  subscribed : ℕ → Bool
  start : StartPc
  reconnectTask : Task
  reconnect : ReconnectPc
  delayedReconnectTask : Task
  delayed : DelayedPc
  streamDeletedTask : Task
  stops : Stopper → StopPc

def State.recovery (s : State) : Recovery :=
  { s with subscribed := fun c => (s.feed.subscriptions c).isSome }

/-- `start()` has subscribed and has the mutex. -/
def StartPc.serves : StartPc → Bool
  | .subscribed _ | .armed _ => true
  | _ => false

/-- The call of `internal_stop` has not changed the status yet. -/
def StopPc.destroying : StopPc → Bool
  | .persistCursor | .delayedReconnect | .reconnect | .exchanging => true
  | _ => false

/-- What the recovery of a consumer has in common with that of a producer. The client serves from its
subscription on, which `start()` makes before it reports the consumer as started. -/
def Recovery.reconnection (r : Recovery) : Reconnection where
  serving := r.status = .started ∨ r.start.serves = true
  client := r.client
  ended := fun c => r.shutdown c = .returned
  updated := fun c => r.updated c = true
  reconnectTask := r.reconnectTask
  reconnecting := r.reconnect ≠ .idle
  delayedReconnectTask := r.delayedReconnectTask
  checking := r.delayed = .checking
  taken := r.delayed = .taken
  streamDeletedTask := r.streamDeletedTask
  stopping := (r.stops .streamDeletedTask).destroying = true

/-- The client has received no notification. -/
def State.Unnotified (s : State) (c : ℕ) : Prop := s.shutdown c = .none ∧ s.updated c = false

/-- `delayed_reconnect` will take the client. -/
def State.DelayedPending (s : State) : Prop := s.recovery.reconnection.DelayedPending

/-- `reconnect_to_server` is to come or running, or about to be scheduled. -/
def State.Reconnecting (s : State) : Prop := s.recovery.reconnection.Reconnecting

/-- The consumer is to be stopped because its stream does not exist. -/
def State.Deleting (s : State) : Prop := s.recovery.reconnection.Deleting

/-- A started consumer has a subscribed client that was not notified, or something that will clear
or replace its client: a call of `handle_shutdown` on its way to the mutex, a delayed reconnect, the
stream-deleted task, or, when there is no client and so no early return, a reconnect. -/
def State.NotStuck (s : State) : Prop :=
  s.status = .started →
    (∃ c, s.client = some c ∧ s.feed.subscriptions c ≠ none ∧ s.Unnotified c) ∨
      (∃ c, s.shutdown c = .waiting) ∨ s.DelayedPending ∨ s.Deleting ∨
      (s.client = none ∧ s.Reconnecting)

/-- A client that was shut down does not subscribe, metadata updates come after the subscription,
and the user does not stop the consumer. -/
def lawful (s : State) : Act → Bool
  | .startSubscribe =>
    match s.start with
    | .queried c => s.shutdown c = .none
    | _ => true
  | .reconnectSubscribe =>
    match s.reconnect with
    | .started c => s.status = .started → s.shutdown c = .none
    | _ => true
  | .metadataUpdate c => (s.feed.subscriptions c).isSome
  | .stop (.user _) => false
  | _ => true

/-! ## The recovery -/

/-- The client of `start()`, while it has the mutex. -/
def StartPc.client : StartPc → Option ℕ
  | .stored c | .started c | .queried c | .subscribed c | .armed c => some c
  | _ => none

/-- The client of `start()` before it subscribes. -/
def StartPc.candidate : StartPc → Option ℕ
  | .stored c | .started c | .queried c => some c
  | _ => none

/-- The client of `reconnect_to_server` before it subscribes. -/
def ReconnectPc.candidate : ReconnectPc → Option ℕ
  | .created c | .started c => some c
  | _ => none

/-- `reconnect_to_server` is past its early return. -/
def ReconnectPc.connects : ReconnectPc → Bool
  | .idle | .checking => false
  | _ => true

theorem ReconnectPc.connects_of_candidate {pc : ReconnectPc} {c : ℕ} (h : pc.candidate = some c) :
    pc.connects = true := by
  cases pc <;> first | rfl | cases h

theorem StartPc.client_of_locks {pc : StartPc} {c : ℕ} (h : pc.locks = false) :
    pc.client ≠ some c := by
  cases pc <;> simp [StartPc.locks, StartPc.client] at h ⊢

theorem StartPc.not_serves {pc : StartPc} (h : pc.locks = false) : ¬pc.serves = true := by
  cases pc <;> simp [StartPc.locks, StartPc.serves] at h ⊢

/-- With an offset to ask for, a client that subscribes has a subscription afterwards. -/
theorem subscriptions_subscribe {s : State} (h : s.cursor.initialOffset ≠ none) (c c' : ℕ) :
    ((s.subscribe c).feed.subscriptions c').isSome =
      Function.update (fun c => (s.feed.subscriptions c).isSome) c true c' := by
  obtain ⟨asked, hasked⟩ := Option.ne_none_iff_exists'.1 h
  unfold State.subscribe
  rw [hasked]
  show (Function.update s.feed.subscriptions c (some ⟨asked, none⟩) c').isSome = _
  by_cases hc : c' = c
  · subst hc
    simp
  · rw [Function.update_of_ne hc, Function.update_of_ne hc]

namespace Recovery

/-- Nobody stops the consumer; a client subscribes once, when it is put in service; and the client in
service is subscribed. -/
structure Serving (r : Recovery) : Prop where
  keeps : r.reconnection.Inv
  stops : ∀ k, r.stops k = .idle
  returned : r.status = .started → r.start = .returned
  connecting : r.reconnect.connects = true → r.start = .returned
  fresh : ∀ c, r.created ≤ c → r.subscribed c = false
  starting : ∀ c, r.start.candidate = some c → c < r.created ∧ r.subscribed c = false
  joining : ∀ c, r.reconnect.candidate = some c → c < r.created ∧ r.subscribed c = false
  updated : ∀ c, r.updated c = true → r.subscribed c = true
  stored : ∀ c, r.start.client = some c → r.client = some c
  serving : r.reconnection.serving → ∀ c, r.client = some c → r.subscribed c = true

variable {r : Recovery}

/-- The steps of `start()` before its exchange. Nobody reconnects yet. -/
theorem Serving.setStart (hs : r.Serving) (hpc : r.start ≠ .returned) {st : Status}
    {cl : Option ℕ} {n : ℕ} {sub : ℕ → Bool} {pc : StartPc} (hst : st ≠ .started)
    (hfresh : ∀ c, n ≤ c → sub c = false)
    (hcand : ∀ c, pc.candidate = some c → c < n ∧ sub c = false)
    (hsub : ∀ c, r.subscribed c = true → sub c = true)
    (hstored : ∀ c, pc.client = some c → cl = some c)
    (hserv : pc.serves = true → ∃ c, r.client = some c ∧ cl = some c ∧ sub c = true ∧
      ¬r.reconnection.Spent c) :
    Serving { r with status := st, client := cl, created := n, subscribed := sub, start := pc } where
  keeps := by
    by_cases hp : pc.serves = true
    · obtain ⟨c, hc, rfl, -, hspent⟩ := hserv hp
      rw [← hc]
      exact hs.keeps.step (.serve hc hspent)
    · exact hs.keeps.step (.outOfService (fun h => h.elim hst hp) cl _)
  stops := hs.stops
  returned h := absurd h hst
  connecting h := absurd (hs.connecting h) hpc
  fresh := hfresh
  starting := hcand
  joining _ h := absurd (hs.connecting (ReconnectPc.connects_of_candidate h)) hpc
  updated c h := hsub c (hs.updated c h)
  stored := hstored
  serving h c hc := by
    obtain ⟨c', -, hc', hsub', -⟩ := hserv (h.resolve_left hst)
    obtain rfl := Option.some.inj (hc'.symm.trans hc)
    exact hsub'

theorem Serving.not_started (hs : r.Serving) (hpc : r.start ≠ .returned) : r.status ≠ .started :=
  fun h => hpc (hs.returned h)

/-- `start()` fails. -/
theorem Serving.giveUp (hs : r.Serving) (hpc : r.start ≠ .returned) :
    Serving { r with start := .threw } :=
  hs.setStart hpc (hs.not_started hpc) hs.fresh (fun _ hc => by cases hc) (fun _ => id)
    (fun _ hc => by cases hc) (fun hc => by cases hc)

/-- `start()` stores a new client. -/
theorem Serving.store (hs : r.Serving) (hpc : r.start = .entered) :
    Serving { r with created := r.created + 1, client := some r.created, start := .stored r.created } := by
  have hne : r.start ≠ .returned := by simp [hpc]
  refine hs.setStart hne (hs.not_started hne) (fun c hc => hs.fresh c (by omega)) ?_ (fun _ => id)
    (fun _ hc => hc) (fun hc => by cases hc)
  intro c hc
  obtain rfl := Option.some.inj hc
  exact ⟨Nat.lt_succ_self _, hs.fresh _ le_rfl⟩

/-- `start()` comes closer to the subscription of its client. -/
theorem Serving.await (hs : r.Serving) {c : ℕ} {pc : StartPc} (hold : r.start.candidate = some c)
    (hpc : pc = .started c ∨ pc = .queried c) : Serving { r with start := pc } := by
  have hne : r.start ≠ .returned := fun h => by simp [h, StartPc.candidate] at hold
  have hclient : r.client = some c := hs.stored c <| by
    cases hstart : r.start <;> simp [hstart, StartPc.candidate] at hold <;> simp [hold, StartPc.client]
  have hcand := hs.starting c hold
  refine hs.setStart hne (hs.not_started hne) hs.fresh ?_ (fun _ => id) ?_ ?_
  · intro c' hc'
    obtain rfl | rfl := hpc <;> obtain rfl := Option.some.inj hc' <;> exact hcand
  · intro c' hc'
    obtain rfl | rfl := hpc <;> exact hclient.trans hc'
  · intro hc
    obtain rfl | rfl := hpc <;> cases hc

/-- A client that subscribes, in `start()` or in `reconnect_to_server`, was created before. -/
theorem Serving.fresh_update (hs : r.Serving) {c : ℕ} (hc : c < r.created) (c' : ℕ)
    (hc' : r.created ≤ c') : Function.update r.subscribed c true c' = false := by
  rw [Function.update_of_ne (by omega)]
  exact hs.fresh c' hc'

theorem subscribed_update {c c' : ℕ} (h : r.subscribed c' = true) :
    Function.update r.subscribed c true c' = true := by
  by_cases hc : c' = c
  · rw [hc, Function.update_self]
  · rwa [Function.update_of_ne hc]

/-- A client that was not subscribed and not shut down has no notification that is spent. -/
theorem Serving.not_spent (hs : r.Serving) {c : ℕ} (hsub : r.subscribed c = false)
    (hsh : r.shutdown c = .none) : ¬r.reconnection.Spent c := by
  rintro (h | ⟨h, -⟩)
  · cases hsh.symm.trans h
  · simp [hs.updated c h] at hsub

/-- `start()` subscribes with its client, and goes on or fails all the same. -/
theorem Serving.subscribeStart (hs : r.Serving) {c : ℕ} {pc : StartPc}
    (hold : r.start = .queried c)
    (hpc : pc = .threw ∨ pc = .subscribed c ∧ r.shutdown c = .none) :
    Serving { r with subscribed := Function.update r.subscribed c true, start := pc } := by
  have hne : r.start ≠ .returned := by simp [hold]
  have hclient : r.client = some c := hs.stored c (by simp [hold, StartPc.client])
  obtain ⟨hlt, hsub⟩ := hs.starting c (by simp [hold, StartPc.candidate])
  refine hs.setStart hne (hs.not_started hne) (hs.fresh_update hlt) ?_ (fun _ => subscribed_update)
    ?_ ?_
  · intro c' hc'
    obtain rfl | ⟨rfl, -⟩ := hpc <;> cases hc'
  · intro c' hc'
    obtain rfl | ⟨rfl, -⟩ := hpc
    · cases hc'
    · exact hclient.trans hc'
  · intro hc
    obtain rfl | ⟨-, hsh⟩ := hpc
    · cases hc
    · exact ⟨c, hclient, hclient, Function.update_self .., hs.not_spent hsub hsh⟩

/-- The client of `start()` after its subscription. -/
theorem Serving.of_serves (hs : r.Serving) {c : ℕ} (hserves : r.start.serves = true)
    (hc : r.start.client = some c) :
    r.client = some c ∧ r.subscribed c = true ∧ ¬r.reconnection.Spent c := by
  have hclient := hs.stored c hc
  exact ⟨hclient, hs.serving (.inr hserves) c hclient, hs.keeps.unspent (.inr hserves) c hclient⟩

/-- `start()` arms the persist task. -/
theorem Serving.arm (hs : r.Serving) {c : ℕ} (hpc : r.start = .subscribed c) :
    Serving { r with start := .armed c } := by
  have hne : r.start ≠ .returned := by simp [hpc]
  obtain ⟨hclient, hsub, hspent⟩ :=
    hs.of_serves (by simp [hpc, StartPc.serves]) (c := c) (by simp [hpc, StartPc.client])
  exact hs.setStart hne (hs.not_started hne) hs.fresh (fun _ hc => by cases hc) (fun _ => id)
    (fun c' hc' => hclient.trans hc') (fun _ => ⟨c, hclient, hclient, hsub, hspent⟩)

/-- `start()` exchanges `Starting` for `Started`. -/
theorem Serving.exchange (hs : r.Serving) {c : ℕ} (hpc : r.start = .armed c) :
    Serving { r with status := .started, start := .returned } := by
  have hserves : r.start.serves = true := by simp [hpc, StartPc.serves]
  obtain ⟨hclient, -, hspent⟩ := hs.of_serves hserves (c := c) (by simp [hpc, StartPc.client])
  exact { hs with
    keeps := hs.keeps.step (.serve hclient hspent)
    returned := fun _ => rfl
    connecting := fun _ => rfl
    starting := fun _ hc => by cases hc
    stored := fun _ hc => by cases hc
    serving := fun _ => hs.serving (.inr hserves) }

/-- `reconnect_to_server` moves on, with a client to start or without one. -/
theorem Serving.setReconnect (hs : r.Serving) {pc : ReconnectPc} (hstart : r.start = .returned)
    (hidle : pc ≠ .idle) (hcand : ∀ c, pc.candidate = some c → c < r.created ∧ r.subscribed c = false) :
    Serving { r with reconnect := pc } :=
  { hs with
    keeps := hs.keeps.step (.connect hidle)
    connecting := fun _ => hstart
    joining := hcand }

/-- `reconnect_to_server` returns to the loop of its task without a client. -/
theorem Serving.leaveReconnect (hs : r.Serving) {task task' : Task}
    (hstep : r.reconnection.Step (reconnection
      { r with reconnect := .idle, reconnectTask := task, streamDeletedTask := task' })) :
    Serving { r with reconnect := .idle, reconnectTask := task, streamDeletedTask := task' } :=
  { hs with
    keeps := hs.keeps.step hstep
    connecting := fun hc => by cases hc
    joining := fun _ hc => by cases hc }

/-- A client calls `handle_shutdown`. -/
theorem Serving.setShutdown (hs : r.Serving) (c : ℕ) :
    Serving { r with shutdown := Function.update r.shutdown c .waiting } := by
  refine { hs with keeps := hs.keeps.step (.approach _ fun c' hret => ?_) }
  by_cases hcc : c' = c
  · subst hcc
    cases (Function.update_self ..).symm.trans hret
  · exact (Function.update_of_ne hcc ..).symm.trans hret

/-- The critical section of `handle_shutdown`. -/
theorem Serving.handleShutdown (hs : r.Serving) (hfree : r.start.locks = false)
    (shutdown : ℕ → Shutdown) :
    Serving { r with
      shutdown := shutdown
      client := none
      reconnectTask := r.reconnectTask.scheduleNow } :=
  { hs with
    keeps := hs.keeps.step (.lose _)
    stored := fun _ hc => absurd hc (StartPc.client_of_locks hfree)
    serving := fun _ _ hc => by cases hc }

/-- A subscribed client reports a metadata update. -/
theorem Serving.update (hs : r.Serving) {c : ℕ} (hc : r.subscribed c = true) :
    Serving { r with
      updated := Function.update r.updated c true
      delayedReconnectTask := r.delayedReconnectTask.scheduleNow } := by
  refine { hs with keeps := hs.keeps.step (.update _), updated := fun c' hc' => ?_ }
  by_cases hcc : c' = c
  · rwa [hcc]
  · exact hs.updated c' ((Function.update_of_ne hcc ..).symm.trans hc')

/-- `reconnect_to_server` subscribes with its client and stores it. -/
theorem Serving.install (hs : r.Serving) {c : ℕ} (hpc : r.reconnect = .started c)
    (hsh : r.shutdown c = .none) :
    Serving { r with
      subscribed := Function.update r.subscribed c true
      client := some c
      reconnect := .idle
      reconnectTask := r.reconnectTask.returned } := by
  have hstart := hs.connecting (by simp [hpc, ReconnectPc.connects])
  obtain ⟨hlt, hsub⟩ := hs.joining c (by simp [hpc, ReconnectPc.candidate])
  refine { hs with
    keeps := hs.keeps.step (.install (hs.not_spent hsub hsh))
    connecting := fun _ => hstart
    fresh := hs.fresh_update hlt
    starting := fun c' hc' => ?_
    joining := fun _ hc => by cases hc
    updated := fun c' hc' => subscribed_update (hs.updated c' hc')
    stored := fun c' hc' => ?_
    serving := fun _ c' hc' => ?_ }
  · simp [hstart, StartPc.candidate] at hc'
  · simp [hstart, StartPc.client] at hc'
  · obtain rfl := Option.some.inj hc'
    exact Function.update_self ..

/-- The subscription of `reconnect_to_server` throws, made or not. -/
theorem Serving.refuse (hs : r.Serving) {c : ℕ} (hpc : r.reconnect = .started c) (deleted : Bool)
    {sub : ℕ → Bool} (hsub : sub = r.subscribed ∨ sub = Function.update r.subscribed c true) :
    Serving { r with subscribed := sub, reconnect := .failed deleted } := by
  have hstart := hs.connecting (by simp [hpc, ReconnectPc.connects])
  have hlt := (hs.joining c (by simp [hpc, ReconnectPc.candidate])).1
  have hmono : ∀ c', r.subscribed c' = true → sub c' = true := fun c' hc' => by
    obtain rfl | rfl := hsub
    · exact hc'
    · exact subscribed_update hc'
  refine { hs with
    keeps := hs.keeps.step (.connect nofun)
    connecting := fun _ => hstart
    fresh := fun c' hc' => ?_
    starting := fun c' hc' => ?_
    joining := fun _ hc => by cases hc
    updated := fun c' hc' => hmono c' (hs.updated c' hc')
    serving := fun h c' hc' => hmono c' (hs.serving h c' hc') }
  · obtain rfl | rfl := hsub
    · exact hs.fresh c' hc'
    · exact hs.fresh_update hlt c' hc'
  · simp [hstart, StartPc.candidate] at hc'

/-- `delayed_reconnect` takes the client. -/
theorem Serving.take (hs : r.Serving) (hfree : r.start.locks = false) :
    Serving { r with client := none, delayed := .taken } :=
  { hs with
    keeps := hs.keeps.step (.take rfl)
    stored := fun _ hc => absurd hc (StartPc.client_of_locks hfree)
    serving := fun _ _ hc => by cases hc }

end Recovery

open Recovery

/-- The steps that touch the recovery. -/
def Act.recovers : Act → Bool
  | .deliver _ _ | .accept _ | .hand _ | .handled _ | .handlerThrow _ | .storeHandled _ _
  | .storeOffset _ _ | .tickPersist _ | .persist | .persistStore _ => false
  | _ => true

theorem recovery_internalStoreOffset (cfg : Config) (s : State) (o : ℕ) (ok : Bool) :
    (s.internalStoreOffset cfg o ok).recovery = s.recovery := by
  unfold State.internalStoreOffset State.armPersist
  (repeat' split) <;> rfl

theorem recovery_storeCurrentOffset (cfg : Config) (s : State) (ok : Bool) :
    (s.storeCurrentOffset cfg ok).recovery = s.recovery := by
  unfold State.storeCurrentOffset
  split
  · split
    · exact recovery_internalStoreOffset cfg s _ ok
    · rfl
  · unfold State.armPersist
    split <;> rfl

theorem recovery_subscribe {s : State} (h : s.cursor.initialOffset ≠ none) (c : ℕ) :
    (s.subscribe c).recovery =
      { s.recovery with subscribed := Function.update s.recovery.subscribed c true } := by
  have hsub : (s.subscribe c).recovery.subscribed =
      Function.update s.recovery.subscribed c true :=
    funext fun c' => subscriptions_subscribe h c c'
  rw [← hsub]
  unfold State.subscribe
  split <;> rfl

theorem recovery_subscribe_start {s : State} (h : s.cursor.initialOffset ≠ none) (c : ℕ)
    (pc : StartPc) :
    State.recovery { s.subscribe c with start := pc } =
      { s.recovery with subscribed := Function.update s.recovery.subscribed c true, start := pc } :=
  congrArg (fun r : Recovery => { r with start := pc }) (recovery_subscribe h c)

theorem recovery_subscribe_reconnect {s : State} (h : s.cursor.resume.initialOffset ≠ none) (c : ℕ)
    (task : Task) :
    State.recovery { State.subscribe { s with cursor := s.cursor.resume } c with
      client := some c, reconnect := .idle, reconnectTask := task } =
      { s.recovery with
        subscribed := Function.update s.recovery.subscribed c true
        client := some c
        reconnect := .idle
        reconnectTask := task } :=
  congrArg (fun r : Recovery =>
    { r with client := some c, reconnect := .idle, reconnectTask := task })
    (recovery_subscribe (s := { s with cursor := s.cursor.resume }) h c)

theorem recovery_subscribe_failed {s : State} (h : s.cursor.resume.initialOffset ≠ none) (c : ℕ)
    (deleted : Bool) :
    State.recovery { State.subscribe { s with cursor := s.cursor.resume } c with
      reconnect := .failed deleted } =
      { s.recovery with
        subscribed := Function.update s.recovery.subscribed c true
        reconnect := .failed deleted } :=
  congrArg (fun r : Recovery => { r with reconnect := .failed deleted })
    (recovery_subscribe (s := { s with cursor := s.cursor.resume }) h c)

theorem recovery_armPersist_start (cfg : Config) (s : State) (pc : StartPc) :
    State.recovery { s.armPersist cfg with start := pc } = { s.recovery with start := pc } := by
  unfold State.armPersist
  split <;> rfl

theorem step_recovery_frame {cfg : Config} {s t : State} {a : Act} (h : step cfg s a = some t)
    (ha : a.recovers = false) : t.recovery = s.recovery := by
  cases a <;> simp only [Act.recovers, reduceCtorEq] at ha <;> simp only [step] at h
  case deliver c o =>
    split at h <;> cases h
    rename_i sub hidle hsub
    have hsame : (fun c' => (Function.update s.feed.subscriptions c
        (some { sub with next := some (o + 1) }) c').isSome) = s.recovery.subscribed := by
      funext c'
      by_cases hc : c' = c
      · subst hc
        simp [State.recovery, hsub]
      · simp [State.recovery, Function.update_of_ne hc]
    exact congrArg (fun sub => { s.recovery with subscribed := sub }) hsame
  case accept c =>
    (repeat' split at h) <;> cases h
    unfold State.accept
    split <;> rfl
  case hand c | handled c | handlerThrow c =>
    split at h <;> cases h
    rfl
  case storeHandled c ok =>
    (repeat' split at h) <;> cases h
    · unfold State.internalStoreOffset State.armPersist
      (repeat' split) <;> rfl
    · rfl
  case storeOffset o ok =>
    split at h <;> cases h
    exact recovery_internalStoreOffset cfg s o ok
  case tickPersist e =>
    obtain ⟨u, hu, rfl⟩ := Option.map_eq_some_iff.1 h
    rfl
  case persist =>
    split at h
    · obtain ⟨u, hu, rfl⟩ := Option.map_eq_some_iff.1 h
      rfl
    · cases h
  case persistStore ok =>
    split at h <;> cases h
    exact recovery_storeCurrentOffset cfg s ok

theorem locks_of_unlocked {s : State} (h : s.unlocked = true) : s.recovery.start.locks = false :=
  (Bool.not_eq_eq_eq_not ..).1 h

theorem not_serves_of_unlocked {s : State} (h : s.unlocked = true) :
    ¬s.recovery.start.serves = true :=
  StartPc.not_serves (locks_of_unlocked h)

/-- The stream-deleted task has begun to stop the consumer, or the consumer is stopped. -/
def State.Ending (s : State) : Prop :=
  s.status = .stopped ∨ (s.stops .streamDeletedTask).destroying = true

theorem serving_step {cfg : Config} {s t : State} {a : Act} (hs : s.recovery.Serving)
    (he : Engaged cfg s) (hok : lawful s a = true) (h : step cfg s a = some t) :
    t.Ending ∨ t.recovery.Serving := by
  by_cases ha : a.recovers = false
  · rw [step_recovery_frame h ha]
    exact .inr hs
  cases a <;> simp only [Act.recovers, not_true_eq_false] at ha <;> simp only [step] at h
  case start =>
    split at h
    · rename_i hidle
      have hpc : s.start ≠ .returned := by simp [hidle]
      split at h <;> cases h
      · exact .inr (hs.setStart hpc (by simp) hs.fresh (fun c hc => by cases hc) (fun _ => id)
          (fun c hc => by cases hc) (fun hc => by cases hc))
      · exact .inr (hs.giveUp hpc)
    · cases h
  case startStore =>
    split at h <;> cases h
    rename_i hentered
    exact .inr (hs.store hentered)
  case startClient =>
    split at h <;> cases h
    rename_i c hstored
    exact .inr (hs.await (by simp [State.recovery, hstored, StartPc.candidate]) (.inl rfl))
  case startQuery stored =>
    split at h <;> try cases h
    · rename_i c hstarted
      exact .inr (hs.await (by simp [State.recovery, hstarted, StartPc.candidate]) (.inr rfl))
    · rename_i c o hstarted
      split at h <;> cases h
      exact .inr (hs.await (by simp [State.recovery, hstarted, StartPc.candidate]) (.inr rfl))
  case startSubscribe =>
    split at h <;> cases h
    rename_i c hqueried
    have hshutdown : s.shutdown c = .none := by simpa [lawful, hqueried] using hok
    have hoffset := he.early (by simp [hqueried, StartPc.early])
    rw [recovery_subscribe_start hoffset]
    exact .inr (hs.subscribeStart hqueried (.inr ⟨rfl, hshutdown⟩))
  case startThrow subscribed =>
    split at h <;> cases h
    · rename_i hpc
      exact .inr (hs.giveUp (by simp [State.recovery, hpc]))
    · rename_i hpc
      exact .inr (hs.giveUp (by simp [State.recovery, hpc]))
    · rename_i hpc
      exact .inr (hs.giveUp (by simp [State.recovery, hpc]))
    · rename_i c hqueried
      cases subscribed with
      | false => exact .inr (hs.giveUp (by simp [State.recovery, hqueried]))
      | true =>
        have hoffset := he.early (by simp [hqueried, StartPc.early])
        rw [if_pos rfl, recovery_subscribe_start hoffset]
        exact .inr (hs.subscribeStart hqueried (.inl rfl))
  case startArm =>
    split at h <;> cases h
    rename_i c hsubscribed
    rw [recovery_armPersist_start]
    exact .inr (hs.arm hsubscribed)
  case startExchange =>
    split at h
    · rename_i c harmed
      split at h <;> cases h
      · exact .inr (hs.exchange harmed)
      · exact .inr (hs.giveUp (by simp [State.recovery, harmed]))
    · cases h
  case shutdown c =>
    split at h <;> cases h
    exact .inr (hs.setShutdown c)
  case shutdownHandle c =>
    split at h <;> cases h
    rename_i hc
    exact .inr (hs.handleShutdown (locks_of_unlocked hc.2) _)
  case metadataUpdate c =>
    split at h <;> cases h
    exact .inr (hs.update hok)
  case tickReconnect e =>
    obtain ⟨u, hu, rfl⟩ := Option.map_eq_some_iff.1 h
    exact .inr { hs with keeps := hs.keeps.step (.tickReconnect hu) }
  case tickDelayed e =>
    obtain ⟨u, hu, rfl⟩ := Option.map_eq_some_iff.1 h
    exact .inr { hs with keeps := hs.keeps.step (.tickDelayed hu) }
  case tickDeleted e =>
    obtain ⟨u, hu, rfl⟩ := Option.map_eq_some_iff.1 h
    exact .inr { hs with keeps := hs.keeps.step (.tickDeleted hu) }
  case reconnect =>
    split at h
    · obtain ⟨u, hu, rfl⟩ := Option.map_eq_some_iff.1 h
      exact .inr { hs with
        keeps := hs.keeps.step (.reconnect hu (by simp [State.recovery]))
        connecting := fun hc => by cases hc
        joining := fun _ hc => by cases hc }
    · cases h
  case reconnectCheck =>
    split at h
    · rename_i hc
      split at h <;> cases h
      · rename_i hearly
        have hout : s.recovery.client ≠ none ∨ ¬s.recovery.reconnection.serving :=
          hearly.imp_right fun hne hserving => hne (hserving.resolve_right (not_serves_of_unlocked hc.2))
        exact .inr (hs.leaveReconnect (.leave hout))
      · rename_i hgo
        have hstarted : s.status = .started := by
          by_contra hne
          exact hgo (.inr hne)
        exact .inr (hs.setReconnect (hs.returned hstarted) (by simp) (fun _ hc => by cases hc))
    · cases h
  case reconnectCreate =>
    split at h <;> cases h
    rename_i hpc
    have hstart := hs.connecting (by simp [State.recovery, hpc, ReconnectPc.connects])
    refine .inr { hs with
      keeps := hs.keeps.step (.connect (by simp [State.recovery]))
      connecting := fun _ => hstart
      fresh := fun c hc => hs.fresh c (Nat.le_of_succ_le hc)
      starting := fun c hc => ⟨Nat.lt_succ_of_lt (hs.starting c hc).1, (hs.starting c hc).2⟩
      joining := fun c hc => ?_ }
    obtain rfl := Option.some.inj hc
    exact ⟨Nat.lt_succ_self _, hs.fresh _ le_rfl⟩
  case reconnectClient =>
    split at h <;> cases h
    rename_i c hpc
    have hstart := hs.connecting (by simp [State.recovery, hpc, ReconnectPc.connects])
    have hcand := hs.joining c (by simp [State.recovery, hpc, ReconnectPc.candidate])
    refine .inr (hs.setReconnect hstart (by simp) fun c' hc' => ?_)
    obtain rfl := Option.some.inj hc'
    exact hcand
  case reconnectSubscribe =>
    split at h
    · rename_i c hpc
      split at h
      · rename_i hfree
        split at h <;> cases h
        · rename_i hstarted
          have hshutdown : s.shutdown c = .none := by simpa [lawful, hpc, hstarted] using hok
          rw [recovery_subscribe_reconnect (Cursor.resume_initialOffset he.offset)]
          exact .inr (hs.install hpc hshutdown)
        · rename_i hne
          exact .inr (hs.leaveReconnect (.leave (.inr fun hserving =>
            hne (hserving.resolve_right (not_serves_of_unlocked hfree)))))
      · cases h
    · cases h
  case reconnectRefuse subscribed deleted =>
    split at h
    · rename_i c hpc
      split at h <;> cases h
      cases subscribed with
      | false => exact .inr (hs.refuse hpc deleted (.inl rfl))
      | true =>
        rw [if_pos rfl, recovery_subscribe_failed (Cursor.resume_initialOffset he.offset)]
        exact .inr (hs.refuse hpc deleted (.inr rfl))
    · cases h
  case reconnectThrow deleted =>
    split at h <;> cases h
    all_goals
      rename_i hpc
      have hstart := hs.connecting (by simp [State.recovery, hpc, ReconnectPc.connects])
      exact .inr (hs.setReconnect hstart (by simp) (fun _ hc => by cases hc))
  case reconnectCatch =>
    split at h <;> cases h
    · exact .inr (hs.leaveReconnect .abandon)
    · exact .inr (hs.leaveReconnect .retry)
  case delayed =>
    split at h
    · rename_i hidle
      obtain ⟨u, hu, rfl⟩ := Option.map_eq_some_iff.1 h
      have htaken : ¬s.recovery.reconnection.taken := by
        simp [State.recovery, Recovery.reconnection, hidle]
      exact .inr { hs with keeps := hs.keeps.step (.delayed hu htaken rfl) }
    · cases h
  case delayedTake =>
    split at h
    · rename_i hc
      split at h <;> cases h
      · exact .inr (hs.take (locks_of_unlocked hc.2))
      · rename_i hne
        exact .inr { hs with keeps := hs.keeps.step (.leaveDelayed fun hserving =>
          hne (hserving.resolve_right (not_serves_of_unlocked hc.2))) }
    · cases h
  case delayedEnd =>
    split at h <;> cases h
    rename_i htaken
    have hchecking : ¬s.recovery.reconnection.checking := by
      simp [State.recovery, Recovery.reconnection, htaken]
    exact .inr { hs with keeps := hs.keeps.step (.endDelayed hchecking) }
  case stop k =>
    cases k with
    | user k => cases hok
    | streamDeletedTask =>
      simp only at h
      split at h
      · obtain ⟨u, hu, rfl⟩ := Option.map_eq_some_iff.1 h
        exact .inl (.inr (by simp [State.setStop, StopPc.destroying]))
      · cases h
  -- no other step of a stop is enabled as long as none has begun
  all_goals
    have hidle : ∀ k, s.stops k = .idle := hs.stops
    simp [hidle, State.destroyed] at h

theorem destroying_destroyNext (s : State) (pc : StopPc) :
    (s.destroyNext pc).2.destroying = true := by
  cases pc <;> rfl

theorem destroyNext_stops (s : State) (pc : StopPc) : (s.destroyNext pc).1.stops = s.stops := by
  cases pc <;> rfl

/-- What a step does to the calls of `internal_stop`. -/
inductive StopMoves (s t : State) : Act → Prop
  | still {a : Act} (hstops : t.stops = s.stops) : StopMoves s t a
  | call {k : Stopper} {pc : StopPc} (hpc : s.stops k = .idle)
    (hpc' : pc = .streamDeleted ∨ pc = .persistCursor)
    (hstops : t.stops = Function.update s.stops k pc) : StopMoves s t (.stop k)
  | destroyed {k : Stopper}
    (hstops : t.stops = Function.update s.stops k (s.destroyNext (s.stops k)).2) :
    StopMoves s t (.stopDestroyed k)
  | exchange {k : Stopper} (hstatus : t.status = .stopped)
    (hstops : t.stops = Function.update s.stops k
      (if s.status = .stopped then .returned else .taking)) : StopMoves s t (.stopExchange k)
  | take {k : Stopper} {pc : StopPc} (hpc : s.stops k = .taking) (hclient : t.client = none)
    (hpc' : s.client = none ∧ pc = .returned ∨ ∃ c, s.client = some c ∧ pc = .storing c)
    (hstops : t.stops = Function.update s.stops k pc) : StopMoves s t (.stopTake k)
  | store {k : Stopper} {c : ℕ} {ok : Bool} (hpc : s.stops k = .storing c)
    (hstops : t.stops = Function.update s.stops k (.stopping c)) : StopMoves s t (.stopStore k ok)
  | finish {k : Stopper} {c : ℕ} (hpc : s.stops k = .stopping c)
    (hstops : t.stops = Function.update s.stops k .returned) : StopMoves s t (.stopEnd k)

theorem stopMoves_of_step {cfg : Config} {s t : State} {a : Act} (h : step cfg s a = some t) :
    StopMoves s t a := by
  by_cases ha : a.persists = false
  · exact .still ((leaves_of_step h).persist ha).2.2
  cases a <;> simp only [Act.persists, not_true_eq_false] at ha <;> simp only [step] at h
  case startArm =>
    split at h <;> cases h
    exact .still (by simp)
  case storeHandled c ok =>
    (repeat' split at h) <;> cases h <;> exact .still (by simp)
  case storeOffset o ok =>
    split at h <;> cases h
    exact .still (by simp)
  case tickPersist e =>
    obtain ⟨u, hu, rfl⟩ := Option.map_eq_some_iff.1 h
    exact .still rfl
  case persist =>
    split at h
    · obtain ⟨u, hu, rfl⟩ := Option.map_eq_some_iff.1 h
      exact .still rfl
    · cases h
  case persistStore ok =>
    split at h <;> cases h
    exact .still (by simp)
  case stop k =>
    cases k <;> simp only at h <;> split at h
    · rename_i hidle
      cases h
      exact .call hidle (.inl rfl) rfl
    · cases h
    · rename_i hidle
      obtain ⟨u, hu, rfl⟩ := Option.map_eq_some_iff.1 h
      exact .call hidle (.inr rfl) rfl
    · cases h
  case stopDestroyed k =>
    split at h <;> cases h
    refine .destroyed ?_
    show Function.update (s.destroyNext (s.stops k)).1.stops k _ = _
    rw [destroyNext_stops]
  case stopExchange k =>
    split at h <;> cases h
    exact .exchange rfl rfl
  case stopTake k =>
    split at h <;> cases h
    rename_i hpc
    refine .take hpc.1 rfl ?_ rfl
    cases s.client with
    | none => exact .inl ⟨rfl, rfl⟩
    | some c => exact .inr ⟨c, rfl, rfl⟩
  case stopStore k ok =>
    split at h
    · rename_i c hpc
      (repeat' split at h) <;> cases h
      all_goals exact .store hpc rfl
    · cases h
  case stopEnd k =>
    split at h <;> cases h
    rename_i c hpc
    exact .finish hpc rfl

theorem ending_step {cfg : Config} {s t : State} {a : Act} (hs : s.Ending)
    (hok : lawful s a = true) (h : step cfg s a = some t) : t.Ending := by
  obtain hs | hs := hs
  · exact .inl ((startMoves_of_step h).stopped hs)
  -- the call of the stream-deleted task is left alone by a step of another call
  have hother {k : Stopper} {pc : StopPc} (hstops : t.stops = Function.update s.stops k pc)
      (hk : (s.stops k).destroying = false) : t.Ending := by
    refine .inr ?_
    have hne : Stopper.streamDeletedTask ≠ k := by
      rintro rfl
      rw [hs] at hk
      cases hk
    rw [hstops, Function.update_of_ne hne]
    exact hs
  cases stopMoves_of_step h with
  | still hstops =>
    refine .inr ?_
    rw [hstops]
    exact hs
  | call hpc hpc' hstops => exact hother hstops (by rw [hpc]; rfl)
  | @destroyed k hstops =>
    refine .inr ?_
    rw [hstops]
    by_cases hk : Stopper.streamDeletedTask = k
    · rw [hk, Function.update_self]
      exact destroying_destroyNext s _
    · rw [Function.update_of_ne hk]
      exact hs
  | exchange hstatus hstops => exact .inl hstatus
  | take hpc hclient hpc' hstops => exact hother hstops (by rw [hpc]; rfl)
  | store hpc hstops => exact hother hstops (by rw [hpc]; rfl)
  | finish hpc hstops => exact hother hstops (by rw [hpc]; rfl)

/-! ## Every run -/

/-- The invariant of the runs in which clients and broker keep their promises. -/
def RecoveryInv (cfg : Config) (s : State) : Prop :=
  s.Ending ∨ s.recovery.Serving ∧ Engaged cfg s

theorem recoveryInv_initial (cfg : Config) : RecoveryInv cfg (initial cfg) := by
  have hout : ¬(initial cfg).recovery.reconnection.serving := by rintro (h | h) <;> cases h
  have hkeeps : (initial cfg).recovery.reconnection.Inv :=
    ⟨Task.alive_fresh, Task.alive_fresh, Task.alive_fresh, fun h => absurd h hout,
      fun h => absurd h hout⟩
  exact .inr ⟨⟨hkeeps, fun _ => rfl, nofun, nofun, fun _ _ => rfl, nofun, nofun, nofun, nofun,
    fun h => absurd h hout⟩, engaged_initial cfg⟩

theorem recoveryInv_step {cfg : Config} {s t : State} {a : Act} (hs : RecoveryInv cfg s)
    (hok : lawful s a = true) (h : step cfg s a = some t) : RecoveryInv cfg t := by
  obtain hs | ⟨hs, he⟩ := hs
  · exact .inl (ending_step hs hok h)
  · exact (serving_step hs he hok h).imp_right fun ht => ⟨ht, engaged_step he h⟩

theorem RecoveryInv.notStuck {cfg : Config} {s : State} (hs : RecoveryInv cfg s) : s.NotStuck := by
  intro hstarted
  obtain (hstopped | hdestroying) | ⟨hs, -⟩ := hs
  · simp [hstopped] at hstarted
  · exact .inr (.inr (.inr (.inl (.inr hdestroying))))
  obtain ⟨c, hc, hended, hupdated⟩ | hd | hd | hr := hs.keeps.notStuck (.inl hstarted)
  · have hsub : (s.feed.subscriptions c).isSome = true := hs.serving (.inl hstarted) c hc
    cases hsh : s.shutdown c with
    | none =>
      exact .inl ⟨c, hc, Option.isSome_iff_ne_none.1 hsub, hsh, eq_false_of_ne_true hupdated⟩
    | waiting => exact .inr (.inl ⟨c, hsh⟩)
    | returned => exact absurd hsh hended
  · exact .inr (.inr (.inl hd))
  · exact .inr (.inr (.inr (.inl hd)))
  · exact .inr (.inr (.inr (.inr hr)))

/-- **The consumer is never stuck on a dead connection**, at the end of every run in which a client
that was shut down does not subscribe, metadata updates come after the subscription, and the user
does not stop the consumer. -/
theorem notStuck_of_lawful {cfg : Config} {s t : State} {as : List Act} (h0 : (machine cfg).Init s)
    (hok : (machine cfg).Along (fun s a => lawful s a = true) s as)
    (h : (machine cfg).run s as = some t) : t.NotStuck := by
  have hinit : ∀ {s}, (machine cfg).Init s → RecoveryInv cfg s := by
    rintro s rfl
    exact recoveryInv_initial cfg
  exact (Machine.invariant_along hinit recoveryInv_step h0 hok h).notStuck

/-- The client is lost between its subscription and the end of `start()`, and a new client replaces
it and reports a metadata update. -/
def lostWhileStarting : List Act :=
  [.start, .startStore, .startClient, .startQuery none, .startSubscribe, .shutdown 0, .startArm,
    .startExchange, .shutdownHandle 0, .tickReconnect .strand, .reconnect, .reconnectCheck,
    .reconnectCreate, .reconnectClient, .reconnectSubscribe, .metadataUpdate 1]

/-- The theorem at that run. -/
theorem notStuck_of_lostWhileStarting :
    ∃ t, (machine fromFive).run (initial fromFive) lostWhileStarting = some t ∧
      t.status = .started ∧ t.client = some 1 ∧ t.updated 1 = true ∧ t.NotStuck := by
  have hok : (machine fromFive).checkAlong (fun s a => lawful s a = true) (initial fromFive)
      lostWhileStarting = true := rfl
  exact ⟨_, rfl, rfl, rfl, rfl, notStuck_of_lawful rfl (Machine.along_of_check hok) rfl⟩

end Hareflow.Consumer
