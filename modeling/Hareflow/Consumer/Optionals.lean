import Hareflow.Consumer.Recovery

/-!
# The optional members of a consumer

`ConsumerImpl` has three optional members: `m_initial_offset`, `m_last_seen_offset` and
`m_auto_cursor_config`. Most of its dereferences of them come without a test of the same member, and
rest on a connection between the members that no line of the class states.

* `deref` fails for an empty member. The functions in the namespace `Checked` are the critical
  sections again, with each dereference where the source has it, and `checkedStep` is the step of
  the consumer that is made of them.
* `anyCall` is the consumer whose clients call `handle_message` whenever they like, with or without
  a subscription.
* In a state with the invariant `Engaged`, which connects the members, a checked step is the step of
  the consumer (`Engaged.checkedStep_eq`).
-/

namespace Hareflow.Consumer

open Foundations

/-! ## The dereferences -/

/-- The optional members of the class. -/
inductive Member
  | initialOffset
  | lastSeenOffset
  | autoCursorConfig
  deriving DecidableEq, Repr

/-- A computation that names the empty member that it has dereferenced. -/
abbrev Checked := Except Member

/-- Dereference a member. -/
def deref {α : Type} (m : Member) : Option α → Checked α
  | some a => .ok a
  | none => .error m

theorem deref_bind {α β : Type} {m : Member} {o : Option α} {a : α} (h : o = some a)
    (f : α → Checked β) : (deref m o >>= f) = f a := by
  rw [h]
  rfl

namespace Checked

/-- `client->subscribe(.., *m_initial_offset, ..)`. -/
def subscribe (s : State) (c : ℕ) : Checked State := do
  let asked ← deref .initialOffset s.cursor.initialOffset
  return { s with feed := s.feed.subscribe c asked }

/-- Arm the persist task, if it is valid. -/
def armPersist (cfg : Config) (s : State) : Checked State :=
  if cfg.persists then do
    let _ ← deref .autoCursorConfig cfg.autoCursorConfig
    return { s with persistCursorTask := s.persistCursorTask.scheduleAfter }
  else return s

/-- `internal_store_offset`. -/
def internalStoreOffset (cfg : Config) (s : State) (o : ℕ) (ok : Bool) : Checked State :=
  if cfg.named ∧ s.client ≠ none then
    armPersist cfg { s with
      stores := s.stores ++ [(o, ok)]
      cursor := if ok then { s.cursor with sinceLastPersist := 0 } else s.cursor }
  else return s

/-- `store_current_offset`. -/
def storeCurrentOffset (cfg : Config) (s : State) (ok : Bool) : Checked State :=
  if 0 < s.cursor.sinceLastPersist then do
    let o ← deref .lastSeenOffset s.cursor.lastSeen
    internalStoreOffset cfg s o ok
  else armPersist cfg s

/-- The test of `m_initial_offset` in `handle_message`. -/
def skips (cur : Cursor) (o : ℕ) : Checked Bool :=
  if cur.initialOffset ≠ none then do
    match ← deref .initialOffset cur.initialOffset with
    | .offset k => return o < k
    | _ => return false
  else return false

/-- The value of the local `store_offset` in `handle_message`. -/
def frequent (cfg : Config) (n : ℕ) : Checked Bool :=
  if cfg.autoCursorConfig ≠ none then do
    let conf ← deref .autoCursorConfig cfg.autoCursorConfig
    return 0 < conf.persistFrequency ∧ conf.persistFrequency ≤ n
  else return false

/-- The first critical section of `handle_message`. -/
def accept (cfg : Config) (s : State) (c o : ℕ) : Checked State := do
  if ← skips s.cursor o then
    return { s with feed := s.feed.setMessage c .idle }
  else
    let cursor := s.cursor.accept o
    let store ← frequent cfg cursor.sinceLastPersist
    return { s with
      cursor := cursor
      feed :=
        { s.feed.setMessage c (.accepted o store) with accepted := s.feed.accepted ++ [o] } }

/-- The second critical section of `handle_message`. -/
def storeHandled (cfg : Config) (s : State) (o : ℕ) (ok : Bool) : Checked State := do
  let conf ← deref .autoCursorConfig cfg.autoCursorConfig
  if conf.persistFrequency ≤ s.cursor.sinceLastPersist then internalStoreOffset cfg s o ok
  else return s

/-- What `reconnect_to_server` does to `m_initial_offset`. -/
def resume (cur : Cursor) : Checked Cursor :=
  if cur.lastSeen ≠ none then do
    let o ← deref .lastSeenOffset cur.lastSeen
    return { cur with initialOffset := some (.offset (nextOffset o)) }
  else return cur

/-- The critical section of `internal_stop` that stores. -/
def stopStore (cfg : Config) (s : State) (ok : Bool) : Checked State :=
  if cfg.autoCursorConfig ≠ none ∧ 0 < s.cursor.sinceLastPersist then do
    let o ← deref .lastSeenOffset s.cursor.lastSeen
    return { s with stores := s.stores ++ [(o, ok)] }
  else return s

end Checked

/-- A step of the consumer with its dereferences. The steps that have none are those of `step`. -/
def checkedStep (cfg : Config) (s : State) : Act → Option (Checked State)
  | .startSubscribe =>
    match s.start with
    | .queried c => some do
      let t ← Checked.subscribe s c
      return { t with start := .subscribed c }
    | _ => none
  | .startThrow subscribed =>
    match s.start with
    | .queried c => some do
      -- the argument of the call that throws
      let t ← Checked.subscribe s c
      return { (if subscribed then t else s) with start := .threw }
    | _ => (step cfg s (.startThrow subscribed)).map .ok
  | .startArm =>
    match s.start with
    | .subscribed c => some do
      let t ← Checked.armPersist cfg s
      return { t with start := .armed c }
    | _ => none
  | .accept c =>
    match s.feed.messages c with
    | .entered o => if s.unlocked then some (Checked.accept cfg s c o) else none
    | _ => none
  | .storeHandled c ok =>
    match s.feed.messages c with
    | .storing o =>
      if s.unlocked then some do
        let t ← Checked.storeHandled cfg s o ok
        return { t with feed := s.feed.setMessage c .idle }
      else none
    | _ => none
  | .storeOffset o ok =>
    if (s.status = .started ∨ s.status = .stopped) ∧ s.unlocked then
      some (Checked.internalStoreOffset cfg s o ok)
    else none
  | .persistStore ok =>
    if s.persisting ∧ s.unlocked then some do
      let t ← Checked.storeCurrentOffset cfg s ok
      return { t with persisting := false, persistCursorTask := t.persistCursorTask.returned }
    else none
  | .reconnectSubscribe =>
    match s.reconnect with
    | .started c =>
      if s.unlocked then
        if s.status = .started then some do
          let cursor ← Checked.resume s.cursor
          let t ← Checked.subscribe { s with cursor := cursor } c
          return { t with
            client := some c
            reconnect := .idle
            reconnectTask := s.reconnectTask.returned }
        else some (return s.leaveReconnect)
      else none
    | _ => none
  | .reconnectRefuse subscribed deleted =>
    match s.reconnect with
    | .started c =>
      if s.unlocked ∧ s.status = .started then some do
        let cursor ← Checked.resume s.cursor
        let t ← Checked.subscribe { s with cursor := cursor } c
        return { (if subscribed then t else { s with cursor := cursor }) with
          reconnect := .failed deleted }
      else none
    | _ => none
  | .stopStore k ok =>
    match s.stops k with
    | .storing c =>
      if s.unlocked then some do
        let t ← Checked.stopStore cfg s ok
        return t.setStop k (.stopping c)
      else none
    | _ => none
  | a => (step cfg s a).map .ok

namespace Checked

variable {cfg : Config} {s : State}

/-- A valid persist task was built for a configuration. -/
theorem config_of_persists (h : cfg.persists = true) : cfg.autoCursorConfig ≠ none := by
  intro hnone
  simp [Config.persists, hnone] at h

theorem subscribe_eq (h : s.cursor.initialOffset ≠ none) (c : ℕ) :
    subscribe s c = .ok (s.subscribe c) := by
  obtain ⟨asked, hasked⟩ := Option.ne_none_iff_exists'.1 h
  unfold subscribe State.subscribe
  rw [deref_bind hasked, hasked]
  rfl

theorem armPersist_eq (cfg : Config) (s : State) : armPersist cfg s = .ok (s.armPersist cfg) := by
  unfold armPersist State.armPersist
  split
  · rename_i hp
    obtain ⟨conf, hconf⟩ := Option.ne_none_iff_exists'.1 (config_of_persists hp)
    rw [deref_bind hconf]
    rfl
  · rfl

theorem internalStoreOffset_eq (cfg : Config) (s : State) (o : ℕ) (ok : Bool) :
    internalStoreOffset cfg s o ok = .ok (s.internalStoreOffset cfg o ok) := by
  unfold internalStoreOffset State.internalStoreOffset
  split
  · exact armPersist_eq cfg _
  · rfl

theorem storeCurrentOffset_eq (h : s.cursor.Seen) (cfg : Config) (ok : Bool) :
    storeCurrentOffset cfg s ok = .ok (s.storeCurrentOffset cfg ok) := by
  unfold storeCurrentOffset State.storeCurrentOffset
  split
  · rename_i hpos
    obtain ⟨o, ho⟩ := Option.ne_none_iff_exists'.1 (h hpos)
    rw [deref_bind ho, ho]
    exact internalStoreOffset_eq cfg s o ok
  · exact armPersist_eq cfg s

theorem skips_eq (cur : Cursor) (o : ℕ) : skips cur o = .ok (cur.skips o) := by
  unfold skips Cursor.skips
  cases hinit : cur.initialOffset with
  | none => rfl
  | some spec => cases spec <;> rfl

theorem frequent_eq (cfg : Config) (n : ℕ) : frequent cfg n = .ok (cfg.frequent n) := by
  unfold frequent Config.frequent
  cases cfg.autoCursorConfig <;> rfl

theorem accept_eq (cfg : Config) (s : State) (c o : ℕ) :
    accept cfg s c o = .ok (s.accept cfg c o) := by
  unfold accept State.accept
  rw [skips_eq]
  show (if s.cursor.skips o = true then _ else _) = _
  split
  · rfl
  · rw [frequent_eq]
    rfl

/-- The second critical section tests the count alone: that the frequency is positive was seen in
the first. -/
theorem storeHandled_eq
    (h : ∃ conf, cfg.autoCursorConfig = some conf ∧ 0 < conf.persistFrequency) (o : ℕ) (ok : Bool) :
    storeHandled cfg s o ok = .ok (if cfg.frequent s.cursor.sinceLastPersist
      then s.internalStoreOffset cfg o ok else s) := by
  obtain ⟨conf, hconf, hpos⟩ := h
  unfold storeHandled Config.frequent
  rw [deref_bind hconf, hconf]
  simp only [hpos, true_and, decide_eq_true_eq]
  split
  · exact internalStoreOffset_eq cfg s o ok
  · rfl

theorem resume_eq (cur : Cursor) : resume cur = .ok cur.resume := by
  unfold resume Cursor.resume
  cases cur.lastSeen <;> rfl

/-- `reconnect_to_server` subscribes after the last offset seen, or where it was to begin. -/
theorem resume_subscribe_eq (h : s.cursor.lastSeen = none → s.cursor.initialOffset ≠ none) (c : ℕ)
    {α : Type} (f : Cursor → State → Checked α) :
    (do
      let cursor ← resume s.cursor
      let t ← subscribe { s with cursor := cursor } c
      f cursor t) =
      f s.cursor.resume (State.subscribe { s with cursor := s.cursor.resume } c) := by
  have hsub := subscribe_eq (s := { s with cursor := s.cursor.resume })
    (Cursor.resume_initialOffset h) c
  rw [resume_eq]
  show (subscribe { s with cursor := s.cursor.resume } c >>= fun t => _) = _
  rw [hsub]
  rfl

theorem stopStore_eq (h : s.cursor.Seen) (cfg : Config) (ok : Bool) :
    stopStore cfg s ok = .ok (match cfg.autoCursorConfig, s.cursor.lastSeen with
      | some _, some o =>
        if 0 < s.cursor.sinceLastPersist then { s with stores := s.stores ++ [(o, ok)] } else s
      | _, _ => s) := by
  unfold stopStore
  cases cfg.autoCursorConfig with
  | none => rfl
  | some conf =>
    by_cases hpos : 0 < s.cursor.sinceLastPersist
    · obtain ⟨o, ho⟩ := Option.ne_none_iff_exists'.1 (h hpos)
      rw [if_pos ⟨nofun, hpos⟩, deref_bind ho]
      simp only [ho, if_pos hpos]
      rfl
    · rw [if_neg fun hc => hpos hc.2]
      cases s.cursor.lastSeen
      · rfl
      · simp only [if_neg hpos]
        rfl

end Checked

/-! ## Calls in any order -/

/-- A step of the consumer, or a call of `handle_message` that no subscription asks for. -/
inductive Move
  | act (a : Act)
  | message (c o : ℕ)
  deriving DecidableEq, Repr

/-- The consumer when any frame thread may call `handle_message` at any time. The frame threads are
those of its clients, and `start()` has the mutex when it makes the first one: a call that came
before would empty the initial offset that `start()` dereferences. -/
def anyCallStep (cfg : Config) (s : State) : Move → Option State
  | .act a => step cfg s a
  | .message c o =>
    if s.start.opened ∧ s.feed.messages c = .idle then
      some { s with feed := s.feed.setMessage c (.entered o) }
    else none

def anyCall (cfg : Config) : Machine State Move := ⟨(· = initial cfg), anyCallStep cfg⟩

variable {cfg : Config} {s t : State}

theorem engaged_anyCallStep {m : Move} (hs : Engaged cfg s) (h : anyCallStep cfg s m = some t) :
    Engaged cfg t := by
  cases m with
  | act a => exact engaged_step hs h
  | message c o =>
    simp only [anyCallStep] at h
    split at h <;> cases h
    rename_i hopened
    exact hs.setMessage (.of_eq rfl (.inl rfl)) hopened.1 hs.seen ⟨rfl, rfl⟩ rfl fun hst => by
      cases hst

/-- **With the members engaged, a checked step is the step**: no dereference fails. -/
theorem Engaged.checkedStep_eq (hs : Engaged cfg s) (a : Act) :
    checkedStep cfg s a = (step cfg s a).map .ok := by
  cases a <;> simp only [checkedStep, step]
  case startSubscribe =>
    cases hpc : s.start with
    | queried c =>
      simp only [Checked.subscribe_eq (hs.early (by rw [hpc]; rfl))]
      rfl
    | _ => rfl
  case startThrow subscribed =>
    cases hpc : s.start with
    | queried c =>
      simp only [Checked.subscribe_eq (hs.early (by rw [hpc]; rfl))]
      rfl
    | _ => rfl
  case startArm =>
    cases s.start with
    | subscribed c =>
      simp only [Checked.armPersist_eq]
      rfl
    | _ => rfl
  case accept c =>
    cases s.feed.messages c with
    | entered o =>
      simp only [Checked.accept_eq]
      cases s.unlocked <;> rfl
    | _ => rfl
  case storeHandled c ok =>
    cases hpc : s.feed.messages c with
    | storing o =>
      simp only [Checked.storeHandled_eq (hs.stores c (by rw [hpc]; rfl))]
      cases s.unlocked <;> rfl
    | _ => rfl
  case storeOffset o ok =>
    rw [Checked.internalStoreOffset_eq]
    by_cases hfree : (s.status = .started ∨ s.status = .stopped) ∧ s.unlocked = true
    · rw [if_pos hfree, if_pos hfree]
      rfl
    · rw [if_neg hfree, if_neg hfree]
      rfl
  case persistStore ok =>
    rw [Checked.storeCurrentOffset_eq hs.seen]
    by_cases hfree : s.persisting = true ∧ s.unlocked = true
    · rw [if_pos hfree, if_pos hfree]
      rfl
    · rw [if_neg hfree, if_neg hfree]
      rfl
  case reconnectSubscribe =>
    simp only [Checked.resume_subscribe_eq hs.offset]
    cases s.reconnect with
    | started c => cases s.unlocked <;> cases s.status <;> rfl
    | _ => rfl
  case reconnectRefuse subscribed deleted =>
    simp only [Checked.resume_subscribe_eq hs.offset]
    cases s.reconnect with
    | started c => cases s.unlocked <;> cases s.status <;> rfl
    | _ => rfl
  case stopStore k ok =>
    cases s.stops k with
    | storing c =>
      simp only [Checked.stopStore_eq hs.seen]
      cases s.unlocked with
      | false => rfl
      | true =>
        cases cfg.autoCursorConfig <;> cases s.cursor.lastSeen <;> try rfl
        by_cases hpos : 0 < s.cursor.sinceLastPersist
        · simp only [if_pos hpos]
          rfl
        · simp only [if_neg hpos]
          rfl
    | _ => rfl

/-- **No empty member is dereferenced**, in any state that a consumer reaches, whatever its name, its
offset and its cursor configuration are, and whenever its clients call `handle_message`: an offset is
there to subscribe at, an offset was seen if a message is counted, a valid persist task has a
configuration, and each step gives with its dereferences what it gives without them. -/
theorem members_engaged (cfg : Config) {s : State} (h : (anyCall cfg).Reachable s) :
    (s.cursor.initialOffset ≠ none ∨ s.cursor.lastSeen ≠ none) ∧
      (0 < s.cursor.sinceLastPersist → s.cursor.lastSeen ≠ none) ∧
      (cfg.persists = true → cfg.autoCursorConfig ≠ none) ∧
      ∀ a, checkedStep cfg s a = (step cfg s a).map .ok := by
  obtain ⟨_, ms, rfl, h⟩ := h
  have hs : Engaged cfg s := Machine.run_keeps engaged_anyCallStep (engaged_initial cfg) h
  refine ⟨?_, hs.seen, Checked.config_of_persists, hs.checkedStep_eq⟩
  by_cases hlast : s.cursor.lastSeen = none
  · exact .inl (hs.offset hlast)
  · exact .inr hlast

/-- A consumer with a name that persists its cursor at each message, and after a delay. -/
def eachMessage : Config := ⟨true, .first, some ⟨1, 1000⟩⟩

/-- A client calls `handle_message` before `start()` has subscribed; then the connection is lost. -/
def messageWhileStarting : List Move :=
  [Move.act .start, .act .startStore, .act .startClient, .message 0 7] ++
    [Act.startQuery none, .startSubscribe, .startArm, .startExchange, .accept 0, .hand 0, .handled 0,
      .shutdown 0, .shutdownHandle 0, .tickReconnect .strand, .reconnect, .reconnectCheck,
      .reconnectCreate, .reconnectClient].map Move.act

/-- The theorem where the second client is to subscribe: `m_initial_offset` is empty. -/
theorem members_engaged_messageWhileStarting :
    ∃ s, (anyCall eachMessage).Reachable s ∧ s.cursor = ⟨none, some 7, 1⟩ ∧
      s.reconnect = .started 1 ∧
      ∀ a, checkedStep eachMessage s a = (step eachMessage s a).map .ok :=
  have hreach : ∀ {t}, (anyCall eachMessage).run (initial eachMessage) messageWhileStarting = some t →
      (anyCall eachMessage).Reachable t := fun h => ⟨_, _, rfl, h⟩
  ⟨_, hreach rfl, rfl, rfl, (members_engaged eachMessage (hreach rfl)).2.2.2⟩

/-- In a state without the invariant a dereference fails. -/
example : ∃ s, checkedStep eachMessage s .startSubscribe = some (.error .initialOffset) :=
  ⟨{ initial eachMessage with cursor := ⟨none, some 7, 1⟩, start := .queried 0 }, rfl⟩

end Hareflow.Consumer
