import Hareflow.Consumer.Machine
import Mathlib.Data.List.Basic

/-!
# The persisted cursor

A consumer with a name and an automatic cursor configuration stores its offset in three places: in
`handle_message`, after every so many messages; in `store_current_offset`, which its persist task
runs after a delay; and when it is stopped. The first stores the offset of a message that has been
processed. The other two store `m_last_seen_offset`, which is set before the message handler is
called, and so they may store an offset that is still being processed. And all three may store an offset
at or past that of a message whose handler has thrown.

The persist task arms its own timer again each time it runs, on every path but one: when there are
unpersisted messages and no client, `internal_store_offset` does nothing at all, and the task is
never armed again.

For both, the result about runs excludes the steps that go wrong, and runs show that these steps can
be taken.
-/

namespace Hareflow.Consumer

open Foundations

/-! ## What is stored has been processed -/

/-- The handler has not returned for the message of the call. -/
def MessagePc.unprocessed : MessagePc → List ℕ
  | .accepted o _ | .handling o _ => [o]
  | _ => []

/-- The accepted offsets whose handler has not returned. -/
def Feed.unprocessed (f : Feed) : List ℕ :=
  match f.newest with
  | some c => (f.messages c).unprocessed
  | none => []

/-- `handle_message` is called by one frame thread at a time, with increasing offsets, and the user
does not store offsets. -/
def sequential (s : State) : Act → Bool
  | .deliver c o => s.feed.newest = some c ∧ s.cursor.lastSeen.all (· < o)
  | .startSubscribe | .startThrow true | .reconnectSubscribe | .reconnectRefuse true _ =>
    s.feed.newest.all fun c => s.feed.messages c = .idle
  | .storeOffset _ _ => false
  | _ => true

/-- The step sends `m_last_seen_offset` to the broker. -/
def sendsLastSeen (cfg : Config) (s : State) : Act → Bool
  | .persistStore _ => 0 < s.cursor.sinceLastPersist ∧ cfg.named ∧ s.client ≠ none
  | .stopStore _ _ => 0 < s.cursor.sinceLastPersist ∧ cfg.autoCursorConfig ≠ none
  | _ => false

/-- The last seen offset is not sent while its handler is to be called or running. -/
def settled (cfg : Config) (s : State) (a : Act) : Bool :=
  !sendsLastSeen cfg s a || s.feed.unprocessed.isEmpty

/-- The message handler does not throw. -/
def returns : Act → Bool
  | .handlerThrow _ => false
  | _ => true

/-- Whatever has been sent to the broker was processed, and so was every message accepted before. -/
def State.StoredProcessed (s : State) : Prop :=
  ∀ p ∈ s.stores, p.1 ∈ s.feed.processed ∧ ∀ o ∈ s.feed.accepted, o < p.1 → o ∈ s.feed.processed

/-- The invariant of the runs in which the handlers return and the last seen offset is sent only when it
is settled. -/
structure Tidy (cur : Cursor) (f : Feed) (stores : List (ℕ × Bool)) : Prop where
  increasing : f.accepted.Pairwise (· < ·)
  last : cur.lastSeen = f.accepted.getLast?
  processed : f.accepted = f.processed ++ f.unprocessed
  others : ∀ c, f.newest ≠ some c → f.messages c = .idle
  entered : ∀ c o, f.messages c = .entered o → ∀ l ∈ cur.lastSeen, l < o
  storing : ∀ c o, f.messages c = .storing o → o ∈ f.processed
  stored : ∀ p ∈ stores, p.1 ∈ f.processed

variable {cur : Cursor} {f : Feed} {stores : List (ℕ × Bool)} {c o : ℕ}

/-- Only the last of the accepted offsets can be unprocessed, and what was stored is not past the
processed ones. -/
theorem Tidy.mem_processed (h : Tidy cur f stores) {p : ℕ} (hp : p ∈ f.processed) {o : ℕ}
    (ho : o ∈ f.accepted) (hlt : o < p) : o ∈ f.processed := by
  have hinc := h.increasing
  rw [h.processed] at hinc ho
  rcases List.mem_append.1 ho with ho | ho
  · exact ho
  · have := (List.pairwise_append.1 hinc).2.2 p hp o ho
    omega

theorem Tidy.storedProcessed {s : State} (h : Tidy s.cursor s.feed s.stores) : s.StoredProcessed :=
  fun p hp => ⟨h.stored p hp, fun _ ho hlt => h.mem_processed (h.stored p hp) ho hlt⟩

theorem tidy_initial (cfg : Config) :
    Tidy (initial cfg).cursor (initial cfg).feed (initial cfg).stores :=
  ⟨.nil, rfl, rfl, fun _ _ => rfl, nofun, nofun, nofun⟩

/-- A frame thread in a call of `handle_message` is that of the newest subscription. -/
theorem Tidy.newest_of_ne_idle (h : Tidy cur f stores) (hc : f.messages c ≠ .idle) :
    f.newest = some c := by
  by_contra hne
  exact hc (h.others c hne)

/-- Only the initial offset and the count of the cursor change. -/
theorem Tidy.setCursor {cur' : Cursor} (h : Tidy cur f stores)
    (hlast : cur'.lastSeen = cur.lastSeen) :
    Tidy cur' f stores :=
  ⟨h.increasing, hlast.trans h.last, h.processed, h.others, fun c o hc => hlast ▸ h.entered c o hc,
    h.storing, h.stored⟩

theorem Tidy.store (h : Tidy cur f stores) (ho : o ∈ f.processed) (ok : Bool) :
    Tidy cur f (stores ++ [(o, ok)]) := by
  refine ⟨h.increasing, h.last, h.processed, h.others, h.entered, h.storing, fun p hp => ?_⟩
  rcases List.mem_append.1 hp with hp | hp
  · exact h.stored p hp
  · obtain rfl := List.mem_singleton.1 hp
    exact ho

theorem Tidy.subscribe (h : Tidy cur f stores)
    (hidle : (f.newest.all fun c => f.messages c = .idle) = true) (c : ℕ)
    (asked : OffsetSpecification) : Tidy cur (f.subscribe c asked) stores := by
  have hall : ∀ c, f.messages c = .idle := by
    intro c'
    by_cases hc' : f.newest = some c'
    · simpa [hc'] using hidle
    · exact h.others c' hc'
  have hnil : f.unprocessed = [] := by
    unfold Feed.unprocessed
    split
    · rw [hall]
      rfl
    · rfl
  refine ⟨h.increasing, h.last, ?_, fun c' _ => hall c', h.entered, h.storing, h.stored⟩
  show f.accepted = f.processed ++ (f.messages c).unprocessed
  rw [h.processed, hnil, hall]
  rfl

/-- The frame thread of the newest subscription moves; what it does to the record is given. -/
theorem Tidy.setMessage (h : Tidy cur f stores) (f' : Feed) (pc : MessagePc)
    (hnew : f.newest = some c) (hmsgs : f'.messages = Function.update f.messages c pc)
    (hnew' : f'.newest = f.newest) (hinc : f'.accepted.Pairwise (· < ·))
    {cur' : Cursor} (hlast : cur'.lastSeen = f'.accepted.getLast?)
    (hproc : f'.accepted = f'.processed ++ pc.unprocessed)
    (hent : ∀ o, pc = .entered o → ∀ l ∈ cur'.lastSeen, l < o)
    (hsto : ∀ o, pc = .storing o → o ∈ f'.processed) (hsub : f.processed ⊆ f'.processed) :
    Tidy cur' f' stores := by
  have hne : ∀ c', f.newest ≠ some c' → c' ≠ c := by
    rintro c' hc' rfl
    exact hc' hnew
  have hother : ∀ c', c' ≠ c → f'.messages c' = .idle := by
    intro c' hc'
    rw [hmsgs, Function.update_of_ne hc']
    exact h.others c' (by rw [hnew]; exact fun he => hc' (Option.some.inj he).symm)
  have hself : f'.messages c = pc := by rw [hmsgs, Function.update_self]
  refine ⟨hinc, hlast, ?_, fun c' hc' => hother c' (hne c' (hnew' ▸ hc')), ?_, ?_,
    fun p hp => hsub (h.stored p hp)⟩
  · unfold Feed.unprocessed
    rw [hnew', hnew]
    show f'.accepted = f'.processed ++ (f'.messages c).unprocessed
    rw [hself]
    exact hproc
  · intro c' o hc'
    by_cases hcc : c' = c
    · subst hcc
      exact hent o (hself.symm.trans hc')
    · cases (hother c' hcc).symm.trans hc'
  · intro c' o hc'
    by_cases hcc : c' = c
    · subst hcc
      exact hsto o (hself.symm.trans hc')
    · cases (hother c' hcc).symm.trans hc'

theorem Feed.unprocessed_of_newest (hnew : f.newest = some c) :
    f.unprocessed = (f.messages c).unprocessed := by
  unfold Feed.unprocessed
  rw [hnew]

theorem Tidy.deliver (h : Tidy cur f stores) {sub : Subscription} (hnew : f.newest = some c)
    (hpc : f.messages c = .idle) (hlt : cur.lastSeen.all (· < o) = true) :
    Tidy cur (f.deliver c o sub) stores := by
  have hproc := h.processed
  rw [Feed.unprocessed_of_newest hnew, hpc] at hproc
  refine h.setMessage (f.deliver c o sub) (.entered o) hnew rfl rfl h.increasing h.last hproc ?_
    nofun (fun _ => id)
  intro o' ho' l hl
  obtain rfl : o = o' := MessagePc.entered.inj ho'
  simpa using Option.all_eq_true _ _ |>.1 hlt l hl

/-- A message is accepted after all those before it. -/
theorem Tidy.accept (h : Tidy cur f stores) (hpc : f.messages c = .entered o) (store : Bool) :
    Tidy (cur.accept o)
      { f.setMessage c (.accepted o store) with accepted := f.accepted ++ [o] } stores := by
  have hnew := h.newest_of_ne_idle (by rw [hpc]; exact nofun)
  have hproc := h.processed
  rw [Feed.unprocessed_of_newest hnew, hpc] at hproc
  have hlt : ∀ x ∈ f.accepted, x < o := by
    intro x hx
    obtain ⟨l, hl⟩ : ∃ l, f.accepted.getLast? = some l :=
      Option.isSome_iff_exists.1 (List.getLast?_isSome.2 (List.ne_nil_of_mem hx))
    have hlo := h.entered c o hpc l (h.last.trans hl)
    obtain ⟨init, hinit⟩ := List.getLast?_eq_some_iff.1 hl
    have hinc := h.increasing
    rw [hinit] at hx hinc
    rcases List.mem_append.1 hx with hx | hx
    · have := (List.pairwise_append.1 hinc).2.2 x hx l (by simp)
      omega
    · obtain rfl := List.mem_singleton.1 hx
      exact hlo
  refine h.setMessage { f.setMessage c (.accepted o store) with accepted := f.accepted ++ [o] }
    (.accepted o store) hnew rfl rfl ?_ (List.getLast?_concat ..).symm ?_ nofun nofun (fun _ => id)
  · refine List.pairwise_append.2 ⟨h.increasing, List.pairwise_singleton .., fun x hx y hy => ?_⟩
    obtain rfl := List.mem_singleton.1 hy
    exact hlt x hx
  · show f.accepted ++ [o] = f.processed ++ [o]
    rw [hproc]
    simp [MessagePc.unprocessed]

/-- The call of `handle_message` ends without an unprocessed message. -/
theorem Tidy.finish (h : Tidy cur f stores) (hpc : f.messages c ≠ .idle)
    (hun : (f.messages c).unprocessed = []) : Tidy cur (f.setMessage c .idle) stores := by
  have hnew := h.newest_of_ne_idle hpc
  have hproc := h.processed
  rw [Feed.unprocessed_of_newest hnew, hun] at hproc
  exact h.setMessage (f.setMessage c .idle) .idle hnew rfl rfl h.increasing h.last hproc nofun nofun
    (fun _ => id)

theorem Tidy.hand (h : Tidy cur f stores) {store : Bool} (hpc : f.messages c = .accepted o store) :
    Tidy cur { f.setMessage c (.handling o store) with handed := f.handed ++ [o] } stores := by
  have hnew := h.newest_of_ne_idle (by rw [hpc]; exact nofun)
  have hproc := h.processed
  rw [Feed.unprocessed_of_newest hnew, hpc] at hproc
  exact h.setMessage { f.setMessage c (.handling o store) with handed := f.handed ++ [o] }
    (.handling o store) hnew rfl rfl h.increasing h.last hproc nofun nofun (fun _ => id)

/-- The handler returns for the last message that was accepted. -/
theorem Tidy.handled (h : Tidy cur f stores) {store : Bool}
    (hpc : f.messages c = .handling o store) :
    Tidy cur { f.setMessage c (if store then .storing o else .idle) with
      processed := f.processed ++ [o] } stores := by
  have hnew := h.newest_of_ne_idle (by rw [hpc]; exact nofun)
  have hproc := h.processed
  rw [Feed.unprocessed_of_newest hnew, hpc] at hproc
  refine h.setMessage
    { f.setMessage c (if store then .storing o else .idle) with processed := f.processed ++ [o] }
    (if store then .storing o else .idle) hnew rfl rfl h.increasing h.last ?_ ?_ ?_
    (List.subset_append_left ..)
  · show f.accepted = f.processed ++ [o] ++ _
    rw [hproc]
    cases store <;> simp [MessagePc.unprocessed]
  · cases store <;> exact nofun
  · intro o' ho'
    cases store with
    | false => cases ho'
    | true =>
      obtain rfl : o = o' := MessagePc.storing.inj ho'
      exact List.mem_append_right _ (List.mem_singleton_self o)

/-- When nothing is unprocessed, the last offset seen has been processed. -/
theorem Tidy.lastSeen_processed (h : Tidy cur f stores) (hnil : f.unprocessed = [])
    (ho : cur.lastSeen = some o) : o ∈ f.processed := by
  have hproc := h.processed
  rw [hnil, List.append_nil] at hproc
  rw [← hproc]
  exact List.mem_of_getLast? (h.last.symm.trans ho)

theorem tidy_step {cfg : Config} {s t : State} {a : Act} (hs : Tidy s.cursor s.feed s.stores)
    (hseq : sequential s a = true) (hset : settled cfg s a = true) (hret : returns a = true)
    (h : step cfg s a = some t) : Tidy t.cursor t.feed t.stores := by
  have hres : Tidy s.cursor.resume s.feed s.stores := hs.setCursor s.cursor.resume_lastSeen
  cases progress_of_step h with
  | still hcur hfeed hsto =>
    rw [hcur, hfeed, hsto]
    exact hs
  | query hpc hcur hfeed hsto =>
    rw [hcur, hfeed, hsto]
    exact hs.setCursor rfl
  | subscribe ha hpc hpc' hasked hcur hfeed hsto =>
    have hidle : (s.feed.newest.all fun c => s.feed.messages c = .idle) = true := by
      obtain rfl | rfl := ha <;> exact hseq
    rw [hcur, hfeed, hsto]
    exact hs.subscribe hidle _ _
  | resume hstarted hcur hfeed hsto =>
    rw [hcur, hfeed, hsto]
    exact hres
  | resubscribe ha hstarted hasked hcur hfeed hsto =>
    have hidle : (s.feed.newest.all fun c => s.feed.messages c = .idle) = true := by
      obtain rfl | ⟨deleted, rfl⟩ := ha <;> exact hseq
    rw [hcur, hfeed, hsto]
    exact hres.subscribe hidle _ _
  | deliver hpc hsub hcur hfeed hsto =>
    simp only [sequential, decide_eq_true_eq] at hseq
    rw [hcur, hfeed, hsto]
    exact hs.deliver hseq.1 hpc hseq.2
  | skip hpc hskip hcur hfeed hsto =>
    rw [hcur, hfeed, hsto]
    exact hs.finish (by simp [hpc]) (by rw [hpc]; rfl)
  | accept hpc hfree hskip hcur hfeed hsto =>
    rw [hcur, hfeed, hsto]
    exact hs.accept hpc _
  | hand hpc hcur hfeed hsto =>
    rw [hcur, hfeed, hsto]
    exact hs.hand hpc
  | handled hpc hcur hfeed hsto =>
    rw [hcur, hfeed, hsto]
    exact hs.handled hpc
  | threw hpc hcur hfeed hsto => cases hret
  | leave hpc hwhy hcur hfeed hsto =>
    rw [hcur, hfeed, hsto]
    exact hs.finish (by simp [hpc]) (by rw [hpc]; rfl)
  | @storeHandled c o ok hpc hfreq hclient hcur hfeed hsto =>
    have hdone := hs.finish (c := c) (by simp [hpc]) (by rw [hpc]; rfl)
    rw [hcur, hfeed, hsto]
    exact (hdone.store (hs.storing c o hpc) ok).setCursor (by simp)
  | storeOffset hcur hfeed hsto => cases hseq
  | persist hlast hpos hnamed hclient hcur hfeed hsto =>
    have hnil : s.feed.unprocessed = [] := by
      simpa [settled, sendsLastSeen, hpos, hnamed, hclient] using hset
    rw [hcur, hfeed, hsto]
    exact (hs.store (hs.lastSeen_processed hnil hlast) _).setCursor (by simp)
  | stopStore hpc hstops hconf hlast hpos hcur hfeed hsto =>
    have hnil : s.feed.unprocessed = [] := by
      simpa [settled, sendsLastSeen, hpos, hconf] using hset
    rw [hcur, hfeed, hsto]
    exact hs.store (hs.lastSeen_processed hnil hlast) _

/-- **What is persisted has been processed**: in every run of sequential calls of `handle_message`
in which no message handler throws and neither the persist task nor `internal_stop` sends the last seen
offset while its handler is to be called or running, each offset that is sent to the broker has been
processed, and so has every message accepted before it. -/
theorem storedProcessed_of_run (cfg : Config) {s t : State} {as : List Act}
    (h0 : (machine cfg).Init s)
    (hok : (machine cfg).Along
      (fun s a => sequential s a = true ∧ settled cfg s a = true ∧ returns a = true) s as)
    (h : (machine cfg).run s as = some t) : t.StoredProcessed := by
  have hinit : ∀ {s}, (machine cfg).Init s → Tidy s.cursor s.feed s.stores := by
    rintro s rfl
    exact tidy_initial cfg
  have hstep : ∀ {s a t}, Tidy s.cursor s.feed s.stores →
      (sequential s a = true ∧ settled cfg s a = true ∧ returns a = true) →
      (machine cfg).step s a = some t → Tidy t.cursor t.feed t.stores :=
    fun hs hok h => tidy_step hs hok.1 hok.2.1 hok.2.2 h
  exact Tidy.storedProcessed (Machine.invariant_along hinit hstep h0 hok h)

/-- A consumer with a name that persists its cursor after a delay, and not after a number of
messages. -/
def delayedCursor : Config := ⟨true, .first, some ⟨0, 1000⟩⟩

def started : List Act :=
  [.start, .startStore, .startClient, .startQuery none, .startSubscribe, .startArm, .startExchange]

/-- The timer of the persist task expires and the task calls `store_current_offset`. -/
def persistTimer : List Act :=
  [.tickPersist .strand, .tickPersist .expire, .tickPersist .strand, .persist]

/-- The theorem at a run in which the timer fires after the message has been processed. -/
theorem storedProcessed_of_timer :
    ∃ t, (machine delayedCursor).run (initial delayedCursor)
        (started ++ [Act.deliver 0 0, .accept 0, .hand 0, .handled 0] ++ persistTimer ++
          [Act.persistStore true]) = some t ∧ t.stores = [(0, true)] ∧ t.StoredProcessed := by
  have hok : (machine delayedCursor).checkAlong
      (fun s a => sequential s a = true ∧ settled delayedCursor s a = true ∧ returns a = true)
      (initial delayedCursor)
      (started ++ [Act.deliver 0 0, .accept 0, .hand 0, .handled 0] ++ persistTimer ++
        [Act.persistStore true]) = true := rfl
  exact ⟨_, rfl, rfl, storedProcessed_of_run delayedCursor rfl (Machine.along_of_check hok) rfl⟩

/-- **A message is persisted before it is processed**: the timer fires while the handler runs. **Or it
is persisted and never processed**: the timer fires after the handler has thrown, when no call of
`handle_message` is running. -/
theorem stored_before_processed :
    (∃ t, (machine delayedCursor).run (initial delayedCursor)
        (started ++ [Act.deliver 0 0, .accept 0, .hand 0] ++ persistTimer ++ [Act.persistStore true]) =
        some t ∧
      (machine delayedCursor).Along (fun s a => sequential s a = true ∧ returns a = true)
        (initial delayedCursor)
        (started ++ [Act.deliver 0 0, .accept 0, .hand 0] ++ persistTimer ++ [Act.persistStore true]) ∧
      t.stores = [(0, true)] ∧ t.feed.processed = [] ∧ ¬t.StoredProcessed) ∧
    ∃ t, (machine delayedCursor).run (initial delayedCursor)
        (started ++ [Act.deliver 0 0, .accept 0, .hand 0, .handlerThrow 0] ++ persistTimer ++
          [Act.persistStore true]) = some t ∧
      (machine delayedCursor).Along
        (fun s a => sequential s a = true ∧ settled delayedCursor s a = true) (initial delayedCursor)
        (started ++ [Act.deliver 0 0, .accept 0, .hand 0, .handlerThrow 0] ++ persistTimer ++
          [Act.persistStore true]) ∧
      t.stores = [(0, true)] ∧ t.feed.processed = [] ∧ ¬t.StoredProcessed := by
  have hnot {t : State} (hstores : t.stores = [(0, true)]) (hprocessed : t.feed.processed = []) :
      ¬t.StoredProcessed := by
    intro h
    have hmem := (h (0, true) (by rw [hstores]; exact List.mem_singleton_self _)).1
    rw [hprocessed] at hmem
    cases hmem
  refine ⟨⟨_, rfl, Machine.along_of_check ?_, rfl, rfl, hnot rfl rfl⟩,
    ⟨_, rfl, Machine.along_of_check ?_, rfl, rfl, hnot rfl rfl⟩⟩
  · rfl
  · rfl

/-! ## The persist task stays alive -/

/-- No call of `stop()` or of `internal_stop` begins. -/
def unstopped : Act → Bool
  | .stop _ => false
  | _ => true

/-- There is nothing to persist, or a client to persist it with. -/
def State.connected (s : State) : Bool := s.cursor.sinceLastPersist = 0 ∨ s.client ≠ none

/-- `store_current_offset` does not find unpersisted messages and no client. -/
def connected (s : State) : Act → Bool
  | .persistStore _ => s.connected
  | _ => true

/-- The persist task of a started consumer has an invocation to come, or it is running and arms its
timer again in its critical section. -/
def State.PersistAlive (cfg : Config) (s : State) : Prop :=
  s.status = .started → s.persistCursorTask.Scheduled ∨
    s.persisting = true ∧ ∀ b t, step cfg s (.persistStore b) = some t →
      t.persistCursorTask.Scheduled

/-- `start()` has armed the persist task, and the consumer has not been stopped. -/
def State.Armed (s : State) : Prop := (∃ c, s.start = .armed c) ∨ s.status = .started

/-- The invariant of the runs in which the persist task finds a client or nothing to persist. -/
structure PersistInv (s : State) : Prop where
  alive : s.persistCursorTask.Alive
  seen : s.cursor.Seen
  unstopped : ∀ k, s.stops k = .idle
  armed : s.Armed → s.persistCursorTask.Scheduled ∨ s.persisting = true

theorem persistInv_initial (cfg : Config) : PersistInv (initial cfg) :=
  ⟨Task.alive_fresh, nofun, fun _ => rfl, nofun⟩

theorem State.Armed.started {s : State} (h : s.Armed) (hpc : ∀ c, s.start ≠ .armed c) :
    s.status = .started :=
  h.resolve_left fun ⟨c, hc⟩ => hpc c hc

/-- Only `start()` arms the task for the first time. -/
theorem armed_of_step {cfg : Config} {s t : State} {a : Act} (h : step cfg s a = some t)
    (ha : a ≠ .startArm) (ht : t.Armed) : s.Armed := by
  by_cases hst : a.starts = false
  · obtain ⟨hstart, hstatus, -⟩ := (leaves_of_step h).start hst
    unfold State.Armed at ht ⊢
    rwa [hstart, hstatus] at ht
  cases a <;> simp only [Act.starts, not_true_eq_false] at hst <;> simp only [step] at h
  case start =>
    (repeat' split at h) <;> cases h
    · cases ht.started (by simp)
    · exact .inr (ht.started (by simp))
  case startStore =>
    split at h <;> cases h
    exact .inr (ht.started (by simp))
  case startClient =>
    split at h <;> cases h
    exact .inr (ht.started (by simp))
  case startQuery stored =>
    (repeat' split at h) <;> cases h
    all_goals exact .inr (ht.started (by simp))
  case startSubscribe =>
    split at h <;> cases h
    exact .inr (by simpa using ht.started (by simp))
  case startThrow subscribed =>
    cases subscribed <;> (split at h <;> cases h) <;>
      exact .inr (by simpa using ht.started (by simp))
  case startArm => exact absurd rfl ha
  case startExchange =>
    split at h
    · rename_i c hpc
      exact .inl ⟨c, hpc⟩
    · cases h
  case reconnectSubscribe =>
    (repeat' split at h) <;> cases h
    · unfold State.Armed at ht ⊢
      simpa using ht
    · exact ht
  case reconnectRefuse subscribed deleted =>
    unfold State.Armed at ht ⊢
    cases subscribed <;> ((repeat' split at h) <;> cases h) <;> simpa using ht
  case stopExchange k =>
    split at h <;> cases h
    exact ht.imp_right fun hst => by cases hst

section

variable {cfg : Config} (hcfg : cfg.persists = true)
include hcfg

theorem named_of_persists : cfg.named = true := by
  unfold Config.persists Config.autoCursorConfig at hcfg
  by_contra hn
  simp [hn] at hcfg

theorem armPersist_persistCursorTask (s : State) :
    (s.armPersist cfg).persistCursorTask = s.persistCursorTask.scheduleAfter := by
  unfold State.armPersist
  rw [if_pos hcfg]

/-- `internal_store_offset` arms the task, or leaves it alone for want of a client. -/
theorem internalStoreOffset_persistCursorTask (s : State) (o : ℕ) (b : Bool) :
    (s.internalStoreOffset cfg o b).persistCursorTask =
      if s.client ≠ none then s.persistCursorTask.scheduleAfter else s.persistCursorTask := by
  unfold State.internalStoreOffset
  by_cases hc : s.client = none
  · simp [hc]
  · simp [hc, named_of_persists hcfg, armPersist_persistCursorTask hcfg]

/-- `store_current_offset` arms the task, unless it finds unpersisted messages and no client. -/
theorem storeCurrentOffset_persistCursorTask {s : State} (hseen : s.cursor.Seen)
    (hconn : s.connected = true) (b : Bool) :
    (s.storeCurrentOffset cfg b).persistCursorTask = s.persistCursorTask.scheduleAfter := by
  unfold State.storeCurrentOffset
  by_cases hpos : 0 < s.cursor.sinceLastPersist
  · rw [if_pos hpos]
    have hclient : s.client ≠ none := by
      simp only [State.connected, decide_eq_true_eq] at hconn
      exact hconn.resolve_left (Nat.ne_of_gt hpos)
    cases hlast : s.cursor.lastSeen with
    | none => exact absurd hlast (hseen hpos)
    | some o => simp only [internalStoreOffset_persistCursorTask hcfg, if_pos hclient]
  · rw [if_neg hpos]
    exact armPersist_persistCursorTask hcfg s

theorem PersistInv.persistAlive {s : State} (h : PersistInv s) (hconn : s.connected = true) :
    s.PersistAlive cfg := by
  intro hstarted
  refine (h.armed (.inr hstarted)).imp_right fun hp => ⟨hp, fun b t ht => ?_⟩
  simp only [step] at ht
  split at ht <;> cases ht
  show (s.storeCurrentOffset cfg b).persistCursorTask.returned.Scheduled
  rw [storeCurrentOffset_persistCursorTask hcfg h.seen hconn b]
  exact h.alive.scheduled_scheduleAfter.returned

/-- `internal_store_offset` keeps the task alive and scheduled. -/
theorem alive_internalStoreOffset {s : State} (h : s.persistCursorTask.Alive) (o : ℕ) (b : Bool) :
    (s.internalStoreOffset cfg o b).persistCursorTask.Alive ∧
      (s.persistCursorTask.Scheduled →
        (s.internalStoreOffset cfg o b).persistCursorTask.Scheduled) := by
  rw [internalStoreOffset_persistCursorTask hcfg]
  split
  · exact ⟨h.scheduleAfter, fun _ => h.scheduled_scheduleAfter⟩
  · exact ⟨h, id⟩

theorem persistInv_step {s t : State} {a : Act} (hs : PersistInv s)
    (hok : unstopped a = true ∧ connected s a = true) (h : step cfg s a = some t) :
    PersistInv t := by
  have hseen := seen_step hs.seen h
  by_cases ha : a.persists = false
  · obtain ⟨htask, hpersisting, hstops⟩ := (leaves_of_step h).persist ha
    have hne : a ≠ .startArm := by
      rintro rfl
      cases ha
    refine ⟨htask ▸ hs.alive, hseen, hstops ▸ hs.unstopped, fun ht => ?_⟩
    rw [htask, hpersisting]
    exact hs.armed (armed_of_step h hne ht)
  have harmed := armed_of_step h
  have hidle := hs.unstopped
  cases a <;> simp only [Act.persists, not_true_eq_false] at ha <;> simp only [step] at h
  case startArm =>
    split at h <;> cases h
    have htask := armPersist_persistCursorTask hcfg s
    refine ⟨?_, hseen, by simpa using hidle, fun _ => .inl ?_⟩
    · exact htask ▸ hs.alive.scheduleAfter
    · exact htask ▸ hs.alive.scheduled_scheduleAfter
  case storeHandled c b =>
    split at h
    · rename_i o hpc
      by_cases hfreq : cfg.frequent s.cursor.sinceLastPersist = true
      · rw [if_pos hfreq] at h
        split at h <;> cases h
        obtain ⟨halive, hsch⟩ := alive_internalStoreOffset hcfg hs.alive o b
        refine ⟨halive, hseen, by simpa using hidle, fun ht => ?_⟩
        exact (hs.armed (harmed (by simp) ht)).imp hsch fun hp => by simpa using hp
      · rw [if_neg hfreq] at h
        split at h <;> cases h
        exact ⟨hs.alive, hseen, hidle, fun ht => hs.armed (harmed (by simp) ht)⟩
    · cases h
  case storeOffset o b =>
    split at h <;> cases h
    obtain ⟨halive, hsch⟩ := alive_internalStoreOffset hcfg hs.alive o b
    refine ⟨halive, hseen, by simpa using hidle, fun ht => ?_⟩
    exact (hs.armed (harmed (by simp) ht)).imp hsch fun hp => by simpa using hp
  case tickPersist e =>
    obtain ⟨u, hu, rfl⟩ := Option.map_eq_some_iff.1 h
    refine ⟨hs.alive.tick hu, hseen, hidle, fun ht => ?_⟩
    exact (hs.armed (harmed (by simp) ht)).imp_left fun hsch => hsch.tick hs.alive hu
  case persist =>
    split at h
    · obtain ⟨u, hu, rfl⟩ := Option.map_eq_some_iff.1 h
      exact ⟨hs.alive.enter hu, hseen, hidle, fun _ => .inr rfl⟩
    · cases h
  case persistStore b =>
    split at h <;> cases h
    have htask := storeCurrentOffset_persistCursorTask hcfg hs.seen hok.2 b
    refine ⟨?_, hseen, by simpa using hidle, fun _ => .inl ?_⟩
    · show (s.storeCurrentOffset cfg b).persistCursorTask.returned.Alive
      rw [htask]
      exact hs.alive.scheduleAfter.returned
    · show (s.storeCurrentOffset cfg b).persistCursorTask.returned.Scheduled
      rw [htask]
      exact hs.alive.scheduled_scheduleAfter.returned
  case stop k => cases hok.1
  all_goals simp [hidle, State.destroyed] at h

end

/-- **The persist task never dies**, at the end of every run without a stop in which
`store_current_offset` never finds unpersisted messages and no client: it has an invocation to come or
is running, and in the latter case arms its timer again, unless there are unpersisted messages and no
client now. -/
theorem persistAlive_of_run {cfg : Config} (hcfg : cfg.persists = true) {s t : State} {as : List Act}
    (h0 : (machine cfg).Init s)
    (hok : (machine cfg).Along (fun s a => unstopped a = true ∧ connected s a = true) s as)
    (h : (machine cfg).run s as = some t) :
    (t.status = .started → t.persistCursorTask.Scheduled ∨ t.persisting = true) ∧
      (t.connected = true → t.PersistAlive cfg) := by
  have hinit : ∀ {s}, (machine cfg).Init s → PersistInv s := by
    rintro s rfl
    exact persistInv_initial cfg
  have hinv : PersistInv t := Machine.invariant_along hinit (persistInv_step hcfg) h0 hok h
  exact ⟨fun hstarted => hinv.armed (.inr hstarted), fun hconn => hinv.persistAlive hcfg hconn⟩

/-- The theorem at a run in which the task runs with nothing to persist and no client. -/
theorem persistAlive_of_disconnected :
    ∃ t, (machine delayedCursor).run (initial delayedCursor)
        (started ++ [Act.shutdown 0, .shutdownHandle 0] ++ persistTimer ++ [Act.persistStore true]) =
        some t ∧ t.status = .started ∧ t.connected = true ∧ t.PersistAlive delayedCursor := by
  have hok : (machine delayedCursor).checkAlong
      (fun s a => unstopped a = true ∧ connected s a = true) (initial delayedCursor)
      (started ++ [Act.shutdown 0, .shutdownHandle 0] ++ persistTimer ++ [Act.persistStore true]) =
        true := rfl
  exact ⟨_, rfl, rfl, rfl, (persistAlive_of_run rfl rfl (Machine.along_of_check hok) rfl).2 rfl⟩

/-- **The persist task dies**: its timer fires between the loss of the connection and the
reconnection, with a message to persist. -/
theorem persist_dies_disconnected :
    ¬∀ (cfg : Config) (s t : State) (as : List Act), cfg.persists = true → (machine cfg).Init s →
      (machine cfg).Along (fun _ a => unstopped a = true) s as →
      (machine cfg).run s as = some t → t.PersistAlive cfg := by
  intro h
  have hok : (machine delayedCursor).checkAlong (fun _ a => unstopped a = true)
      (initial delayedCursor)
      (started ++ [Act.deliver 0 0, .accept 0, .hand 0, .handled 0, .shutdown 0, .shutdownHandle 0] ++
        persistTimer ++ [Act.persistStore true, .tickPersist .rest]) = true := rfl
  obtain hsch | ⟨hp, -⟩ := h delayedCursor _ _ _ rfl rfl (Machine.along_of_check hok) rfl rfl
  · revert hsch
    decide
  · cases hp

end Hareflow.Consumer
