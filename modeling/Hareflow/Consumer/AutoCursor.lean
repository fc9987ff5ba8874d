import Hareflow.Consumer.Optionals
import Hareflow.Consumer.Persistence
import Hareflow.Foundations.Checkpoint

/-!
# The automatic cursor

The cursor of a consumer with an automatic cursor configuration is stored from three threads: the
frame thread, when `persist_frequency` messages are unpersisted; the persist task; and the one that
stops the consumer. `m_messages_since_last_persist` is to say how many messages the broker does not
know of.

The calls of `handle_message` are taken to have increasing offsets, and the user not to store
(`Increasing`).

* `journal` is the log of the accepted messages and of the successful stores. The count is the number
  of pending messages (`Counted`) until the consumer is stopped: `internal_stop` stores the last offset
  and does not reset the count. `Closing` is the invariant of the one call of `internal_stop` that may
  store.
* If a call of `handle_message` begins only when no other is running (`Separate`), the journal is
  orderly, and so the stored offsets increase, and the count is below the frequency when a call
  returns. `Paced` is the invariant of the one call that may run.
* The consumer does not see to that itself. `delayed_reconnect` gives up its client and waits for the
  frame thread outside the mutex, and a reconnection may subscribe with the next client before the call
  on the old one is over (`overlap`). Then the stored offsets may go back, and a call may return with
  too many messages pending.
-/

namespace Hareflow.Consumer

open Foundations

/-! ## One call at a time -/

variable {cfg : Config} {s t : State}

/-- `handle_message` is called with an offset past the last one, and the user does not store offsets. -/
def Increasing (s : State) : Act → Prop
  | .deliver _ o => ∀ l ∈ s.cursor.lastSeen, l < o
  | .storeOffset _ _ => False
  | _ => True

/-- `handle_message` is called when no call of it is running. -/
def Separate (s : State) : Act → Prop
  | .deliver _ _ => ∀ c, s.feed.messages c = .idle
  | _ => True

/-- The calls of `handle_message` come one after the other, with increasing offsets. -/
def InOrder (s : State) (a : Act) : Prop := Increasing s a ∧ Separate s a

/-- What the cursor says about a call of `handle_message` that is running: its message comes next or
was the last, and it is to store unless it has found that the messages are too few. -/
def Cursor.Fits (cfg : Config) (cur : Cursor) : MessagePc → Prop
  | .idle => True
  | .entered o => ∀ l ∈ cur.lastSeen, l < o
  | .accepted o store | .handling o store =>
    cur.lastSeen = some o ∧ (store = false → cfg.frequent cur.sinceLastPersist = false)
  | .storing o => cur.lastSeen = some o

/-- The invariant of the runs in which the calls come in order. -/
structure Paced (cfg : Config) (s : State) : Prop where
  alone : ∀ c c', s.feed.messages c ≠ .idle → s.feed.messages c' ≠ .idle → c = c'
  fits : ∀ c, s.cursor.Fits cfg (s.feed.messages c)
  /-- A message after the last one is not skipped. -/
  resumed : ∀ k l, s.cursor.initialOffset = some (.offset k) → s.cursor.lastSeen = some l → k ≤ l + 1
  early : s.start.early = true → s.cursor.lastSeen = none

theorem paced_initial (cfg : Config) : Paced cfg (initial cfg) :=
  ⟨fun _ _ h => absurd rfl h, fun _ => trivial, nofun, fun _ => rfl⟩

theorem frequent_zero (cfg : Config) : cfg.frequent 0 = false := by
  unfold Config.frequent
  split
  · rw [decide_eq_false_iff_not]
    omega
  · rfl

theorem Cursor.Fits.congr {cur cur' : Cursor} {pc : MessagePc} (h : cur.Fits cfg pc)
    (hlast : cur'.lastSeen = cur.lastSeen) (hsince : cur'.sinceLastPersist = cur.sinceLastPersist) :
    cur'.Fits cfg pc := by
  cases pc with
  | idle => trivial
  | _ => simpa only [Cursor.Fits, hlast, hsince] using h

theorem Cursor.Fits.stored {cur : Cursor} {pc : MessagePc} (h : cur.Fits cfg pc) (ok : Bool) :
    (cur.stored ok).Fits cfg pc := by
  cases ok with
  | false => exact h
  | true =>
    cases pc with
    | accepted o store => exact ⟨h.1, fun _ => frequent_zero cfg⟩
    | handling o store => exact ⟨h.1, fun _ => frequent_zero cfg⟩
    | _ => exact h

/-- The cursor has moved; the calls of `handle_message` have not. -/
theorem Paced.setCursor (hs : Paced cfg s) (hmoves : StartMoves s t)
    (hmsgs : t.feed.messages = s.feed.messages) (hlast : t.cursor.lastSeen = s.cursor.lastSeen)
    (hfits : ∀ pc, s.cursor.Fits cfg pc → t.cursor.Fits cfg pc)
    (hresumed : ∀ k l, t.cursor.initialOffset = some (.offset k) → t.cursor.lastSeen = some l →
      k ≤ l + 1) : Paced cfg t := by
  refine ⟨hmsgs ▸ hs.alone, fun c => ?_, hresumed, fun h => ?_⟩
  · rw [hmsgs]
    exact hfits _ (hs.fits c)
  · exact hlast.trans (hs.early (hmoves.early h))

/-- The one call of `handle_message` that runs moves on, or a call begins. -/
theorem Paced.of_alone {c : ℕ} {pc : MessagePc}
    (hothers : ∀ c', c' ≠ c → s.feed.messages c' = .idle)
    (hmsgs : t.feed.messages = Function.update s.feed.messages c pc) (hfits : t.cursor.Fits cfg pc)
    (hresumed : ∀ k l, t.cursor.initialOffset = some (.offset k) → t.cursor.lastSeen = some l →
      k ≤ l + 1) (hearly : t.start.early = true → t.cursor.lastSeen = none) : Paced cfg t := by
  have hidle : ∀ c', c' ≠ c → t.feed.messages c' = .idle := by
    intro c' hc'
    rw [hmsgs, Function.update_of_ne hc']
    exact hothers c' hc'
  have honly : ∀ c', t.feed.messages c' ≠ .idle → c' = c := by
    intro c' hc'
    by_contra hne
    exact hc' (hidle c' hne)
  refine ⟨fun c₁ c₂ h₁ h₂ => (honly c₁ h₁).trans (honly c₂ h₂).symm, fun c' => ?_, hresumed, hearly⟩
  by_cases hc' : c' = c
  · subst hc'
    rw [hmsgs, Function.update_self]
    exact hfits
  · rw [hidle c' hc']
    trivial

theorem Paced.others (hs : Paced cfg s) {c : ℕ} (hpc : s.feed.messages c ≠ .idle) (c' : ℕ)
    (hc' : c' ≠ c) : s.feed.messages c' = .idle := by
  by_contra h
  exact hc' (hs.alone c' c h hpc)

/-- The offset to resume at is not past the one after the last. -/
theorem Cursor.resume_le {cur : Cursor} {k l : ℕ} (hk : cur.resume.initialOffset = some (.offset k))
    (hl : cur.lastSeen = some l) : k ≤ l + 1 := by
  simp only [Cursor.resume, hl, Option.some.injEq, OffsetSpecification.offset.injEq] at hk
  rw [← hk]
  exact Nat.mod_le _ _

/-- A call that runs moves on, and the offsets of the cursor stay as they are. -/
theorem Paced.advance (hs : Paced cfg s) (hmoves : StartMoves s t) {c : ℕ} {pc : MessagePc}
    (hpc : s.feed.messages c ≠ .idle)
    (hmsgs : t.feed.messages = Function.update s.feed.messages c pc)
    (hcur : t.cursor.lastSeen = s.cursor.lastSeen ∧
      t.cursor.initialOffset = s.cursor.initialOffset) (hfits : t.cursor.Fits cfg pc) :
    Paced cfg t := by
  refine .of_alone (hs.others hpc) hmsgs hfits ?_ fun h => ?_
  · rw [hcur.1, hcur.2]
    exact hs.resumed
  · exact hcur.1.trans (hs.early (hmoves.early h))

/-- The cursor and the calls of `handle_message` are left alone. -/
theorem Paced.still (hs : Paced cfg s) (hmoves : StartMoves s t) (hcur : t.cursor = s.cursor)
    (hmsgs : t.feed.messages = s.feed.messages) : Paced cfg t :=
  hs.setCursor hmoves hmsgs (by rw [hcur]) (by rw [hcur]; exact fun _ => id)
    (by rw [hcur]; exact hs.resumed)

theorem Paced.resume (hs : Paced cfg s) (hmoves : StartMoves s t)
    (hcur : t.cursor = s.cursor.resume) (hmsgs : t.feed.messages = s.feed.messages) :
    Paced cfg t := by
  have hlast : t.cursor.lastSeen = s.cursor.lastSeen := hcur ▸ s.cursor.resume_lastSeen
  refine hs.setCursor hmoves hmsgs hlast (fun pc hpc => hpc.congr hlast ?_) fun k l hk hl => ?_
  · rw [hcur, Cursor.resume_sinceLastPersist]
  · exact Cursor.resume_le (hcur ▸ hk) (hlast.symm.trans hl)

theorem paced_step {a : Act} (hs : Paced cfg s) (he : Engaged cfg s) (hord : InOrder s a)
    (h : step cfg s a = some t) : Paced cfg t := by
  have hmoves := startMoves_of_step h
  cases progress_of_step h with
  | still hcur hfeed hsto => exact hs.still hmoves hcur (by rw [hfeed])
  | query hpc hcur hfeed hsto =>
    refine hs.setCursor hmoves (by rw [hfeed]) (by rw [hcur]) ?_ fun k l _ hl => ?_
    · rw [hcur]
      exact fun pc hpc => hpc.congr rfl rfl
    · rw [hcur] at hl
      cases (hs.early (by rw [hpc]; rfl)).symm.trans hl
  | subscribe ha hpc hpc' hasked hcur hfeed hsto => exact hs.still hmoves hcur (by rw [hfeed]; rfl)
  | resume hstarted hcur hfeed hsto => exact hs.resume hmoves hcur (by rw [hfeed])
  | resubscribe ha hstarted hasked hcur hfeed hsto => exact hs.resume hmoves hcur (by rw [hfeed]; rfl)
  | deliver hpc hsub hcur hfeed hsto =>
    refine .of_alone (fun c' _ => hord.2 c') (congrArg Feed.messages hfeed) ?_ ?_ fun h => ?_
    · rw [hcur]
      exact hord.1
    · rw [hcur]
      exact hs.resumed
    · rw [hcur]
      exact hs.early (hmoves.early h)
  | skip hpc hskip hcur hfeed hsto =>
    exact hs.advance hmoves (by simp [hpc]) (congrArg Feed.messages hfeed) (by simp [hcur]) trivial
  | @accept c o hpc hfree hskip hcur hfeed hsto =>
    have hlate := late_of_unlocked (he.opened_of_message (c := c) (by simp [hpc])) hfree
    refine .of_alone (hs.others (by simp [hpc])) (congrArg Feed.messages hfeed) ?_ ?_ fun h => ?_
    · rw [hcur]
      exact ⟨rfl, id⟩
    · rw [hcur]
      exact nofun
    · rw [hmoves.early h] at hlate
      cases hlate
  | @hand c o store hpc hcur hfeed hsto =>
    have hfits := hs.fits c
    rw [hpc] at hfits
    refine hs.advance hmoves (by simp [hpc]) (congrArg Feed.messages hfeed) (by simp [hcur]) ?_
    rw [hcur]
    exact hfits
  | @handled c o store hpc hcur hfeed hsto =>
    have hfits := hs.fits c
    rw [hpc] at hfits
    refine hs.advance hmoves (by simp [hpc]) (congrArg Feed.messages hfeed) (by simp [hcur]) ?_
    rw [hcur]
    cases store with
    | false => trivial
    | true => exact hfits.1
  | threw hpc hcur hfeed hsto =>
    exact hs.advance hmoves (by simp [hpc]) (congrArg Feed.messages hfeed) (by simp [hcur]) trivial
  | leave hpc hwhy hcur hfeed hsto =>
    exact hs.advance hmoves (by simp [hpc]) (congrArg Feed.messages hfeed) (by simp [hcur]) trivial
  | storeHandled hpc hfreq hclient hcur hfeed hsto =>
    exact hs.advance hmoves (by simp [hpc]) (congrArg Feed.messages hfeed) (by simp [hcur]) trivial
  | storeOffset hcur hfeed hsto => exact hord.1.elim
  | persist hlast hpos hnamed hclient hcur hfeed hsto =>
    refine hs.setCursor hmoves (by rw [hfeed]) (by simp [hcur]) ?_ ?_
    · rw [hcur]
      exact fun pc hpc => hpc.stored _
    · simpa [hcur] using hs.resumed
  | stopStore hpc hstops hconf hlast hpos hcur hfeed hsto =>
    exact hs.still hmoves hcur (by rw [hfeed])

/-- A call of `handle_message` that returns at a step has moved at it. -/
theorem returns_update {f : ℕ → MessagePc} {c c' : ℕ} {pc : MessagePc} (hc : f c ≠ .idle)
    (h : Function.update f c' pc c = .idle) : c = c' ∧ pc = .idle := by
  by_cases hcc : c = c'
  · subst hcc
    exact ⟨rfl, by simpa using h⟩
  · rw [Function.update_of_ne hcc] at h
    exact absurd h hc

/-- A message is skipped only before the first that is accepted. -/
theorem Paced.lastSeen_of_skips (hs : Paced cfg s) {c o : ℕ} (hpc : s.feed.messages c = .entered o)
    (hskip : s.cursor.skips o = true) : s.cursor.lastSeen = none := by
  have hfits := hs.fits c
  rw [hpc] at hfits
  cases hlast : s.cursor.lastSeen with
  | none => rfl
  | some l =>
    have hlt : l < o := hfits l hlast
    unfold Cursor.skips at hskip
    split at hskip
    · rename_i k hk
      have hle := hs.resumed k l hk hlast
      simp only [decide_eq_true_eq] at hskip
      omega
    · cases hskip

/-- When `handle_message` returns, the messages are too few to store, if it has found a client whose
`store_offset` succeeds where it was to store. -/
theorem Paced.rare_of_return {a : Act} (hs : Paced cfg s) (hseen : s.cursor.Seen) {c : ℕ}
    (hc : s.feed.messages c ≠ .idle) (h : step cfg s a = some t) (hret : t.feed.messages c = .idle)
    (hreturns : a ≠ .handlerThrow c)
    (hconn : ∀ ok, a = .storeHandled c ok → s.client ≠ none ∧ ok = true) :
    cfg.frequent t.cursor.sinceLastPersist = false := by
  have hsame (hmsgs : t.feed.messages = s.feed.messages) :
      cfg.frequent t.cursor.sinceLastPersist = false := absurd (hmsgs ▸ hret) hc
  have hmoved {c' : ℕ} {pc : MessagePc}
      (hmsgs : t.feed.messages = Function.update s.feed.messages c' pc) : c = c' ∧ pc = .idle :=
    returns_update hc (hmsgs ▸ hret)
  cases progress_of_step h with
  | still hcur hfeed hsto => exact hsame (by rw [hfeed])
  | query hpc hcur hfeed hsto => exact hsame (by rw [hfeed])
  | subscribe ha hpc hpc' hasked hcur hfeed hsto => exact hsame (by rw [hfeed]; rfl)
  | resume hstarted hcur hfeed hsto => exact hsame (by rw [hfeed])
  | resubscribe ha hstarted hasked hcur hfeed hsto => exact hsame (by rw [hfeed]; rfl)
  | deliver hpc hsub hcur hfeed hsto => cases (hmoved (congrArg Feed.messages hfeed)).2
  | skip hpc hskip hcur hfeed hsto =>
    have hlast := hs.lastSeen_of_skips hpc hskip
    have hzero : s.cursor.sinceLastPersist = 0 := by
      by_contra hne
      exact hseen (Nat.pos_of_ne_zero hne) hlast
    rw [hcur, hzero]
    exact frequent_zero cfg
  | accept hpc hfree hskip hcur hfeed hsto => cases (hmoved (congrArg Feed.messages hfeed)).2
  | hand hpc hcur hfeed hsto => cases (hmoved (congrArg Feed.messages hfeed)).2
  | @handled c' o store hpc hcur hfeed hsto =>
    have hfits := hs.fits c'
    rw [hpc] at hfits
    rw [hcur]
    cases store with
    | false => exact hfits.2 rfl
    | true => cases (hmoved (congrArg Feed.messages hfeed)).2
  | threw hpc hcur hfeed hsto =>
    obtain ⟨rfl, -⟩ := hmoved (congrArg Feed.messages hfeed)
    exact absurd rfl hreturns
  | @leave c' o ok hpc hwhy hcur hfeed hsto =>
    obtain ⟨rfl, -⟩ := hmoved (congrArg Feed.messages hfeed)
    rw [hcur, ← Bool.not_eq_true]
    exact fun hfreq => (hconn ok rfl).1 (hwhy hfreq)
  | @storeHandled c' o ok hpc hfreq hclient hcur hfeed hsto =>
    obtain ⟨rfl, -⟩ := hmoved (congrArg Feed.messages hfeed)
    obtain rfl := (hconn ok rfl).2
    rw [hcur]
    exact frequent_zero cfg
  | storeOffset hcur hfeed hsto => exact hsame (by rw [hfeed])
  | persist hlast hpos hnamed hclient hcur hfeed hsto => exact hsame (by rw [hfeed])
  | stopStore hpc hstops hconf hlast hpos hcur hfeed hsto => exact hsame (by rw [hfeed])

/-! ## The consumer is stopped once -/

/-- The call of `internal_stop` is the one that has changed the status, and has not stored. -/
def StopPc.closes : StopPc → Bool
  | .taking | .storing _ => true
  | _ => false

/-- The consumer is stopped and will have no client again. -/
structure State.Sealed (s : State) : Prop where
  status : s.status = .stopped
  client : s.client = none
  opened : s.start.opened = true

/-- One call of `internal_stop` closes the consumer. -/
structure Closing (s : State) : Prop where
  running : s.status ≠ .stopped → ∀ k, (s.stops k).closes = false
  alone : ∀ k k', (s.stops k).closes = true → (s.stops k').closes = true → k = k'
  owned : s.client ≠ none → s.start.opened = true
  taken : ∀ k c, s.stops k = .storing c → s.Sealed

theorem closing_initial (cfg : Config) : Closing (initial cfg) :=
  ⟨fun _ _ => rfl, nofun, fun h => absurd rfl h, nofun⟩

theorem subscribe_client (s : State) (c : ℕ) : (s.subscribe c).client = s.client := by
  unfold State.subscribe
  split <;> rfl

theorem armPersist_client (cfg : Config) (s : State) : (s.armPersist cfg).client = s.client := by
  unfold State.armPersist
  split <;> rfl

theorem destroyNext_client (s : State) (pc : StopPc) :
    (s.destroyNext pc).1.client = s.client := by
  cases pc <;> rfl

theorem destroyNext_closes (s : State) (pc : StopPc) : (s.destroyNext pc).2.closes = false := by
  cases pc <;> rfl

/-- Only `start()`, with its first client, and `reconnect_to_server` of a started consumer store a
client. -/
theorem client_of_step {a : Act} (h : step cfg s a = some t) :
    t.client = none ∨ t.client = s.client ∨ (s.start = .entered ∧ t.start.opened = true) ∨
      s.status = .started := by
  by_cases ha : a.recovers = false
  · exact .inr (.inl (congrArg Recovery.client (step_recovery_frame h ha)))
  cases a <;> simp only [Act.recovers, not_true_eq_false] at ha <;> simp only [step] at h
  case startStore =>
    split at h <;> cases h
    rename_i hpc
    exact .inr (.inr (.inl ⟨hpc, rfl⟩))
  case startSubscribe =>
    split at h <;> cases h
    exact .inr (.inl (subscribe_client s _))
  case startThrow subscribed =>
    cases subscribed <;> (split at h <;> cases h) <;> exact .inr (.inl (by simp [subscribe_client]))
  case startArm =>
    split at h <;> cases h
    exact .inr (.inl (armPersist_client cfg s))
  case reconnectSubscribe =>
    (repeat' split at h) <;> cases h
    · rename_i hstarted
      exact .inr (.inr (.inr hstarted))
    · exact .inr (.inl rfl)
  case reconnectRefuse subscribed deleted =>
    cases subscribed <;> ((repeat' split at h) <;> cases h) <;>
      exact .inr (.inl (by simp [subscribe_client]))
  case stopDestroyed k =>
    split at h <;> cases h
    exact .inr (.inl (destroyNext_client s _))
  case stop k =>
    cases k <;> simp only at h <;> split at h
    · cases h
      exact .inr (.inl rfl)
    · cases h
    · obtain ⟨u, hu, rfl⟩ := Option.map_eq_some_iff.1 h
      exact .inr (.inl rfl)
    · cases h
  all_goals
    (repeat' split at h) <;> first
    | (cases h; done)
    | (cases h; first | exact .inr (.inl rfl) | exact .inl rfl)
    | (obtain ⟨u, hu, rfl⟩ := Option.map_eq_some_iff.1 h
       exact .inr (.inl rfl))

/-- One call of `internal_stop` moves at a time. It comes to close the consumer by the exchange of the
status, and to store with the client that it has taken. -/
theorem stops_of_step {a : Act} (h : step cfg s a = some t) :
    t.stops = s.stops ∨ ∃ k pc, t.stops = Function.update s.stops k pc ∧
      (pc.closes = false ∨ pc = .taking ∧ s.status ≠ .stopped ∧ t.status = .stopped ∨
        ∃ c, pc = .storing c ∧ s.stops k = .taking ∧ s.client = some c ∧ t.client = none) := by
  cases stopMoves_of_step h with
  | still hstops => exact .inl hstops
  | call hpc hpc' hstops =>
    refine .inr ⟨_, _, hstops, .inl ?_⟩
    obtain rfl | rfl := hpc' <;> rfl
  | destroyed hstops => exact .inr ⟨_, _, hstops, .inl (destroyNext_closes s _)⟩
  | exchange hstatus hstops =>
    refine .inr ⟨_, _, hstops, ?_⟩
    split
    · exact .inl rfl
    · rename_i hrunning
      exact .inr (.inl ⟨rfl, hrunning, hstatus⟩)
  | take hpc hclient hpc' hstops =>
    refine .inr ⟨_, _, hstops, ?_⟩
    obtain ⟨-, rfl⟩ | ⟨c, hc, rfl⟩ := hpc'
    · exact .inl rfl
    · exact .inr (.inr ⟨c, rfl, hpc, hc, hclient⟩)
  | store hpc hstops => exact .inr ⟨_, _, hstops, .inl rfl⟩
  | finish hpc hstops => exact .inr ⟨_, _, hstops, .inl rfl⟩

theorem sealed_step {a : Act} (hs : s.Sealed) (h : step cfg s a = some t) : t.Sealed := by
  refine ⟨(startMoves_of_step h).stopped hs.status, ?_, (startMoves_of_step h).opened hs.opened⟩
  obtain hc | hc | ⟨hpc, -⟩ | hstarted := client_of_step h
  · exact hc
  · exact hc.trans hs.client
  · have hopened := hs.opened
    rw [hpc] at hopened
    cases hopened
  · cases hstarted.symm.trans hs.status

theorem closing_step {a : Act} (hs : Closing s) (he : Engaged cfg s) (h : step cfg s a = some t) :
    Closing t := by
  have hmoves := startMoves_of_step h
  have howned : t.client ≠ none → t.start.opened = true := by
    intro hc
    obtain hnone | hsame | ⟨-, hopened⟩ | hstarted := client_of_step h
    · exact absurd hnone hc
    · exact hmoves.opened (hs.owned (hsame ▸ hc))
    · exact hopened
    · exact hmoves.opened (he.opened_of_started hstarted)
  have hrunning : t.status ≠ .stopped → ∀ k, (s.stops k).closes = false := fun ht =>
    hs.running fun hst => ht (hmoves.stopped hst)
  obtain hsame | ⟨k, pc, hstops, hpc⟩ := stops_of_step h
  · rw [← hsame] at hrunning
    refine ⟨hrunning, hsame ▸ hs.alone, howned, fun k c hk => ?_⟩
    exact sealed_step (hs.taken k c (hsame ▸ hk)) h
  · have hother : ∀ k', k' ≠ k → t.stops k' = s.stops k' := fun k' hk' => by
      rw [hstops, Function.update_of_ne hk']
    have hself : t.stops k = pc := by rw [hstops, Function.update_self]
    have hstoring : ∀ k' c, k' ≠ k → t.stops k' = .storing c → t.Sealed := fun k' c hk' ht =>
      sealed_step (hs.taken k' c (hother k' hk' ▸ ht)) h
    obtain hpc | ⟨rfl, hrun, hstopped⟩ | ⟨c, rfl, htaking, hclient, hnone⟩ := hpc
    · have hne : ∀ k', (t.stops k').closes = true → k' ≠ k := by
        rintro k' hk' rfl
        rw [hself, hpc] at hk'
        cases hk'
      refine ⟨fun ht k' => ?_, fun k₁ k₂ h₁ h₂ => ?_, howned, fun k' c ht => ?_⟩
      · by_cases hk' : k' = k
        · rw [hk', hself, hpc]
        · rw [hother k' hk']
          exact hrunning ht k'
      · exact hs.alone k₁ k₂ (hother k₁ (hne k₁ h₁) ▸ h₁) (hother k₂ (hne k₂ h₂) ▸ h₂)
      · exact hstoring k' c (hne k' (by rw [ht]; rfl)) ht
    · have honly : ∀ k', (t.stops k').closes = true → k' = k := by
        intro k' hk'
        by_contra hne
        rw [hother k' hne, hs.running hrun k'] at hk'
        cases hk'
      refine ⟨fun ht => absurd hstopped ht, fun k₁ k₂ h₁ h₂ => ?_, howned, fun k' c ht => ?_⟩
      · exact (honly k₁ h₁).trans (honly k₂ h₂).symm
      · obtain rfl := honly k' (by rw [ht]; rfl)
        cases hself.symm.trans ht
    · have htakes : (s.stops k).closes = true := by rw [htaking]; rfl
      have hstopped : s.status = .stopped := by
        by_contra hrun
        rw [hs.running hrun k] at htakes
        cases htakes
      have honly : ∀ k', (t.stops k').closes = true → k' = k := by
        intro k' hk'
        by_contra hne
        exact hne (hs.alone k' k (hother k' hne ▸ hk') htakes)
      refine ⟨fun ht => absurd (hmoves.stopped hstopped) ht, fun k₁ k₂ h₁ h₂ => ?_, howned,
        fun _ _ _ => ⟨hmoves.stopped hstopped, hnone, ?_⟩⟩
      · exact (honly k₁ h₁).trans (honly k₂ h₂).symm
      · exact hmoves.opened (hs.owned (by simp [hclient]))

/-! ## The journal -/

/-- The successful stores. -/
def State.persisted (s : State) : List ℕ := (s.stores.filter (·.2)).map (·.1)

/-- The step is the store of `internal_stop`. -/
def Act.stores : Act → Bool
  | .stopStore _ _ => true
  | _ => false

/-- The offsets that a step has accepted, and those that it has stored with success. A mark is
labelled with whether it is that of `internal_stop`. -/
def notes (s : State) (a : Act) (t : State) : List (Note ℕ Bool) :=
  (t.feed.accepted.drop s.feed.accepted.length).map .item ++
    ((t.stores.drop s.stores.length).filter (·.2)).map fun p => .mark p.1 a.stores

/-- The accepted messages and the successful stores of a run. -/
def journal (cfg : Config) (as : List Act) : List (Note ℕ Bool) :=
  (machine cfg).record notes (initial cfg) as

theorem notes_still {a : Act} (hacc : t.feed.accepted = s.feed.accepted)
    (hsto : t.stores = s.stores) : notes s a t = [] := by
  simp [notes, hacc, hsto]

theorem notes_accept {a : Act} {o : ℕ} (hacc : t.feed.accepted = s.feed.accepted ++ [o])
    (hsto : t.stores = s.stores) : notes s a t = [.item o] := by
  simp [notes, hacc, hsto]

theorem notes_store {a : Act} {o : ℕ} {ok : Bool} (hacc : t.feed.accepted = s.feed.accepted)
    (hsto : t.stores = s.stores ++ [(o, ok)]) :
    notes s a t = if ok then [.mark o a.stores] else [] := by
  cases ok <;> simp [notes, hacc, hsto]

theorem persisted_store {o : ℕ} {ok : Bool} (hsto : t.stores = s.stores ++ [(o, ok)]) :
    t.persisted = if ok then s.persisted ++ [o] else s.persisted := by
  cases ok <;> simp [State.persisted, hsto]

/-- The journal tells the successful stores. The count is the number of pending messages, in 32 bits, and
more than it once `internal_stop` has stored. -/
structure Counted (s : State) (l : List (Note ℕ Bool)) : Prop where
  persisted : s.persisted = Note.marks l
  sealed : Note.MarkedBy l true → s.Sealed ∧ ∀ k, (s.stops k).closes = false
  count : ∃ extra < 2 ^ 32, s.cursor.sinceLastPersist = (extra + Note.pending l) % 2 ^ 32 ∧
    (0 < extra ↔ Note.MarkedBy l true)

theorem counted_initial (cfg : Config) : Counted (initial cfg) [] :=
  ⟨rfl, by simp, 0, by decide, rfl, by simp⟩

/-- Once `internal_stop` has stored, no call of it stores again. -/
theorem closed_step {a : Act} (hs : s.Sealed ∧ ∀ k, (s.stops k).closes = false)
    (h : step cfg s a = some t) : t.Sealed ∧ ∀ k, (t.stops k).closes = false := by
  refine ⟨sealed_step hs.1 h, fun k' => ?_⟩
  obtain hsame | ⟨k, pc, hstops, hpc⟩ := stops_of_step h
  · rw [hsame]
    exact hs.2 k'
  · have hcloses : pc.closes = false := by
      obtain hpc | ⟨-, hrun, -⟩ | ⟨c, -, htaking, -⟩ := hpc
      · exact hpc
      · exact absurd hs.1.status hrun
      · have hk := hs.2 k
        rw [htaking] at hk
        cases hk
    by_cases hk : k' = k
    · rw [hstops, hk, Function.update_self, hcloses]
    · rw [hstops, Function.update_of_ne hk]
      exact hs.2 k'

variable {l : List (Note ℕ Bool)}

/-- A step that accepts nothing and stores nothing. -/
theorem Counted.still {a : Act} (hs : Counted s l) (h : step cfg s a = some t)
    (hsince : t.cursor.sinceLastPersist = s.cursor.sinceLastPersist)
    (hpersisted : t.persisted = s.persisted) : Counted t l :=
  ⟨hpersisted.trans hs.persisted, fun hm => closed_step (hs.sealed hm) h, hsince ▸ hs.count⟩

theorem Counted.accept {a : Act} {o : ℕ} (hs : Counted s l) (h : step cfg s a = some t)
    (hcur : t.cursor = s.cursor.accept o) (hsto : t.stores = s.stores) :
    Counted t (l ++ [.item o]) := by
  obtain ⟨extra, hextra, hcount, hmarked⟩ := hs.count
  refine ⟨?_, fun hm => ?_, extra, hextra, ?_, by simpa⟩
  · rw [Note.marks_item, ← hs.persisted]
    simp [State.persisted, hsto]
  · exact closed_step (hs.sealed (by simpa using hm)) h
  · show t.cursor.sinceLastPersist = _
    rw [hcur, Note.pending_item]
    show (s.cursor.sinceLastPersist + 1) % 2 ^ 32 = _
    omega

/-- A consumer with a client has not been closed by a store of `internal_stop`. -/
theorem Counted.not_marked_of_client (hs : Counted s l) (hclient : s.client ≠ none) :
    ¬Note.MarkedBy l true :=
  fun hm => hclient (hs.sealed hm).1.client

/-- Nor has one whose call of `internal_stop` is to store. -/
theorem Counted.not_marked_of_closes (hs : Counted s l) {k : Stopper}
    (hcloses : (s.stops k).closes = true) : ¬Note.MarkedBy l true := by
  intro hm
  rw [(hs.sealed hm).2 k] at hcloses
  cases hcloses

/-- Where the count is not more than the pending messages, a positive count has one. -/
theorem Counted.pending_pos (hs : Counted s l) (hm : ¬Note.MarkedBy l true)
    (hpos : 0 < s.cursor.sinceLastPersist) : 0 < Note.pending l := by
  obtain ⟨extra, -, hcount, hmarked⟩ := hs.count
  have hzero : extra = 0 := by
    by_contra hne
    exact hm (hmarked.1 (Nat.pos_of_ne_zero hne))
  omega

/-- An offset is stored through the client. -/
theorem Counted.store {a : Act} {o : ℕ} {ok : Bool} (hs : Counted s l) (h : step cfg s a = some t)
    (ha : a.stores = false) (hclient : s.client ≠ none) (hcur : t.cursor = s.cursor.stored ok)
    (hacc : t.feed.accepted = s.feed.accepted) (hsto : t.stores = s.stores ++ [(o, ok)]) :
    Counted t (l ++ notes s a t) := by
  have hm := hs.not_marked_of_client hclient
  have hpersisted := persisted_store hsto
  rw [notes_store hacc hsto, ha]
  cases ok with
  | false =>
    rw [if_neg nofun, List.append_nil]
    exact hs.still h (by rw [hcur]; rfl) hpersisted
  | true =>
    rw [if_pos rfl]
    refine ⟨?_, ?_, 0, by decide, ?_, by simpa⟩
    · rw [hpersisted, Note.marks_mark, hs.persisted]
      rfl
    · exact fun hmark => absurd (by simpa using hmark) hm
    · rw [hcur, Note.pending_mark]
      rfl

/-- `internal_stop` stores the last offset, and the count stays as it is. -/
theorem Counted.stopStore {k : Stopper} {c o : ℕ} {ok : Bool} (hs : Counted s l) (hc : Closing s)
    (h : step cfg s (.stopStore k ok) = some t) (hpc : s.stops k = .storing c)
    (hstops : t.stops = Function.update s.stops k (.stopping c))
    (hpos : 0 < s.cursor.sinceLastPersist) (hcur : t.cursor = s.cursor)
    (hacc : t.feed.accepted = s.feed.accepted) (hsto : t.stores = s.stores ++ [(o, ok)]) :
    Counted t (l ++ notes s (.stopStore k ok) t) := by
  have hcloses : (s.stops k).closes = true := by rw [hpc]; rfl
  have hpersisted := persisted_store hsto
  rw [notes_store hacc hsto]
  cases ok with
  | false =>
    rw [if_neg nofun, List.append_nil]
    exact hs.still h (by rw [hcur]) hpersisted
  | true =>
    rw [if_pos rfl]
    refine ⟨?_, fun _ => ?_, s.cursor.sinceLastPersist, ?_, ?_, ?_⟩
    · rw [hpersisted, Note.marks_mark, hs.persisted]
      rfl
    · refine ⟨sealed_step (hc.taken k c hpc) h, fun k' => ?_⟩
      by_cases hk : k' = k
      · rw [hstops, hk, Function.update_self]
        rfl
      · rw [hstops, Function.update_of_ne hk, ← Bool.not_eq_true]
        exact fun hk' => hk (hc.alone k' k hk' hcloses)
    · obtain ⟨extra, -, hcount, -⟩ := hs.count
      omega
    · obtain ⟨extra, -, hcount, -⟩ := hs.count
      rw [hcur, Note.pending_mark]
      omega
    · exact ⟨fun _ => by simp [Act.stores], fun _ => hpos⟩

theorem counted_step {a : Act} (hs : Counted s l) (hc : Closing s) (hinc : Increasing s a)
    (h : step cfg s a = some t) : Counted t (l ++ notes s a t) := by
  have hstill (hsince : t.cursor.sinceLastPersist = s.cursor.sinceLastPersist)
      (hacc : t.feed.accepted = s.feed.accepted) (hsto : t.stores = s.stores) :
      Counted t (l ++ notes s a t) := by
    rw [notes_still hacc hsto, List.append_nil]
    exact hs.still h hsince (by simp [State.persisted, hsto])
  cases progress_of_step h with
  | still hcur hfeed hsto => exact hstill (by rw [hcur]) (by rw [hfeed]) hsto
  | query hpc hcur hfeed hsto => exact hstill (by rw [hcur]) (by rw [hfeed]) hsto
  | subscribe ha hpc hpc' hasked hcur hfeed hsto =>
    exact hstill (by rw [hcur]) (by rw [hfeed]; rfl) hsto
  | resume hstarted hcur hfeed hsto => exact hstill (by simp [hcur]) (by rw [hfeed]) hsto
  | resubscribe ha hstarted hasked hcur hfeed hsto =>
    exact hstill (by simp [hcur]) (by rw [hfeed]; rfl) hsto
  | accept hpc hfree hskip hcur hfeed hsto =>
    rw [notes_accept (congrArg Feed.accepted hfeed) hsto]
    exact hs.accept h hcur hsto
  | deliver hpc hsub hcur hfeed hsto | skip hpc hskip hcur hfeed hsto | hand hpc hcur hfeed hsto
  | handled hpc hcur hfeed hsto | threw hpc hcur hfeed hsto | leave hpc hwhy hcur hfeed hsto =>
    exact hstill (by rw [hcur]) (by rw [hfeed]; rfl) hsto
  | storeHandled hpc hfreq hclient hcur hfeed hsto =>
    exact hs.store h rfl hclient hcur (by rw [hfeed]; rfl) hsto
  | storeOffset hcur hfeed hsto => exact hinc.elim
  | persist hlast hpos hnamed hclient hcur hfeed hsto =>
    exact hs.store h rfl hclient hcur (by rw [hfeed]) hsto
  | stopStore hpc hstops hconf hlast hpos hcur hfeed hsto =>
    exact hs.stopStore hc h hpc hstops hpos hcur (by rw [hfeed]) hsto

/-- The journal is orderly and tells the last message. -/
structure Kept (s : State) (l : List (Note ℕ Bool)) : Prop where
  orderly : Note.Orderly l
  last : s.cursor.lastSeen = Note.last l

/-- The last offset is stored while something is pending. -/
theorem Kept.mark {a : Act} {o : ℕ} {ok : Bool} (hs : Kept s l) (hpending : 0 < Note.pending l)
    (hlast : s.cursor.lastSeen = some o) (hcur : t.cursor.lastSeen = s.cursor.lastSeen)
    (hacc : t.feed.accepted = s.feed.accepted) (hsto : t.stores = s.stores ++ [(o, ok)]) :
    Kept t (l ++ notes s a t) := by
  rw [notes_store hacc hsto]
  cases ok with
  | false =>
    rw [if_neg nofun, List.append_nil]
    exact ⟨hs.orderly, hcur.trans hs.last⟩
  | true =>
    rw [if_pos rfl]
    refine ⟨hs.orderly.mark _ (hs.last ▸ hlast) hpending, ?_⟩
    rw [hcur, hs.last, Note.last_mark]

theorem kept_step {a : Act} (hs : Kept s l) (hcount : Counted s l) (hp : Paced cfg s)
    (hord : InOrder s a) (h : step cfg s a = some t) : Kept t (l ++ notes s a t) := by
  have hstill (hlast : t.cursor.lastSeen = s.cursor.lastSeen)
      (hacc : t.feed.accepted = s.feed.accepted) (hsto : t.stores = s.stores) :
      Kept t (l ++ notes s a t) := by
    rw [notes_still hacc hsto, List.append_nil]
    exact ⟨hs.orderly, hlast.trans hs.last⟩
  cases progress_of_step h with
  | still hcur hfeed hsto => exact hstill (by rw [hcur]) (by rw [hfeed]) hsto
  | query hpc hcur hfeed hsto => exact hstill (by rw [hcur]) (by rw [hfeed]) hsto
  | subscribe ha hpc hpc' hasked hcur hfeed hsto =>
    exact hstill (by rw [hcur]) (by rw [hfeed]; rfl) hsto
  | resume hstarted hcur hfeed hsto => exact hstill (by simp [hcur]) (by rw [hfeed]) hsto
  | resubscribe ha hstarted hasked hcur hfeed hsto =>
    exact hstill (by simp [hcur]) (by rw [hfeed]; rfl) hsto
  | @accept c o hpc hfree hskip hcur hfeed hsto =>
    have hfits := hp.fits c
    rw [hpc] at hfits
    rw [notes_accept (congrArg Feed.accepted hfeed) hsto]
    refine ⟨hs.orderly.item (hs.last ▸ hfits), ?_⟩
    rw [hcur, Note.last_item]
    rfl
  | deliver hpc hsub hcur hfeed hsto | skip hpc hskip hcur hfeed hsto | hand hpc hcur hfeed hsto
  | handled hpc hcur hfeed hsto | threw hpc hcur hfeed hsto | leave hpc hwhy hcur hfeed hsto =>
    exact hstill (by rw [hcur]) (by rw [hfeed]; rfl) hsto
  | @storeHandled c o ok hpc hfreq hclient hcur hfeed hsto =>
    have hfits := hp.fits c
    rw [hpc] at hfits
    have hpos : 0 < s.cursor.sinceLastPersist := by
      by_contra h0
      rw [Nat.eq_zero_of_not_pos h0, frequent_zero] at hfreq
      cases hfreq
    have hpending := hcount.pending_pos (hcount.not_marked_of_client hclient) hpos
    exact hs.mark hpending hfits (by simp [hcur]) (by rw [hfeed]; rfl) hsto
  | storeOffset hcur hfeed hsto => exact hord.1.elim
  | persist hlast hpos hnamed hclient hcur hfeed hsto =>
    have hpending := hcount.pending_pos (hcount.not_marked_of_client hclient) hpos
    exact hs.mark hpending hlast (by simp [hcur]) (by rw [hfeed]) hsto
  | stopStore hpc hstops hconf hlast hpos hcur hfeed hsto =>
    have hpending :=
      hcount.pending_pos (hcount.not_marked_of_closes (by rw [hpc]; rfl)) hpos
    exact hs.mark hpending hlast (by rw [hcur]) (by rw [hfeed]) hsto

/-- The invariants of a run with increasing offsets, with its journal. -/
structure Tracked (cfg : Config) (s : State) (l : List (Note ℕ Bool)) : Prop where
  engaged : Engaged cfg s
  closing : Closing s
  counted : Counted s l

theorem tracked_initial (cfg : Config) : Tracked cfg (initial cfg) [] :=
  ⟨engaged_initial cfg, closing_initial cfg, counted_initial cfg⟩

theorem tracked_step {a : Act} (hs : Tracked cfg s l) (hinc : Increasing s a)
    (h : step cfg s a = some t) : Tracked cfg t (l ++ notes s a t) :=
  ⟨engaged_step hs.engaged h, closing_step hs.closing hs.engaged h,
    counted_step hs.counted hs.closing hinc h⟩

theorem tracked_of_run {as : List Act} (hinc : (machine cfg).Along Increasing (initial cfg) as)
    (h : (machine cfg).run (initial cfg) as = some t) : Tracked cfg t (journal cfg as) := by
  refine Machine.run_record_along (P := Tracked cfg) (fun {s a t l} hs hok hstep => ?_)
    (tracked_initial cfg) hinc h
  exact tracked_step hs hok hstep

/-- The invariants of a run in which the calls come in order. -/
theorem kept_of_run {as : List Act} (hord : (machine cfg).Along InOrder (initial cfg) as)
    (h : (machine cfg).run (initial cfg) as = some t) :
    Tracked cfg t (journal cfg as) ∧ Paced cfg t ∧ Kept t (journal cfg as) := by
  have hinit : Tracked cfg (initial cfg) [] ∧ Paced cfg (initial cfg) ∧ Kept (initial cfg) [] :=
    ⟨tracked_initial cfg, paced_initial cfg, .nil, rfl⟩
  refine Machine.run_record_along (P := fun s l => Tracked cfg s l ∧ Paced cfg s ∧ Kept s l)
    (fun {s a t l} hs hok hstep => ?_) hinit hord h
  obtain ⟨htracked, hpaced, hkept⟩ := hs
  exact ⟨tracked_step htracked hok.1 hstep, paced_step hpaced htracked.engaged hok hstep,
    kept_step hkept htracked.counted hpaced hok hstep⟩

/-! ## What the count and the stores say -/

theorem lt_of_not_frequent {conf : AutomaticCursorConfiguration} {n : ℕ}
    (hconf : cfg.autoCursorConfig = some conf) (hpos : 0 < conf.persistFrequency)
    (h : cfg.frequent n = false) : n < conf.persistFrequency := by
  unfold Config.frequent at h
  simp only [hconf, decide_eq_false_iff_not] at h
  omega

/-- **The automatic cursor**, in every run in which `handle_message` is called with increasing offsets
and the user does not store. With fewer than `2 ^ 32` messages pending, the count is the number of
messages accepted since the last successful store, unless that store was the one of `internal_stop`. If
moreover no call of `handle_message` begins while another is running, the offsets of the successful
stores increase, and when `handle_message` returns, the count is below the frequency, if the call has
found a client whose `store_offset` does not throw where it was to store. -/
theorem autoCursor_of_run {conf : AutomaticCursorConfiguration}
    (hconf : cfg.autoCursorConfig = some conf) {as : List Act}
    (hinc : (machine cfg).Along Increasing (initial cfg) as)
    (h : (machine cfg).run (initial cfg) as = some t) :
    (Note.pending (journal cfg as) < 2 ^ 32 →
      (t.cursor.sinceLastPersist = Note.pending (journal cfg as) ↔
        ¬Note.MarkedBy (journal cfg as) true)) ∧
    ((machine cfg).Along Separate (initial cfg) as →
      t.persisted.Pairwise (· < ·) ∧
      (0 < conf.persistFrequency → ∀ c a u, t.feed.messages c ≠ .idle → step cfg t a = some u →
        u.feed.messages c = .idle → a ≠ .handlerThrow c →
        (∀ ok, a = .storeHandled c ok → t.client ≠ none ∧ ok = true) →
        u.cursor.sinceLastPersist < conf.persistFrequency)) := by
  refine ⟨fun hfew => ?_, fun hsep => ?_⟩
  · obtain ⟨extra, hextra, hcount, hmarked⟩ := (tracked_of_run hinc h).counted.count
    rw [← hmarked]
    omega
  · obtain ⟨ht, hpaced, hkept⟩ := kept_of_run (hinc.and hsep) h
    refine ⟨?_, fun hpos c a u hc hstep hret hreturns hconn => ?_⟩
    · rw [ht.counted.persisted]
      exact hkept.orderly.marks_pairwise
    · exact lt_of_not_frequent hconf hpos
        (hpaced.rare_of_return ht.engaged.seen hc hstep hret hreturns hconn)

/-- The step is one that is asked to come in order. -/
def Act.orders : Act → Bool
  | .deliver _ _ | .storeOffset _ _ => true
  | _ => false

theorem inOrder_of_not_orders {a : Act} (h : a.orders = false) (s : State) : InOrder s a := by
  cases a <;> first | (cases h; done) | exact ⟨trivial, trivial⟩

/-- The calls of `handle_message` come in order when a started consumer gets one message. -/
theorem along_oneMessage {as : List Act} (has : ∀ a ∈ as, a.orders = false)
    (hrun : (machine cfg).run (initial cfg) started = some s)
    (hidle : ∀ c, s.feed.messages c = .idle) (hnone : s.cursor.lastSeen = none) :
    (machine cfg).Along InOrder (initial cfg) (started ++ Act.deliver 0 7 :: as) := by
  have hfree : ∀ {s : State} {as : List Act}, (∀ a ∈ as, a.orders = false) →
      (machine cfg).Along InOrder s as := fun h =>
    Machine.along_of_forall_mem fun a ha s => inOrder_of_not_orders (h a ha) s
  have hdeliver : InOrder s (.deliver 0 7) := ⟨by simp [Increasing, hnone], hidle⟩
  exact (hfree (by decide)).append hrun ⟨hdeliver, fun _ _ => hfree has⟩

/-- A message is handled. -/
def handleMessage : List Act := [.accept 0, .hand 0, .handled 0]

/-- The user stops the consumer, and the store succeeds. -/
def stopAndStore : List Act :=
  [.stop (.user 0), .stopDestroyed (.user 0), .stopDestroyed (.user 0), .stopDestroyed (.user 0),
    .stopDestroyed (.user 0), .stopExchange (.user 0), .stopTake (.user 0),
    .stopStore (.user 0) true]

/-- The theorem at a message that is persisted when its handler has returned. -/
theorem autoCursor_of_eachMessage :
    ∃ t u, (machine eachMessage).run (initial eachMessage)
        (started ++ Act.deliver 0 7 :: handleMessage) = some t ∧
      step eachMessage t (.storeHandled 0 true) = some u ∧ u.persisted = [7] ∧
      t.cursor.sinceLastPersist = 1 ∧ u.cursor.sinceLastPersist < 1 := by
  have hord : (machine eachMessage).Along InOrder (initial eachMessage)
      (started ++ Act.deliver 0 7 :: handleMessage) :=
    along_oneMessage (by decide) rfl (fun _ => rfl) rfl
  obtain ⟨hcount, hseparate⟩ := autoCursor_of_run rfl (hord.imp fun _ _ h => h.1) rfl
  obtain ⟨-, hreturn⟩ := hseparate (hord.imp fun _ _ h => h.2)
  have hnot : ¬Note.MarkedBy (journal eachMessage (started ++ Act.deliver 0 7 :: handleMessage)) true := by
    rintro ⟨o, ho⟩
    cases ho with
    | tail _ ho => cases ho
  refine ⟨_, _, rfl, rfl, rfl, (hcount (by decide)).2 hnot, ?_⟩
  exact hreturn (by decide) 0 (.storeHandled 0 true) _ (by decide) rfl rfl (by decide) fun ok hok => by
    cases hok
    exact ⟨by decide, rfl⟩

/-- A consumer with a name that persists its cursor after two messages. -/
def everySecond : Config := ⟨true, .first, some ⟨2, 0⟩⟩

/-- The offset that `handle_message` is called with. -/
def Act.delivers : Act → Option ℕ
  | .deliver _ o => some o
  | _ => none

/-- The handler of the message at offset 5 is running when the stream's metadata change:
`delayed_reconnect` takes the client, and stops it outside the mutex. The client reports at the same
time that its connection is lost, and a new one subscribes and gets the message at offset 6. -/
def overlap : List Act :=
  started ++ [Act.deliver 0 5, .accept 0, .hand 0, .metadataUpdate 0, .tickDelayed .strand, .delayed,
    .delayedTake, .shutdown 0, .shutdownHandle 0, .tickReconnect .strand, .reconnect, .reconnectCheck,
    .reconnectCreate, .reconnectClient, .reconnectSubscribe, .deliver 1 6, .accept 1]

/-- The new client's call stores offset 6, and its next message is accepted; then the old client's call
stores offset 5. -/
def storedBackwards : List Act :=
  overlap ++ [Act.hand 1, .handled 1, .storeHandled 1 true, .deliver 1 7, .accept 1, .handled 0,
    .storeHandled 0 true]

/-- **The count does not tell what the broker does not know of** once `internal_stop` has stored: the
offset of the one message is stored, and the count is still one. **The stored offsets go back** when the
calls of two clients overlap, although `handle_message` is called with the offsets 5, 6 and 7. And then
**a call returns with too many messages pending**: the old client's call has found one message, and
there are two when it returns. -/
theorem count_after_stop :
    (¬∀ (cfg : Config) (conf : AutomaticCursorConfiguration) (as : List Act) (t : State),
      cfg.autoCursorConfig = some conf → (machine cfg).Along Increasing (initial cfg) as →
      (machine cfg).Along Separate (initial cfg) as →
      (machine cfg).run (initial cfg) as = some t →
      (∀ l ∈ (journal cfg as).inits, Note.pending l < 2 ^ 32) →
      t.cursor.sinceLastPersist = Note.pending (journal cfg as)) ∧
    (∃ t, (machine eachMessage).run (initial eachMessage) storedBackwards = some t ∧
      storedBackwards.filterMap Act.delivers = [5, 6, 7] ∧ t.persisted = [6, 5]) ∧
    ∃ t u, (machine everySecond).run (initial everySecond) overlap = some t ∧
      overlap.filterMap Act.delivers = [5, 6] ∧ step everySecond t (.handled 0) = some u ∧
      u.feed.messages 0 = .idle ∧ u.client = some 1 ∧ u.cursor.sinceLastPersist = 2 := by
  refine ⟨fun h => ?_, ⟨_, rfl, rfl, rfl⟩, ⟨_, _, rfl, rfl, rfl, rfl, rfl, rfl⟩⟩
  have hord : (machine delayedCursor).Along InOrder (initial delayedCursor)
      (started ++ Act.deliver 0 7 :: (handleMessage ++ stopAndStore)) :=
    along_oneMessage (by decide) rfl (fun _ => rfl) rfl
  have hcount := h delayedCursor _ _ _ rfl (hord.imp fun _ _ h => h.1) (hord.imp fun _ _ h => h.2) rfl
    (by decide)
  cases hcount

end Hareflow.Consumer
