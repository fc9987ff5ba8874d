import Hareflow.Consumer.Delivery

/-!
# What connects the members of a consumer

`m_initial_offset` is cleared by the first message that is accepted, and `m_last_seen_offset` is set by
it, so that one of the two is there for every subscription. `Engaged` states this, and what else connects
the members with each other and with the point of `start()`: a message that is counted has been seen, and
a call of `handle_message` that is to store an offset has a configuration to look at.

The invariant is about any calls of `handle_message`, also from a client that has not subscribed.
-/

namespace Hareflow.Consumer

/-- The call of `handle_message` is to store, or may come to store, its offset. -/
def MessagePc.stores : MessagePc → Bool
  | .accepted _ store | .handling _ store => store
  | .storing _ => true
  | _ => false

/-- What connects the members with each other and with the calls. -/
structure Engaged (cfg : Config) (s : State) : Prop where
  seen : s.cursor.Seen
  offset : s.cursor.lastSeen = none → s.cursor.initialOffset ≠ none
  early : s.start.early = true → s.cursor.initialOffset ≠ none
  /-- A call of `handle_message` finds `start()` past its first client, and so, once the mutex is
  free, past its subscription. -/
  silent : s.start.opened = false → ∀ c, s.feed.subscriptions c = none ∧ s.feed.messages c = .idle
  returned : s.status = .started → s.start = .returned
  stores : ∀ c, (s.feed.messages c).stores = true →
    ∃ conf, cfg.autoCursorConfig = some conf ∧ 0 < conf.persistFrequency

theorem engaged_initial (cfg : Config) : Engaged cfg (initial cfg) :=
  ⟨nofun, fun _ => nofun, fun _ => nofun, fun _ _ => ⟨rfl, rfl⟩, nofun, fun _ => nofun⟩

theorem Cursor.resume_initialOffset {cur : Cursor}
    (h : cur.lastSeen = none → cur.initialOffset ≠ none) : cur.resume.initialOffset ≠ none := by
  unfold Cursor.resume
  cases hlast : cur.lastSeen with
  | none => exact h hlast
  | some o => simp

variable {cfg : Config} {s t : State}

/-- A step that moves no call of `handle_message` and makes no subscription. -/
theorem Engaged.setCursor (hs : Engaged cfg s) (hmoves : StartMoves s t) (hseen : t.cursor.Seen)
    (hoffset : t.cursor.lastSeen = none → t.cursor.initialOffset ≠ none)
    (hinit : s.cursor.initialOffset ≠ none → t.cursor.initialOffset ≠ none)
    (hfeed : t.feed = s.feed) : Engaged cfg t := by
  refine ⟨hseen, hoffset, fun h => ?_, fun h => ?_, hmoves.returned hs.returned, hfeed ▸ hs.stores⟩
  · exact hinit (hs.early (hmoves.early h))
  · rw [hfeed]
    refine hs.silent ?_
    by_contra hopened
    rw [hmoves.opened (by simpa using hopened)] at h
    cases h

/-- A step that leaves the offsets of the cursor alone, too. -/
theorem Engaged.of_frame (hs : Engaged cfg s) (hmoves : StartMoves s t) (hseen : t.cursor.Seen)
    (hcur : t.cursor.lastSeen = s.cursor.lastSeen ∧
      t.cursor.initialOffset = s.cursor.initialOffset) (hfeed : t.feed = s.feed) :
    Engaged cfg t :=
  hs.setCursor hmoves hseen (by rw [hcur.1, hcur.2]; exact hs.offset) (hcur.2 ▸ id) hfeed

/-- A step that moves calls of `handle_message`, or subscribes, once `start()` has made a client. -/
theorem Engaged.setFeed (hs : Engaged cfg s) (hmoves : StartMoves s t)
    (hopened : s.start.opened = true) (hseen : t.cursor.Seen)
    (hoffset : t.cursor.lastSeen = none → t.cursor.initialOffset ≠ none)
    (hearly : t.start.early = true → t.cursor.initialOffset ≠ none)
    (hstores : ∀ c, (t.feed.messages c).stores = true →
      (s.feed.messages c).stores = true ∨ ∃ n, cfg.frequent n = true) : Engaged cfg t := by
  refine ⟨hseen, hoffset, hearly, fun h => ?_, hmoves.returned hs.returned, fun c hc => ?_⟩
  · rw [hmoves.opened hopened] at h
    cases h
  · obtain hc | ⟨n, hn⟩ := hstores c hc
    · exact hs.stores c hc
    · exact config_of_frequent hn

theorem Engaged.opened_of_message (hs : Engaged cfg s) {c : ℕ} (h : s.feed.messages c ≠ .idle) :
    s.start.opened = true := by
  by_contra hopened
  exact h (hs.silent (by simpa using hopened) c).2

theorem Engaged.opened_of_started (hs : Engaged cfg s) (h : s.status = .started) :
    s.start.opened = true := by
  rw [hs.returned h]
  rfl

/-- Where the mutex is free and a client was made, `start()` has subscribed or given up. -/
theorem late_of_unlocked (hopened : s.start.opened = true) (h : s.unlocked = true) :
    s.start.early = false := by
  cases hpc : s.start <;> simp_all [State.unlocked, StartPc.opened, StartPc.locks, StartPc.early]

/-- The call `c` of `handle_message` moves on: it stores what it was to store before, or what it finds
frequent now. The offsets of the cursor stay as they are. -/
theorem Engaged.setMessage (hs : Engaged cfg s) (hmoves : StartMoves s t)
    (hopened : s.start.opened = true) (hseen : t.cursor.Seen)
    (hcur : t.cursor.lastSeen = s.cursor.lastSeen ∧
      t.cursor.initialOffset = s.cursor.initialOffset) {c : ℕ} {pc : MessagePc}
    (hmsgs : t.feed.messages = Function.update s.feed.messages c pc)
    (hpc : pc.stores = true → (s.feed.messages c).stores = true) : Engaged cfg t := by
  refine hs.setFeed hmoves hopened hseen (by rw [hcur.1, hcur.2]; exact hs.offset)
    (fun he => by rw [hcur.2]; exact hs.early (hmoves.early he)) fun c' hc' => .inl ?_
  rw [hmsgs] at hc'
  by_cases hcc : c' = c
  · subst hcc
    exact hpc (by simpa using hc')
  · rwa [Function.update_of_ne hcc] at hc'

theorem engaged_step {a : Act} (hs : Engaged cfg s) (h : step cfg s a = some t) :
    Engaged cfg t := by
  have hseen := seen_step hs.seen h
  have hmoves := startMoves_of_step h
  have hresume := Cursor.resume_initialOffset hs.offset
  have hopened {c : ℕ} {pc : MessagePc} (hpc : s.feed.messages c = pc) (hne : pc ≠ .idle) :
      s.start.opened = true := hs.opened_of_message (c := c) (hpc ▸ hne)
  cases progress_of_step h with
  | still hcur hfeed hsto => exact hs.of_frame hmoves hseen (by simp [hcur]) hfeed
  | query hpc hcur hfeed hsto =>
    exact hs.setCursor hmoves hseen (by simp [hcur]) (by simp [hcur]) hfeed
  | subscribe ha hpc hpc' hasked hcur hfeed hsto =>
    refine hs.setFeed hmoves (by rw [hpc]; rfl) hseen (by simp [hcur, hasked])
      (by simp [hcur, hasked]) fun c' hc' => .inl ?_
    rw [hfeed] at hc'
    exact hc'
  | resume hstarted hcur hfeed hsto =>
    exact hs.setCursor hmoves hseen (fun _ => by rwa [hcur]) (fun _ => by rwa [hcur]) hfeed
  | resubscribe ha hstarted hasked hcur hfeed hsto =>
    refine hs.setFeed hmoves (hs.opened_of_started hstarted) hseen (by simp [hcur, hasked])
      (by simp [hcur, hasked]) fun c' hc' => .inl ?_
    rw [hfeed] at hc'
    exact hc'
  | @deliver c o sub hpc hsub hcur hfeed hsto =>
    have hopened : s.start.opened = true := by
      by_contra hopened
      have hnone := (hs.silent (by simpa using hopened) c).1
      rw [hsub] at hnone
      cases hnone
    exact hs.setMessage hmoves hopened hseen (by simp [hcur]) (congrArg Feed.messages hfeed)
      (by simp [MessagePc.stores])
  | skip hpc hskip hcur hfeed hsto =>
    exact hs.setMessage hmoves (hopened hpc (by simp)) hseen (by simp [hcur])
      (congrArg Feed.messages hfeed) (by simp [MessagePc.stores])
  | @accept c o hpc hfree hskip hcur hfeed hsto =>
    have hlate := hmoves.late (late_of_unlocked (hopened hpc (by simp)) hfree)
    refine hs.setFeed hmoves (hopened hpc (by simp)) hseen (by simp [hcur, Cursor.accept])
      (fun he => by simp [hlate] at he) fun c' hc' => ?_
    rw [hfeed] at hc'
    by_cases hcc : c' = c
    · exact .inr ⟨_, by simpa [hcc, Feed.setMessage, MessagePc.stores] using hc'⟩
    · exact .inl (by simpa [Feed.setMessage, Function.update_of_ne hcc] using hc')
  | hand hpc hcur hfeed hsto =>
    exact hs.setMessage hmoves (hopened hpc (by simp)) hseen (by simp [hcur])
      (congrArg Feed.messages hfeed) fun hst => by rw [hpc]; exact hst
  | @handled c o store hpc hcur hfeed hsto =>
    refine hs.setMessage hmoves (hopened hpc (by simp)) hseen (by simp [hcur])
      (congrArg Feed.messages hfeed) fun hst => ?_
    rw [hpc]
    cases store with
    | false => cases hst
    | true => rfl
  | threw hpc hcur hfeed hsto =>
    exact hs.setMessage hmoves (hopened hpc (by simp)) hseen (by simp [hcur])
      (congrArg Feed.messages hfeed) (by simp [MessagePc.stores])
  | leave hpc hwhy hcur hfeed hsto =>
    exact hs.setMessage hmoves (hopened hpc (by simp)) hseen (by simp [hcur])
      (congrArg Feed.messages hfeed) (by simp [MessagePc.stores])
  | storeHandled hpc hfreq hclient hcur hfeed hsto =>
    exact hs.setMessage hmoves (hopened hpc (by simp)) hseen (by simp [hcur])
      (congrArg Feed.messages hfeed) (by simp [MessagePc.stores])
  | storeOffset hcur hfeed hsto => exact hs.of_frame hmoves hseen (by simp [hcur]) hfeed
  | persist hlast hpos hnamed hclient hcur hfeed hsto =>
    exact hs.of_frame hmoves hseen (by simp [hcur]) hfeed
  | stopStore hpc hstops hconf hlast hpos hcur hfeed hsto =>
    exact hs.of_frame hmoves hseen (by simp [hcur]) hfeed

end Hareflow.Consumer
