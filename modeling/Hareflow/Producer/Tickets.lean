import Hareflow.Producer.Stop

/-!
# The tickets of the messages

A message carries the number of the call of `send` that it came with, its ticket. Whatever ids the
users give, the tickets of the accepted messages are distinct, and a call is accepted exactly if its
message is: `Ticketed` says so, and every step keeps it.
-/

namespace Hareflow.Producer

variable {cfg : Config} {s t : State}

/-- The id that a call of `send` goes on with. -/
def SendPc.publishingId : SendPc → Option UInt64
  | .allocated i | .checked i | .permitted i => some i
  | .sized m => some m.publishingId
  | _ => none

/-- The calls of `send`, and what they have had accepted. -/
structure Sending where
  nextPublishingId : UInt64
  calls : ℕ
  sends : ℕ → SendPc
  batch : Option Batch
  accepted : List AccumulatedMessage

def State.sending (s : State) : Sending :=
  ⟨s.nextPublishingId, s.calls, s.sends, s.batch, s.accepted⟩

structure Ticketed (x : Sending) : Prop where
  fresh : ∀ k, x.calls ≤ k → x.sends k = .idle
  tickets : ∀ k m, x.sends k = .sized m → m.ticket = k
  batch : ∀ k pc, x.batch = some ⟨.send k, pc⟩ → x.sends k = .publishing
  accepted : ∀ m ∈ x.accepted, (x.sends m.ticket).accepted = true
  covered : ∀ k, (x.sends k).accepted = true → k ∈ x.accepted.map AccumulatedMessage.ticket
  nodup : (x.accepted.map AccumulatedMessage.ticket).Nodup

namespace Ticketed

variable {x : Sending}

theorem lt_calls (hx : Ticketed x) {k : ℕ} (hk : x.sends k ≠ .idle) : k < x.calls := by
  by_contra hge
  exact hk (hx.fresh k (Nat.le_of_not_lt hge))

/-- A call that is not in `publish_batch` has no batch. -/
theorem batch_ne (hx : Ticketed x) {k : ℕ} (hk : x.sends k ≠ .publishing) (b : BatchPc) :
    x.batch ≠ some ⟨.send k, b⟩ := fun h => hk (hx.batch k b h)

/-- A call goes on, and its message is accepted neither now nor anew. -/
theorem setSend (hx : Ticketed x) {k : ℕ} {pc : SendPc} (hk : x.sends k ≠ .idle)
    (hticket : ∀ m, pc = .sized m → m.ticket = k) (hacc : pc.accepted = (x.sends k).accepted)
    (hbatch : ∀ b, x.batch ≠ some ⟨.send k, b⟩) :
    Ticketed { x with sends := Function.update x.sends k pc } := by
  have hsame : ∀ l, (Function.update x.sends k pc l).accepted = (x.sends l).accepted := by
    intro l
    by_cases hl : l = k
    · simp [hl, hacc]
    · simp [hl]
  refine ⟨fun l hl => ?_, fun l m hl => ?_, fun l b hl => ?_, fun m hm => ?_,
    fun l hl => hx.covered l ?_, hx.nodup⟩
  · have hlk : l ≠ k := by
      rintro rfl
      exact hk (hx.fresh l hl)
    simpa [hlk] using hx.fresh l hl
  · by_cases hlk : l = k
    · subst hlk
      exact hticket m (by simpa using hl)
    · exact hx.tickets l m (by simpa [hlk] using hl)
  · have hlk : l ≠ k := by
      rintro rfl
      exact hbatch b hl
    simpa [hlk] using hx.batch l b hl
  · rw [hsame]
    exact hx.accepted m hm
  · rw [← hsame]
    exact hl

/-- A new call. -/
theorem call (hx : Ticketed x) (publishingId next : UInt64) :
    Ticketed { x with
      nextPublishingId := next
      calls := x.calls + 1
      sends := Function.update x.sends x.calls (.allocated publishingId) } := by
  have hidle : x.sends x.calls = .idle := hx.fresh _ (Nat.le_refl _)
  have hne : ∀ l, x.sends l ≠ .idle → l ≠ x.calls := by
    rintro l hl rfl
    exact hl hidle
  refine ⟨fun l hl => ?_, fun l m hl => ?_, fun l b hl => ?_, fun m hm => ?_, fun l hl => ?_,
    hx.nodup⟩
  · have hl' : x.calls + 1 ≤ l := hl
    have hlk : l ≠ x.calls := by omega
    simpa [hlk] using hx.fresh l (by omega)
  · by_cases hlk : l = x.calls
    · subst hlk
      simp at hl
    · exact hx.tickets l m (by simpa [hlk] using hl)
  · have hpub := hx.batch l b hl
    simpa [hne l (by simp [hpub])] using hpub
  · have hacc := hx.accepted m hm
    have hlk := hne m.ticket fun hi => by simp [hi, SendPc.accepted] at hacc
    simpa [hlk] using hacc
  · by_cases hlk : l = x.calls
    · subst hlk
      simp [SendPc.accepted] at hl
    · exact hx.covered l (by simpa [hlk] using hl)

/-- `add` accepts the message of a call. -/
theorem insert (hx : Ticketed x) {k : ℕ} {m : AccumulatedMessage} (full : Bool)
    (hk : x.sends k = .sized m) :
    Ticketed { x with
      sends := Function.update x.sends k (.added full)
      accepted := x.accepted ++ [m] } ∧ m ∉ x.accepted := by
  have hticket := hx.tickets k m hk
  have hnew : ∀ m' ∈ x.accepted, m'.ticket ≠ k := by
    intro m' hm' heq
    have hacc := hx.accepted m' hm'
    rw [heq, hk] at hacc
    cases hacc
  have hother : ∀ l, l ≠ k → Function.update x.sends k (.added full) l = x.sends l :=
    fun l hl => by simp [hl]
  refine ⟨⟨fun l hl => ?_, fun l m' hl => ?_, fun l b hl => ?_, fun m' hm' => ?_, fun l hl => ?_,
    ?_⟩, fun hm => hnew m hm hticket⟩
  · have hlk : l ≠ k := by
      rintro rfl
      exact absurd (hx.fresh l hl) (by simp [hk])
    exact (hother l hlk).trans (hx.fresh l hl)
  · by_cases hlk : l = k
    · subst hlk
      simp at hl
    · exact hx.tickets l m' (by simpa [hlk] using hl)
  · have hpub := hx.batch l b hl
    have hlk : l ≠ k := by
      rintro rfl
      simp [hk] at hpub
    exact (hother l hlk).trans hpub
  · rcases List.mem_append.1 hm' with hm' | hm'
    · exact (congrArg SendPc.accepted (hother _ (hnew m' hm'))).trans (hx.accepted m' hm')
    · obtain rfl : m' = m := by simpa using hm'
      simp [hticket, SendPc.accepted]
  · by_cases hlk : l = k
    · simp [hlk, hticket]
    · have := hx.covered l (by simpa [hlk] using hl)
      rw [List.map_append, List.mem_append]
      exact .inl this
  · rw [List.map_append]
    refine List.nodup_append.2 ⟨hx.nodup, by simp, ?_⟩
    rintro l hl l' hl' rfl
    obtain ⟨m', hm', rfl⟩ := List.mem_map.1 hl
    exact hnew m' hm' (by simpa [hticket] using hl')

/-- Two accepted messages of one call are the same. -/
theorem eq_of_ticket_eq (hx : Ticketed x) {m m' : AccumulatedMessage} (hm : m ∈ x.accepted)
    (hm' : m' ∈ x.accepted) (h : m.ticket = m'.ticket) : m = m' :=
  List.inj_on_of_nodup_map hx.nodup hm hm' h

end Ticketed

/-! ## Every step keeps the tickets -/

/-- What a step of `send` can do: a new call, `add` that accepts a message, or a call that goes on
with the id it has and has its message accepted neither now nor anew. -/
inductive SendChange (s t : State) (a : SendAct) : Prop
  | call (explicit : Option UInt64) (ha : a = .call explicit)
    (ht : t.sending = { s.sending with
      nextPublishingId := if explicit.isSome then s.nextPublishingId else s.nextPublishingId + 1
      calls := s.calls + 1
      sends := Function.update s.sends s.calls
        (.allocated (explicit.getD s.nextPublishingId)) })
  | insert {k : ℕ} {m : AccumulatedMessage} (full : Bool) (ha : a = .insert k)
    (hk : s.sends k = .sized m)
    (ht : t.sending = { s.sending with
      sends := Function.update s.sends k (.added full)
      accepted := s.accepted ++ [m] })
  | goOn {k : ℕ} (pc : SendPc) (hidle : s.sends k ≠ .idle) (hpub : s.sends k ≠ .publishing)
    (hticket : ∀ m, pc = .sized m → m.ticket = k)
    (hid : ∀ i, pc.publishingId = some i → (s.sends k).publishingId = some i)
    (hacc : pc.accepted = (s.sends k).accepted)
    (ht : t.sending = { s.sending with sends := Function.update s.sends k pc })

theorem SendChange.threw {a : SendAct} {k : ℕ} (hidle : s.sends k ≠ .idle)
    (hacc : (s.sends k).accepted = false)
    (ht : t.sending = { s.sending with sends := Function.update s.sends k .threw }) :
    SendChange s t a := by
  refine .goOn .threw hidle ?_ (by simp) (by simp [SendPc.publishingId]) ?_ ht
  · intro hpub
    simp [hpub, SendPc.accepted] at hacc
  · rw [hacc]
    rfl

theorem change_of_stepSend {a : SendAct} (h : stepSend cfg s a = some t) : SendChange s t a := by
  cases a with
  | call explicit =>
    cases explicit with
    | none =>
      cases h
      exact .call none rfl rfl
    | some i =>
      cases h
      exact .call (some i) rfl rfl
  | insert k =>
    simp only [stepSend] at h
    split at h
    · rename_i m hk
      split at h
      · cases h
        exact .threw (by simp [hk]) (by simp [hk, SendPc.accepted]) rfl
      · cases h
        exact .insert _ rfl hk rfl
      · cases h
    · cases h
  | encode k encoded now =>
    simp only [stepSend] at h
    split at h
    · rename_i hk
      cases h
      exact .threw (by simp [hk]) (by simp [hk, SendPc.accepted]) rfl
    · rename_i i e hk
      split at h <;> cases h
      · exact .threw (by simp [hk]) (by simp [hk, SendPc.accepted]) rfl
      · exact .goOn (.sized ⟨i, now, e, k⟩) (by simp [hk]) (by simp [hk]) (by simp)
          (by simp [hk, SendPc.publishingId]) (by simp [hk, SendPc.accepted]) rfl
    · cases h
  | check k | acquire k | timeout k | proceed k =>
    simp only [stepSend] at h
    split at h
    · rename_i hk
      (repeat' split at h) <;> first
        | (cases h; done)
        | (cases h
           refine .goOn _ (by simp [hk]) (by simp [hk]) ?_ ?_ ?_ rfl <;>
            simp [hk, SendPc.publishingId, SendPc.accepted])
    · cases h

/-- The steps of `publish_batch` give no call an id. -/
theorem stepBatch_sends {a : BatchAct} (h : stepBatch cfg s a = some t) (k : ℕ) (i : UInt64)
    (hk : (t.sends k).publishingId = some i) : (s.sends k).publishingId = some i := by
  have hfinish : ∀ (u : State) (caller : Caller), ((u.finish caller).sends k).publishingId = some i →
      (u.sends k).publishingId = some i := by
    intro u caller hu
    cases caller with
    | send l =>
      by_cases hkl : k = l
      · simp [State.finish, State.setSend, hkl, SendPc.publishingId] at hu
      · simpa [State.finish, State.setSend, hkl] using hu
    | _ => exact hu
  cases batchMove_of_step h with
  | flush | task | lock | extract | publish | park => exact hk
  | decline => exact hfinish _ _ hk
  | insert =>
    have hs := hfinish _ _ hk
    exact hs

namespace Ticketed

theorem stepSend {a : SendAct} (hs : Ticketed s.sending) (h : stepSend cfg s a = some t) :
    Ticketed t.sending := by
  cases change_of_stepSend h with
  | call explicit ha ht =>
    rw [ht]
    exact hs.call _ _
  | insert full ha hk ht =>
    rw [ht]
    exact (hs.insert full hk).1
  | goOn pc hidle hpub hticket hid hacc ht =>
    rw [ht]
    exact hs.setSend hidle hticket hacc (hs.batch_ne hpub)

/-- The call of `publish_batch` with the mutex ends, and there is no batch any more. -/
theorem finish {u : State} (hu : Ticketed u.sending) {caller : Caller} (hbatch : u.batch = none)
    (hcall : ∀ k, caller = .send k → u.sends k = .publishing) :
    Ticketed (u.finish caller).sending := by
  cases caller with
  | send k =>
    have hk := hcall k rfl
    have hne : u.sends k ≠ .idle := by simp [hk]
    exact hu.setSend hne (by simp) (by simp [State.sending, hk, SendPc.accepted])
      (by simp [State.sending, hbatch])
  | _ => exact hu

theorem stepBatch {a : BatchAct} (hs : Ticketed s.sending) (h : stepBatch cfg s a = some t) :
    Ticketed t.sending := by
  have hbatch : ∀ {b : Batch} {pc : BatchPc}, s.batch = some b →
      Ticketed { s.sending with batch := some ⟨b.caller, pc⟩ } := by
    intro b pc hb
    refine ⟨hs.fresh, hs.tickets, fun k pc' hk => ?_, hs.accepted, hs.covered, hs.nodup⟩
    have hcaller : b.caller = .send k := by
      have hk' : some (Batch.mk b.caller pc) = some ⟨.send k, pc'⟩ := hk
      simp only [Option.some.injEq, Batch.mk.injEq] at hk'
      exact hk'.1
    exact hs.batch k b.pc (by rw [← hcaller]; exact hb)
  have hcalling : ∀ {caller : Caller}, s.calling caller = true → ∀ k, caller = .send k →
      s.sends k = .publishing := by
    rintro caller hcall k rfl
    simpa [State.calling] using hcall
  cases batchMove_of_step h with
  | flush | task => exact hs
  | @lock caller hcall hfree hrun =>
    refine ⟨hs.fresh, hs.tickets, fun k pc hk => ?_, hs.accepted, hs.covered, hs.nodup⟩
    have hk' : some (Batch.mk caller .locked) = some ⟨.send k, pc⟩ := hk
    simp only [Option.some.injEq, Batch.mk.injEq] at hk'
    exact hcalling hcall k hk'.1
  | decline hcall hfree hrun => exact hs.finish (State.unlocked_iff.1 hfree).1 (hcalling hcall)
  | extract hb | publish hb | park hb => exact hbatch hb
  | insert hb =>
    have hnone : Ticketed { s.sending with batch := none } :=
      ⟨hs.fresh, hs.tickets, by simp, hs.accepted, hs.covered, hs.nodup⟩
    refine Ticketed.finish (u := { s.release _ with unconfirmed := _, batch := none }) hnone rfl ?_
    rintro k rfl
    exact hs.batch k _ hb

theorem initial (cfg : Config) : Ticketed (initial cfg).sending := by
  refine ⟨?_, ?_, ?_, ?_, ?_, ?_⟩ <;> simp [State.sending, Producer.initial, SendPc.accepted]

theorem step {a : Act} (hs : Ticketed s.sending) (h : step cfg s a = some t) :
    Ticketed t.sending := by
  cases a with
  | send a => exact hs.stepSend h
  | batch a => exact hs.stepBatch h
  | frame a =>
    obtain ⟨_, _, _, _, rfl⟩ := stepFrame_touches h
    exact hs
  | shutdown a =>
    obtain ⟨_, _, rfl⟩ := stepShutdown_touches h
    exact hs
  | timeout a =>
    obtain ⟨_, _, _, _, rfl⟩ := stepTimeout_touches h
    exact hs
  | reconnect a =>
    obtain ⟨_, _, _, _, _, _, rfl⟩ := stepReconnect_touches h
    exact hs
  | stop a =>
    obtain ⟨_, _, _, _, _, _, _, _, rfl⟩ := stepStop_touches h
    exact hs

end Ticketed

end Hareflow.Producer
