import Hareflow.Foundations.BoundedQueue
import Hareflow.Producer.Stop
import Hareflow.Producer.Tickets

/-!
# The accumulator as a bounded queue

Any number of threads call `add`, anybody may call `extract_all` at any time, and `destroy` may come
at any time. A caller whose `add` returned true, because its message filled the accumulator, goes on
to call `extract_all`, as `send` does with `publish_batch`.

`Buffering.machine` is this use of an `Accumulator`. Its journal follows the rules of a bounded queue
(`Buffering.inv_run`), so that a full accumulator always has a publisher on the way. In the producer
this is so as long as it is running (`Served.run`): once the status is `Stopped`, `publish_batch`
returns without extracting, and the call of `internal_stop` that has set the status destroys the
accumulator in its next step.
-/

namespace Hareflow.Producer

open Foundations BoundedQueue

namespace Accumulator

variable {a : Accumulator} {m : AccumulatedMessage}

/-- `add` tells its caller whether the accumulator is full now. -/
theorem full_of_insert {full : Bool} {a' : Accumulator} (h : a.insert m = .added full a') :
    full = (a.pending.length + 1 == a.capacity) := by
  rw [insert] at h
  split at h
  · split at h
    · cases h
    · exact (AddResult.added.inj h).1.symm
  · cases h

/-- `add` waits while the accumulator is full. -/
theorem insert_eq_waits :
    a.insert m = .waits ↔ a.capacity ≤ a.pending.length ∧ a.destroyed = false := by
  rw [insert]
  split
  · rename_i hready
    rw [ready, Bool.or_eq_true, decide_eq_true_eq] at hready
    have hne : ¬(a.capacity ≤ a.pending.length ∧ a.destroyed = false) := by
      rintro ⟨hle, hd⟩
      rw [hd] at hready
      simp only [Bool.false_eq_true, or_false] at hready
      omega
    split <;> simp [hne]
  · rename_i hready
    simpa [ready] using hready

/-- After the size check `add` is not refused for its size. -/
theorem insert_cases (a : Accumulator) (m : AccumulatedMessage) :
    a.insert m = .waits ∨ a.insert m = .destroyed ∨ ∃ full a', a.insert m = .added full a' := by
  rw [insert]
  split
  · split
    · exact .inr (.inl rfl)
    · exact .inr (.inr ⟨_, _, rfl⟩)
  · exact .inl rfl

/-- With space in an accumulator that is not destroyed, `add` accepts. -/
theorem insert_eq_of_room (hroom : a.pending.length < a.capacity) (hd : a.destroyed = false) :
    a.insert m = .added (a.pending.length + 1 == a.capacity)
      { a with pending := a.pending ++ [m] } := by
  simp [insert, ready, hroom, hd]

end Accumulator

namespace Buffering

/-- Where a call of `add` is. -/
inductive CallPc
  | idle
  /-- Past the size check. -/
  | waiting (m : AccumulatedMessage)
  | returned (full : Bool)
  /-- The caller has called `extract_all` after `add` returned true. -/
  | extracted
  | threw
  deriving DecidableEq, Repr

structure State where
  accumulator : Accumulator
  calls : ℕ → CallPc

inductive Act
  /-- A call of `add`, up to the size check. -/
  | add (k : ℕ) (m : AccumulatedMessage)
  /-- The rest of `add`. -/
  | insert (k : ℕ)
  /-- `extract_all`, by the caller of a call that returned true or by somebody else. -/
  | extractAll (caller : Option ℕ)
  | setMaxFrameSize (maxFrameSize : UInt32)
  | destroy

def step (s : State) : Act → Option State
  | .add k m =>
    if s.calls k = .idle then
      let pc := match s.accumulator.checkSize m.publishingId m.encoded with
        | some _ => .threw
        | none => .waiting m
      some { s with calls := Function.update s.calls k pc }
    else none
  | .insert k =>
    match s.calls k with
    | .waiting m =>
      match s.accumulator.insert m with
      | .destroyed => some { s with calls := Function.update s.calls k .threw }
      | .added full a => some ⟨a, Function.update s.calls k (.returned full)⟩
      | _ => none
    | _ => none
  | .extractAll (some k) =>
    if s.calls k = .returned true then
      some ⟨s.accumulator.extractAll.2, Function.update s.calls k .extracted⟩
    else none
  | .extractAll none => some { s with accumulator := s.accumulator.extractAll.2 }
  | .setMaxFrameSize maxFrameSize => some { s with accumulator := { s.accumulator with maxFrameSize } }
  | .destroy => some { s with accumulator := s.accumulator.destroy }

/-- A new accumulator, whose maximum frame size is not set. -/
def initial (capacity : ℕ) : State := ⟨⟨capacity, 0, [], false⟩, fun _ => .idle⟩

def machine (capacity : ℕ) : Machine State Act := ⟨(· = initial capacity), step⟩

/-- What a step writes into the journal. -/
def observe (s : State) (a : Act) (t : State) : List (Event ℕ AccumulatedMessage) :=
  match a with
  | .insert k =>
    match s.calls k, t.calls k with
    | .waiting m, .returned full => [.added k m full]
    | _, _ => []
  | .extractAll _ => [.taken s.accumulator.extractAll.1]
  | _ => []

variable {capacity : ℕ} {s t : State} {a : Act}

/-- What a step can do: `add` accepts a message, the messages are extracted, or neither. -/
inductive Change (s : State) (a : Act) (t : State) : Prop
  | added (k : ℕ) (m : AccumulatedMessage) (hk : s.calls k = .waiting m)
    (hopen : s.accumulator.destroyed = false)
    (hroom : s.accumulator.pending.length < s.accumulator.capacity)
    (hobserve : observe s a t =
      [.added k m (s.accumulator.pending.length + 1 == s.accumulator.capacity)])
    (ht : t = ⟨{ s.accumulator with pending := s.accumulator.pending ++ [m] },
      Function.update s.calls k
        (.returned (s.accumulator.pending.length + 1 == s.accumulator.capacity))⟩)
  | extracted (hobserve : observe s a t = [.taken s.accumulator.pending])
    (ht : t.accumulator = { s.accumulator with pending := [] })
  | other (hobserve : observe s a t = [])
    (hpending : t.accumulator.pending = s.accumulator.pending)
    (hcapacity : t.accumulator.capacity = s.accumulator.capacity)
    (hdestroyed : s.accumulator.destroyed = true → t.accumulator.destroyed = true)
    (hcalls : ∀ k, s.calls k = .returned true → t.calls k = .returned true)

/-- A call that has not returned true goes on. -/
theorem Change.goOn {k : ℕ} {pc : CallPc} (hobserve : observe s a t = [])
    (hk : s.calls k ≠ .returned true) (ht : t = { s with calls := Function.update s.calls k pc }) :
    Change s a t := by
  subst ht
  refine .other hobserve rfl rfl id fun l hl => ?_
  have hne : l ≠ k := fun h => hk (h ▸ hl)
  exact (Function.update_of_ne hne ..).trans hl

theorem change_of_step (h : step s a = some t) : Change s a t := by
  cases a with
  | add k m =>
    simp only [step] at h
    split at h
    · rename_i hidle
      cases h
      exact .goOn rfl (by simp [hidle]) rfl
    · cases h
  | insert k =>
    simp only [step] at h
    split at h
    · rename_i m hk
      split at h
      · cases h
        exact .goOn (by simp [observe, hk]) (by simp [hk]) rfl
      · rename_i full a hadded
        obtain ⟨hopen, hroom, rfl⟩ := Accumulator.insert_eq_added hadded
        obtain rfl := Accumulator.full_of_insert hadded
        cases h
        exact .added k m hk hopen hroom (by simp [observe, hk]) rfl
      · cases h
    · cases h
  | extractAll caller =>
    cases caller with
    | none =>
      cases h
      exact .extracted rfl rfl
    | some k =>
      simp only [step] at h
      split at h
      · cases h
        exact .extracted rfl rfl
      · cases h
  | setMaxFrameSize maxFrameSize =>
    cases h
    exact .other rfl rfl rfl id fun _ hk => hk
  | destroy =>
    cases h
    exact .other rfl rfl rfl (fun _ => rfl) fun _ hk => hk

/-- The accumulator follows its journal, and a call that was told that it is full has not extracted
unless somebody has. -/
structure Inv (capacity : ℕ) (s : State) (journal : List (Event ℕ AccumulatedMessage)) : Prop where
  size : s.accumulator.capacity = capacity
  follows : Follows capacity s.accumulator.pending journal
  publisher : ∀ k, Unanswered journal k → s.calls k = .returned true

theorem inv_step (hc : 0 < capacity) {journal : List (Event ℕ AccumulatedMessage)}
    (hs : Inv capacity s journal) (h : step s a = some t) :
    Inv capacity t (journal ++ observe s a t) := by
  obtain ⟨hcap, hfollows, hpublisher⟩ := hs
  cases change_of_step h with
  | added k m hk hopen hroom hobserve ht =>
    rw [hobserve]
    subst ht
    rw [hcap] at hroom ⊢
    refine ⟨hcap, hfollows.add hroom k m, fun l hl => ?_⟩
    obtain ⟨x, hx⟩ | ⟨hold, -⟩ := hl.of_append_singleton
    · rw [Event.added.injEq] at hx
      rw [hx.1, hx.2.2]
      exact Function.update_self ..
    · have hret := hpublisher l hold
      have hlk : l ≠ k := by
        rintro rfl
        simp [hk] at hret
      exact (Function.update_of_ne hlk ..).trans hret
  | extracted hobserve ht =>
    rw [hobserve]
    refine ⟨by rw [ht]; exact hcap, ?_, fun k hk => absurd hk (Unanswered.not_take _ _ _)⟩
    rw [ht]
    exact hfollows.take hc
  | other hobserve hpending hcapacity hdestroyed hcalls =>
    rw [hobserve, List.append_nil]
    refine ⟨hcapacity.trans hcap, ?_, fun k hk => hcalls k (hpublisher k hk)⟩
    rw [hpending]
    exact hfollows

/-- The journal of a run from a new accumulator. -/
def journal (capacity : ℕ) (as : List Act) : List (Event ℕ AccumulatedMessage) :=
  (machine capacity).record observe (initial capacity) as

theorem inv_run (hc : 0 < capacity) {as : List Act}
    (h : (machine capacity).run (initial capacity) as = some t) :
    Inv capacity t (journal capacity as) := by
  have hstart : Inv capacity (initial capacity) [] :=
    ⟨rfl, .empty hc, fun k ⟨before, x, after, hnil, _⟩ => by simp at hnil⟩
  have hrun := Machine.run_record (P := Inv capacity) (fun hs hstep => inv_step hc hs hstep) hstart h
  rwa [List.nil_append] at hrun

/-- The accumulator is destroyed, and the journal has no addition. -/
def Shut (s : State) (journal : List (Event ℕ AccumulatedMessage)) : Prop :=
  s.accumulator.destroyed = true ∧ additions journal = []

theorem shut_step {journal : List (Event ℕ AccumulatedMessage)} {a : Act} (hs : Shut s journal)
    (h : step s a = some t) : Shut t (journal ++ observe s a t) := by
  obtain ⟨hd, hnone⟩ := hs
  cases change_of_step h with
  | added k m hk hopen hroom hobserve ht => exact absurd (hopen.symm.trans hd) (by decide)
  | extracted hobserve ht =>
    rw [hobserve]
    refine ⟨?_, by rw [additions_append, hnone]; rfl⟩
    rw [ht]
    exact hd
  | other hobserve hpending hcapacity hdestroyed hcalls =>
    rw [hobserve, List.append_nil]
    exact ⟨hdestroyed hd, hnone⟩

/-- After `destroy` no call of `add` is accepted. -/
theorem additions_of_destroyed {as : List Act} (hd : s.accumulator.destroyed = true)
    (h : (machine capacity).run s as = some t) :
    additions ((machine capacity).record observe s as) = [] := by
  have hstart : Shut s [] := ⟨hd, rfl⟩
  exact (Machine.run_record (P := Shut) shut_step hstart h).2

/-- A call of `add` that waits has a publisher on the way, which lets it go on. -/
theorem Inv.publisher_of_blocked (hc : 0 < capacity) {journal : List (Event ℕ AccumulatedMessage)}
    (hs : Inv capacity s journal) {k : ℕ} {m : AccumulatedMessage} (hk : s.calls k = .waiting m)
    (hblocked : step s (.insert k) = none) :
    ∃ j u, Unanswered journal j ∧ s.calls j = .returned true ∧
      step s (.extractAll (some j)) = some u ∧ step u (.insert k) ≠ none := by
  obtain ⟨hfull, hopen⟩ : capacity ≤ s.accumulator.pending.length ∧
      s.accumulator.destroyed = false := by
    rw [← hs.size, ← Accumulator.insert_eq_waits (m := m)]
    simp only [step, hk] at hblocked
    obtain hwaits | hdestroyed | ⟨full, a, hadded⟩ := s.accumulator.insert_cases m
    · exact hwaits
    · simp [hdestroyed] at hblocked
    · simp [hadded] at hblocked
  obtain ⟨j, hj⟩ := hs.follows.filled (Nat.le_antisymm hs.follows.bounded hfull)
  have hreturned := hs.publisher j hj
  have hjk : k ≠ j := by
    rintro rfl
    simp [hk] at hreturned
  refine ⟨j, _, hj, hreturned, if_pos hreturned, ?_⟩
  have hwaiting : Function.update s.calls j .extracted k = .waiting m :=
    (Function.update_of_ne hjk ..).trans hk
  have hadded := Accumulator.insert_eq_of_room (m := m) (a := s.accumulator.extractAll.2)
    (hs.size.symm ▸ hc) hopen
  simp only [step, hwaiting, hadded]
  exact nofun

end Buffering

/-! ## In the producer -/

variable {cfg : Config} {s t : State}

/-- The call of `send` has filled the accumulator, and is to extract the messages. -/
def State.OnTheWay (s : State) (j : ℕ) : Prop :=
  s.sends j = .added true ∨
    s.sends j = .publishing ∧ ∀ pc, s.batch = some ⟨.send j, pc⟩ → pc = .locked

/-- A full accumulator of a producer that is running has a publisher, and a producer that is being
stopped has a call that stops it. -/
structure Served (cfg : Config) (s : State) : Prop where
  size : s.accumulator.capacity = cfg.batchSize
  bounded : s.accumulator.pending.length ≤ cfg.batchSize
  publisher : s.stage = .running → s.accumulator.pending.length = cfg.batchSize →
    ∃ j, s.OnTheWay j
  performing : s.stage ≠ .running → s.stage.rank < 8 → ∃ p, s.stops p = .performing

namespace Served

theorem initial (hc : 0 < cfg.batchSize) : Served cfg (initial cfg) where
  size := rfl
  bounded := Nat.zero_le _
  publisher _ h := absurd h (Nat.ne_of_lt hc)
  performing h := absurd rfl h

/-- A step that leaves the accumulator and the stop alone, and after which the publishers are on
their way as before. -/
theorem keep (hs : Served cfg s) (hacc : t.accumulator = s.accumulator) (hstage : t.stage = s.stage)
    (hstops : t.stops = s.stops)
    (hway : s.stage = .running → ∀ j, s.OnTheWay j → t.OnTheWay j) : Served cfg t := by
  refine ⟨?_, ?_, ?_, ?_⟩
  · rw [hacc]
    exact hs.size
  · rw [hacc]
    exact hs.bounded
  · rw [hacc, hstage]
    intro hrunning hfull
    obtain ⟨j, hj⟩ := hs.publisher hrunning hfull
    exact ⟨j, hway hrunning j hj⟩
  · rw [hstage, hstops]
    exact hs.performing

/-- A call of `send` goes on. -/
theorem setSend (hs : Served cfg s) (hx : Ticketed s.sending) {k : ℕ} {pc : SendPc}
    (hk : s.sends k ≠ .publishing) (hadded : s.sends k = .added true → pc = .publishing)
    (hacc : t.accumulator = s.accumulator) (hstage : t.stage = s.stage) (hstops : t.stops = s.stops)
    (hbatch : t.batch = s.batch) (hsends : t.sends = Function.update s.sends k pc) :
    Served cfg t := by
  refine hs.keep hacc hstage hstops fun _ j hj => ?_
  rw [State.OnTheWay, hsends, hbatch]
  by_cases hjk : j = k
  · subst hjk
    obtain hj | ⟨hj, -⟩ := hj
    · rw [Function.update_self, hadded hj]
      exact .inr ⟨rfl, fun b hb => absurd hb (hx.batch_ne hk b)⟩
    · exact absurd hj hk
  · rw [Function.update_of_ne hjk]
    exact hj

/-- `add` accepts a message. -/
theorem add (hs : Served cfg s) {k : ℕ} {m : AccumulatedMessage}
    (hroom : s.accumulator.pending.length < s.accumulator.capacity)
    (hacc : t.accumulator = { s.accumulator with pending := s.accumulator.pending ++ [m] })
    (hstage : t.stage = s.stage) (hstops : t.stops = s.stops)
    (hk : t.sends k = .added (s.accumulator.pending.length + 1 == s.accumulator.capacity)) :
    Served cfg t := by
  have hlen : t.accumulator.pending.length = s.accumulator.pending.length + 1 := by
    rw [hacc]
    exact List.length_append
  rw [hs.size] at hroom
  refine ⟨?_, ?_, fun _ hfull => ⟨k, .inl ?_⟩, ?_⟩
  · rw [hacc]
    exact hs.size
  · rw [hlen]
    exact hroom
  · rw [hk, hs.size, ← hlen, beq_iff_eq.2 hfull]
  · rw [hstage, hstops]
    exact hs.performing

theorem stepSend (hs : Served cfg s) (hx : Ticketed s.sending) {a : SendAct}
    (h : stepSend cfg s a = some t) : Served cfg t := by
  cases a with
  | call explicit =>
    have hidle : s.sends s.calls = .idle := hx.fresh _ (Nat.le_refl _)
    cases explicit <;> cases h <;>
      exact hs.setSend hx (k := s.calls) (by simp [hidle]) (by simp [hidle]) rfl rfl rfl rfl rfl
  | insert k =>
    simp only [Producer.stepSend] at h
    split at h
    · rename_i m hk
      split at h
      · cases h
        exact hs.setSend hx (k := k) (by simp [hk]) (by simp [hk]) rfl rfl rfl rfl rfl
      · rename_i full a hadded
        obtain ⟨-, hroom, rfl⟩ := Accumulator.insert_eq_added hadded
        obtain rfl := Accumulator.full_of_insert hadded
        cases h
        exact hs.add hroom rfl rfl rfl (Function.update_self ..)
      · cases h
    · cases h
  | proceed k =>
    simp only [Producer.stepSend] at h
    split at h
    · rename_i full hk
      cases h
      refine hs.setSend hx (k := k) (by simp [hk]) (fun hadded => ?_) rfl rfl rfl rfl rfl
      rw [hk, SendPc.added.injEq] at hadded
      exact if_pos hadded
    · cases h
  | check k | acquire k | timeout k | encode k encoded now =>
    simp only [Producer.stepSend] at h
    (repeat' split at h) <;> first
      | (cases h; done)
      | (cases h; exact hs.setSend hx (k := k) (by simp [*]) (by simp [*]) rfl rfl rfl rfl rfl)

/-- `publish_batch` goes on with the batch that it has extracted, or returns: whoever was on the way
was not the caller. -/
theorem OnTheWay.ne_caller {j : ℕ} (hj : s.OnTheWay j) (hx : Ticketed s.sending) {caller : Caller}
    {pc : BatchPc} (hb : s.batch = some ⟨caller, pc⟩) (hpc : pc ≠ .locked) : caller ≠ .send j := by
  rintro rfl
  obtain hj | ⟨-, hlocked⟩ := hj
  · exact hx.batch_ne (by simp [State.sending, hj]) pc hb
  · exact hpc (hlocked pc hb)

theorem stepBatch (hc : 0 < cfg.batchSize) (hs : Served cfg s) (hx : Ticketed s.sending)
    {a : BatchAct} (h : stepBatch cfg s a = some t) : Served cfg t := by
  cases batchMove_of_step h with
  | flush | task => exact hs.keep rfl rfl rfl fun _ j hj => hj
  | @lock caller =>
    refine hs.keep rfl rfl rfl fun _ j hj => ?_
    obtain hj | ⟨hj, -⟩ := hj
    · exact .inl hj
    · refine .inr ⟨hj, fun pc hpc => ?_⟩
      have hpc : some (Batch.mk caller .locked) = some ⟨.send j, pc⟩ := hpc
      rw [Option.some.injEq, Batch.mk.injEq] at hpc
      exact hpc.2.symm
  | @decline caller hcall hfree hrun =>
    obtain ⟨_, _, _, hf⟩ := State.finish_eq s caller
    rw [hf]
    exact hs.keep rfl rfl rfl fun hrunning => absurd hrunning hrun
  | extract =>
    exact ⟨hs.size, Nat.zero_le _, fun _ hfull => absurd hfull (Nat.ne_of_lt hc), hs.performing⟩
  | @publish caller ms _ _ hb | @park caller ms _ hb =>
    refine hs.keep rfl rfl rfl fun _ j hj => hj.imp_right fun hway => ⟨hway.1, fun pc hpc => ?_⟩
    have hpc : some (Batch.mk caller (.published ms)) = some ⟨.send j, pc⟩ := hpc
    rw [Option.some.injEq, Batch.mk.injEq] at hpc
    exact absurd hpc.1 (OnTheWay.ne_caller hj hx hb (by simp))
  | @insert caller ms hb =>
    have hway {u : State} (hsends : u.sends = s.sends) (hbatch : u.batch = none) (j : ℕ)
        (hj : s.OnTheWay j) : (u.finish caller).OnTheWay j := by
      have hne := OnTheWay.ne_caller hj hx hb (by simp)
      have hsame : (u.finish caller).sends j = s.sends j ∧ (u.finish caller).batch = none := by
        rw [← hsends]
        cases caller with
        | send l =>
          have hjl : j ≠ l := fun h => hne (congrArg Caller.send h.symm)
          exact ⟨Function.update_of_ne hjl .., hbatch⟩
        | flush l => exact ⟨rfl, hbatch⟩
        | task => exact ⟨rfl, hbatch⟩
      rw [State.OnTheWay, hsame.1, hsame.2]
      exact hj.imp_right fun hj => ⟨hj.1, by simp⟩
    obtain ⟨_, _, _, hf⟩ := State.finish_eq
      { s.release (s.unconfirmed.entries.length + ms.length -
        (s.unconfirmed.emplaceAll ms).entries.length) with
        unconfirmed := s.unconfirmed.emplaceAll ms, batch := none } caller
    exact hs.keep (by rw [hf]; rfl) (by rw [hf]; rfl) (by rw [hf]; rfl) fun _ => hway rfl rfl

/-- A call of `stop()` goes on that does not perform the stop. -/
theorem setStop (hs : Served cfg s) {p : Stopper} (pc : StopPc) (hp : s.stops p ≠ .performing)
    (hacc : t.accumulator = s.accumulator) (hstage : t.stage = s.stage)
    (hstops : t.stops = Function.update s.stops p pc) (hsends : t.sends = s.sends)
    (hbatch : t.batch = s.batch) : Served cfg t := by
  refine ⟨?_, ?_, ?_, ?_⟩
  · rw [hacc]
    exact hs.size
  · rw [hacc]
    exact hs.bounded
  · simp only [hacc, hstage, State.OnTheWay, hsends, hbatch]
    exact hs.publisher
  · rw [hstage, hstops]
    intro hrunning hlt
    obtain ⟨q, hq⟩ := hs.performing hrunning hlt
    have hqp : q ≠ p := fun h => hp (h ▸ hq)
    exact ⟨q, (Function.update_of_ne hqp ..).trans hq⟩

/-- The call that performs the stop goes on. -/
theorem perform (hs : Served cfg s) {p : Stopper} (hp : s.stops p = .performing)
    (hsize : t.accumulator.capacity = s.accumulator.capacity)
    (hpending : t.accumulator.pending.length ≤ s.accumulator.pending.length)
    (hrunning : t.stage ≠ .running) (hstops : t.stage.rank < 8 → t.stops = s.stops) :
    Served cfg t :=
  ⟨hsize.trans hs.size, hpending.trans hs.bounded, fun h => absurd h hrunning, fun _ hlt =>
    ⟨p, by rw [hstops hlt, hp]⟩⟩

theorem stepStop (hs : Served cfg s) {a : StopAct} (h : stepStop s a = some t) : Served cfg t := by
  have hidle {p : Stopper} (hp : (s.stops p).busy = false) : s.stops p ≠ .performing := by
    intro hperforming
    simp [hperforming, StopPc.busy] at hp
  cases stopMove_of_step h with
  | callUser hp | callFrame _ hp | callTask hp => exact hs.setStop _ (hidle hp) rfl rfl rfl rfl rfl
  | destroy hpc | join hpc | joinThrew hpc | decline hpc =>
    exact hs.setStop _ (by simp [hpc]) rfl rfl rfl rfl rfl
  | @exchange p =>
    exact ⟨hs.size, hs.bounded, fun hrunning => (by cases hrunning), fun _ _ =>
      ⟨p, Function.update_self ..⟩⟩
  | clear hpc => exact hs.perform hpc rfl (Nat.zero_le _) (by simp) fun _ => rfl
  | finish hpc | abortUnconfirmed hpc | abortPending hpc =>
    exact hs.perform hpc rfl (Nat.le_refl _) (by simp) (by simp [Stage.rank])
  | accumulator hpc | semaphore hpc | take hpc | takeNone hpc | stopped hpc | lock hpc
  | failUnconfirmed hpc | failPending hpc =>
    exact hs.perform hpc rfl (Nat.le_refl _) (by simp) fun _ => rfl

theorem step (hc : 0 < cfg.batchSize) (hs : Served cfg s) (hx : Ticketed s.sending) {a : Act}
    (h : step cfg s a = some t) : Served cfg t := by
  cases a with
  | send a => exact hs.stepSend hx h
  | batch a => exact hs.stepBatch hc hx h
  | frame a =>
    obtain ⟨_, _, _, _, rfl⟩ := stepFrame_touches h
    exact hs.keep rfl rfl rfl fun _ j hj => hj
  | shutdown a =>
    obtain ⟨_, _, rfl⟩ := stepShutdown_touches h
    exact hs.keep rfl rfl rfl fun _ j hj => hj
  | timeout a =>
    obtain ⟨_, _, _, _, rfl⟩ := stepTimeout_touches h
    exact hs.keep rfl rfl rfl fun _ j hj => hj
  | reconnect a =>
    obtain ⟨_, _, _, _, _, _, rfl⟩ := stepReconnect_touches h
    exact hs.keep rfl rfl rfl fun _ j hj => hj
  | stop a => exact hs.stepStop h

theorem run (hc : 0 < cfg.batchSize) {as : List Act}
    (h : (machine cfg).run (Producer.initial cfg) as = some s) : Served cfg s := by
  have hstart : Served cfg (Producer.initial cfg) ∧ Ticketed (Producer.initial cfg).sending :=
    ⟨initial hc, Ticketed.initial cfg⟩
  refine (Machine.run_keeps (P := fun s => Served cfg s ∧ Ticketed s.sending) ?_ hstart h).1
  exact fun hs hstep => ⟨hs.1.step hc hs.2 hstep, hs.2.step hstep⟩

/-- A call of `send` that waits for space has a publisher on the way, or the accumulator is about to
be destroyed. -/
theorem of_blocked (hs : Served cfg s) (hd : Drained s) {k : ℕ} {m : AccumulatedMessage}
    (hk : s.sends k = .sized m) (hblocked : Producer.stepSend cfg s (.insert k) = none) :
    (s.stage = .running ∧ ∃ j, s.OnTheWay j) ∨
      s.stage = .accumulator ∧ ∃ p u, Producer.step cfg s (.stop (.perform p)) = some u ∧
        u.accumulator.destroyed = true := by
  obtain ⟨hfull, hopen⟩ : cfg.batchSize ≤ s.accumulator.pending.length ∧
      s.accumulator.destroyed = false := by
    rw [← hs.size, ← Accumulator.insert_eq_waits (m := m)]
    simp only [Producer.stepSend, hk] at hblocked
    obtain hwaits | hdestroyed | ⟨full, a, hadded⟩ := s.accumulator.insert_cases m
    · exact hwaits
    · simp [hdestroyed] at hblocked
    · simp [hadded] at hblocked
  by_cases hrunning : s.stage = .running
  · exact .inl ⟨hrunning, hs.publisher hrunning (Nat.le_antisymm hs.bounded hfull)⟩
  · have hstage : s.stage = .accumulator := by
      have hrank : ¬1 < s.stage.rank := fun h => by simp [hd.destroyed h] at hopen
      cases hst : s.stage <;> simp [hst, Stage.rank] at hrank hrunning ⊢
    obtain ⟨p, hp⟩ := hs.performing hrunning (by simp [hstage, Stage.rank])
    refine .inr ⟨hstage, p, { s with accumulator := s.accumulator.destroy, stage := .semaphore }, ?_,
      rfl⟩
    simp [Producer.step, Producer.stepStop, State.perform, hp, hstage]

end Served

/-- **The accumulator is a lossless bounded queue that never fills without a publisher.** For every
use of an accumulator by any number of threads:
* the messages extracted, and then the pending ones, are the messages accepted, in this order;
* there are never more pending messages than its capacity;
* when it is full, a call of `add` has returned true since the last `extract_all`, and its caller has
  not extracted;
* a call of `add` that waits for space has such a publisher, and goes on after it has extracted;
* after `destroy` no message is accepted.

In the producer the publisher is a call of `send` before the `extract_all` of its `publish_batch`.
Between the exchange of the status and the `destroy` that `internal_stop` goes on with,
`publish_batch` no longer extracts. -/
theorem accumulator_lossless (capacity : ℕ) (hc : 1 ≤ capacity) :
    (∀ (as : List Buffering.Act) (t : Buffering.State),
      (Buffering.machine capacity).run (Buffering.initial capacity) as = some t →
        (extractions (Buffering.journal capacity as)).flatten ++ t.accumulator.pending =
          additions (Buffering.journal capacity as) ∧
        t.accumulator.pending.length ≤ capacity ∧
        (t.accumulator.pending.length = capacity →
          ∃ k, Unanswered (Buffering.journal capacity as) k ∧ t.calls k = .returned true) ∧
        (∀ k m, t.calls k = .waiting m → Buffering.step t (.insert k) = none →
          ∃ j u, Unanswered (Buffering.journal capacity as) j ∧ t.calls j = .returned true ∧
            Buffering.step t (.extractAll (some j)) = some u ∧
            Buffering.step u (.insert k) ≠ none) ∧
        (t.accumulator.destroyed = true → ∀ bs u,
          (Buffering.machine capacity).run t bs = some u →
            additions ((Buffering.machine capacity).record Buffering.observe t bs) = [])) ∧
    ∀ (cfg : Config) (as : List Act) (s : State), cfg.batchSize = capacity →
      (machine cfg).run (initial cfg) as = some s →
        ∀ k m, s.sends k = .sized m → stepSend cfg s (.insert k) = none →
          (s.stage = .running ∧ ∃ j, s.OnTheWay j) ∨
            s.stage = .accumulator ∧ ∃ p u, step cfg s (.stop (.perform p)) = some u ∧
              u.accumulator.destroyed = true := by
  refine ⟨fun as t h => ?_, fun cfg as s hsize h k m hk hblocked => ?_⟩
  · have hinv := Buffering.inv_run hc h
    refine ⟨hinv.follows.lossless, hinv.follows.bounded, fun hfull => ?_,
      fun k m hk hblocked => hinv.publisher_of_blocked hc hk hblocked,
      fun hd bs u hu => Buffering.additions_of_destroyed hd hu⟩
    obtain ⟨k, hk⟩ := hinv.follows.filled hfull
    exact ⟨k, hk, hinv.publisher k hk⟩
  · have hstopping : Stopping s :=
      Machine.run_keeps (P := Stopping) (fun hs hstep => hs.step hstep) (Stopping.initial cfg) h
    subst hsize
    exact (Served.run hc h).of_blocked hstopping.drained hk hblocked

/-- Two calls of `add` fill an accumulator of capacity two, and a third one waits. -/
def fillTwo : List Buffering.Act :=
  [.add 0 ⟨0, 0, [], 0⟩, .add 1 ⟨1, 0, [], 1⟩, .insert 0, .insert 1, .add 2 ⟨2, 0, [], 2⟩]

theorem accumulator_lossless_fillTwo :
    ∃ t, (Buffering.machine 2).run (Buffering.initial 2) fillTwo = some t ∧
      ∃ k, Unanswered (Buffering.journal 2 fillTwo) k ∧ t.calls k = .returned true := by
  obtain ⟨t, ht, hfull⟩ : ∃ t, (Buffering.machine 2).run (Buffering.initial 2) fillTwo = some t ∧
      t.accumulator.pending.length = 2 := ⟨_, rfl, rfl⟩
  exact ⟨t, ht, ((accumulator_lossless 2 (by decide)).1 fillTwo t ht).2.2.1 hfull⟩

end Hareflow.Producer
