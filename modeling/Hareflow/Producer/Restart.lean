import Hareflow.Producer.ExactlyOnce

/-!
# A producer that is started again

`start()` of a producer with a name asks the broker for the last publishing id under this name and
goes on with the next one. So the ids of a process are above all those that the processes before it
have got through to the broker, and its messages are new.

`Lives` is a broker and the processes of one name, one after the other. A process ends at any point, and
the messages that it still had are lost with it. What it has written and the broker has not taken when it
answers the next process is `late`: the broker may take it from the old connections at any time. The
next process has been given ids from the one after the answer on, and so late messages share ids with
its own. As long as the broker stores none of them (`settled`), everything is stored exactly once;
otherwise a message of the new process may be confirmed and lost (`confirmed_lost_of_late`).
-/

namespace Hareflow.Producer

open Foundations AccumulatedMessage

/-- What `start()` does with the answer of `query_publisher_sequence`. -/
def Config.startingAfter (cfg : Config) (last : Option UInt64) : Config :=
  { cfg with
    firstPublishingId :=
      match last with
      | some i => i + 1
      | none => 0 }

/-- What a producer sends is above the last id before its start. -/
theorem World.Safe.last_lt_accepted {cfg : Config} {last : Option UInt64} {w : World}
    (hw : w.Safe cfg last) (hstart : World.StartsAfter cfg last) {m : AccumulatedMessage}
    (hm : m ∈ w.producer.accepted) {i : UInt64} (hi : i ∈ last) : i.toNat < key m := by
  obtain ⟨hid, hacc⟩ := hw.numbered.accepted m hm
  have hlt : m.ticket < w.producer.calls := hw.numbered.ticketed.lt_calls fun hidle => by
    simp [hidle, SendPc.accepted] at hacc
  rw [key, hid, toNat_publishingId (by have := hw.range; omega)]
  exact World.last_lt hstart (by rw [Option.mem_def.1 hi]; rfl) m.ticket

/-- The highest id is one of 64 bits. -/
theorem World.Safe.highest_lt {cfg : Config} {last : Option UInt64} {w : World}
    (hw : w.Safe cfg last) {h : ℕ} (hh : h ∈ w.broker.highest) : h < 2 ^ 64 := by
  obtain hl | ⟨m, -, rfl⟩ := hw.highest h hh
  · obtain ⟨i, -, rfl⟩ := Option.map_eq_some_iff.1 hl
    exact i.toNat_lt
  · exact m.publishingId.toNat_lt

structure Lives where
  /-- The configuration of the present life. -/
  cfg : Config
  /-- The producer of the present life, and what the broker has stored since its start. -/
  world : World
  /-- What the broker has stored before. -/
  log : List AccumulatedMessage
  /-- The messages that earlier lives were told to be confirmed. -/
  confirmed : List AccumulatedMessage
  /-- What earlier lives have written to each of their clients and the broker has not taken. -/
  late : List (List AccumulatedMessage)

inductive LivesAct
  | life (a : WorldAct)
  /-- The broker takes the next message from a connection of an earlier life. -/
  | late (j : ℕ)
  /-- The process ends, and a new one starts a producer of the same name. -/
  | restart (cfg : Config)
  deriving DecidableEq, Repr

/-- The messages that the life was told to be confirmed. -/
def State.confirmed (s : State) : List AccumulatedMessage :=
  (s.handled.filter fun x => x.2.confirmed).map Prod.fst

/-- What was written to each client and the broker has not taken. -/
def World.unread (w : World) : List (List AccumulatedMessage) :=
  (List.range w.producer.created).map fun c => (w.producer.written c).drop (w.broker.received c)

namespace Lives

/-- What the broker answers. -/
def last (l : Lives) : Option UInt64 := l.world.broker.highest.map UInt64.ofNat

/-- What the broker has stored. -/
def stored (l : Lives) : List AccumulatedMessage := l.log ++ l.world.broker.stored

def step (l : Lives) : LivesAct → Option Lives
  | .life a => (worldStep l.cfg l.world a).map fun w => { l with world := w }
  | .late j =>
    match l.late[j]? with
    | some (m :: ms) =>
      some
        { l with
          world := { l.world with broker := l.world.broker.take key m }
          late := l.late.set j ms }
    | _ => none
  | .restart cfg =>
    some
      { cfg := cfg.startingAfter l.last
        world := worldInitial (cfg.startingAfter l.last) l.last
        log := l.stored
        confirmed := l.confirmed ++ l.world.producer.confirmed
        late := l.late ++ l.world.unread }

/-- The first life, after the last id that the broker has under the name. -/
def first (cfg : Config) (last : Option UInt64) : Lives where
  cfg := cfg.startingAfter last
  world := worldInitial (cfg.startingAfter last) last
  log := []
  confirmed := []
  late := []

def machine (cfg : Config) (last : Option UInt64) : Machine Lives LivesAct :=
  ⟨(· = first cfg last), step⟩

/-- The steps of a life are in order, and a life has ids left to start with. -/
def inOrder (l : Lives) : LivesAct → Bool
  | .life a => l.world.inOrder l.cfg a
  | .late _ => true
  | .restart _ => l.last ≠ some (-1)

/-- A late message that the broker takes is not new to it. -/
def settled (l : Lives) : LivesAct → Bool
  | .late j => (l.late[j]?.bind List.head?).all fun m => ¬l.world.broker.IsNew (key m)
  | _ => true

/-- The present life starts after `last`, which no message of an earlier life is above. -/
structure Safe (last : Option UInt64) (l : Lives) : Prop where
  starts : World.StartsAfter l.cfg last
  world : l.world.Safe l.cfg last
  upto : ∀ m ∈ l.log, ∃ i ∈ last, key m ≤ i.toNat
  old : ∀ m ∈ l.log, ¬ l.world.broker.IsNew (key m)
  increasing : l.log.Pairwise Before
  confirmed : l.confirmed ⊆ l.log

/-- The next id is above the last one. -/
theorem startsAfter_startingAfter (cfg : Config) {last : Option UInt64} (h : last ≠ some (-1)) :
    World.StartsAfter (cfg.startingAfter last) last := by
  cases last with
  | none => rfl
  | some i =>
    have hne : i.toNat ≠ 2 ^ 64 - 1 := fun heq => h (congrArg some (UInt64.toNat_inj.1 heq))
    have hlt := i.toNat_lt
    show (i + 1).toNat = i.toNat + 1
    rw [UInt64.toNat_add, UInt64.toNat_one]
    omega

variable {cfg : Config} {last : Option UInt64} {l l' : Lives}

theorem safe_first (hlast : last ≠ some (-1)) : (first cfg last).Safe last :=
  ⟨startsAfter_startingAfter cfg hlast, .initial _ _, nofun, nofun, .nil, nofun⟩

/-- What the present life sends is above all that the earlier ones have stored. -/
theorem Safe.log_lt_accepted (h : l.Safe last) {m m' : AccumulatedMessage} (hm : m ∈ l.log)
    (hm' : m' ∈ l.world.producer.accepted) : Before m m' := by
  obtain ⟨i, hi, hle⟩ := h.upto m hm
  exact hle.trans_lt (h.world.last_lt_accepted h.starts hm' hi)

theorem Safe.stored_increasing (h : l.Safe last) : l.stored.Pairwise Before := by
  refine List.pairwise_append.2 ⟨h.increasing, h.world.sound.dedup.stored_increasing, ?_⟩
  intro m hm m' hm'
  exact h.log_lt_accepted hm (h.world.stored m' hm')

/-- A message that a life was told to be confirmed is stored. -/
theorem Safe.confirmed_stored (h : l.Safe last) :
    l.confirmed ++ l.world.producer.confirmed ⊆ l.stored := by
  refine List.append_subset.2 ⟨fun m hm => ?_, fun m hm => ?_⟩
  · exact List.mem_append_left _ (h.confirmed hm)
  · obtain ⟨x, hx, rfl⟩ := List.mem_map.1 hm
    obtain ⟨hx, hc⟩ := List.mem_filter.1 hx
    exact List.mem_append_right _ (h.world.confirmed.handled x hx hc)

/-- Nothing that is stored is new to the broker. -/
theorem Safe.stored_old (h : l.Safe last) :
    ∀ m ∈ l.stored, ¬ l.world.broker.IsNew (key m) := by
  intro m hm
  obtain hm | hm := List.mem_append.1 hm
  · exact h.old m hm
  · exact h.world.sound.dedup.stored_old m hm

/-- The answer of the broker, as a number. -/
theorem Safe.map_last (h : l.Safe last) : l.last.map UInt64.toNat = l.world.broker.highest := by
  unfold Lives.last
  cases hh : l.world.broker.highest with
  | none => rfl
  | some n => exact congrArg some (UInt64.toNat_ofNat_of_lt' (h.world.highest_lt hh))

theorem Safe.restart (h : l.Safe last) (hlast : l.last ≠ some (-1)) (cfg : Config) :
    Safe l.last
      { cfg := cfg.startingAfter l.last
        world := worldInitial (cfg.startingAfter l.last) l.last
        log := l.stored
        confirmed := l.confirmed ++ l.world.producer.confirmed
        late := l.late ++ l.world.unread } := by
  have hhighest : (worldInitial (cfg.startingAfter l.last) l.last).broker.highest =
      l.world.broker.highest := h.map_last
  refine ⟨startsAfter_startingAfter cfg hlast, .initial _ _, fun m hm => ?_, fun m hm => ?_,
    h.stored_increasing, h.confirmed_stored⟩
  · have hold := h.stored_old m hm
    obtain ⟨n, hn, hle⟩ : ∃ n ∈ l.world.broker.highest, key m ≤ n := by
      by_contra hnone
      exact hold fun n hn => Nat.lt_of_not_le fun hle => hnone ⟨n, hn, hle⟩
    rw [← h.map_last] at hn
    obtain ⟨i, hi, rfl⟩ := Option.map_eq_some_iff.1 hn
    exact ⟨i, hi, hle⟩
  · unfold Dedup.IsNew
    rw [hhighest]
    exact h.stored_old m hm

theorem Safe.life (h : l.Safe last) {a : WorldAct} {w : World} (hok : l.world.inOrder l.cfg a = true)
    (hstep : worldStep l.cfg l.world a = some w) : Safe last { l with world := w } := by
  refine ⟨h.starts, h.world.step h.starts hok hstep, h.upto, fun m hm => ?_, h.increasing,
    h.confirmed⟩
  cases a with
  | producer a =>
    simp only [worldStep] at hstep
    split at hstep
    · obtain ⟨s, -, rfl⟩ := Option.map_eq_some_iff.1 hstep
      exact h.old m hm
    · cases hstep
  | receive c =>
    simp only [worldStep] at hstep
    obtain ⟨m', -, rfl⟩ := Option.map_eq_some_iff.1 hstep
    exact Dedup.not_isNew_receive c m' (.inl (h.old m hm))

/-- A late message that is not new changes nothing but the old connection. -/
theorem late_step {j : ℕ} (hsettled : l.settled (.late j) = true)
    (hstep : step l (.late j) = some l') : ∃ late, l' = { l with late := late } := by
  simp only [step] at hstep
  split at hstep
  · rename_i m ms hj
    cases hstep
    have hold : ¬l.world.broker.IsNew (key m) := by simpa [settled, hj] using hsettled
    refine ⟨l.late.set j ms, ?_⟩
    rw [Dedup.take_of_not_isNew hold]
  · cases hstep

theorem safe_step {a : LivesAct} (h : ∃ last, l.Safe last) (hok : l.inOrder a = true)
    (hsettled : l.settled a = true) (hstep : step l a = some l') : ∃ last, l'.Safe last := by
  obtain ⟨last, h⟩ := h
  cases a with
  | life a =>
    obtain ⟨w, hw, rfl⟩ := Option.map_eq_some_iff.1 hstep
    exact ⟨last, h.life hok hw⟩
  | late j =>
    obtain ⟨late, rfl⟩ := late_step hsettled hstep
    exact ⟨last, h.starts, h.world, h.upto, h.old, h.increasing, h.confirmed⟩
  | restart cfg =>
    cases hstep
    exact ⟨l.last, h.restart (of_decide_eq_true hok) cfg⟩

/-- **Exactly once, over all lives.** A producer with a name is started again and again, each of its
lives ends at any point, and each is in order; the broker stores nothing of an earlier life once it has
answered the query of the next one. Then at any time: what the broker has stored, in all lives, is in the
strict order of the publishing ids; each message that any of the lives was told to be confirmed is stored
exactly once; and a message that the present life has accepted has an id above all that the earlier lives
have stored, so that the broker does not take it for an old one. -/
theorem exactlyOnce_over_lives (cfg : Config) (last : Option UInt64) (hlast : last ≠ some (-1))
    (as : List LivesAct) (l : Lives)
    (hok : (machine cfg last).Along (fun l a => l.inOrder a = true ∧ l.settled a = true)
      (first cfg last) as)
    (h : (machine cfg last).run (first cfg last) as = some l) :
    l.stored.Pairwise (fun m m' => m.publishingId < m'.publishingId) ∧
      (∀ m ∈ l.confirmed ++ l.world.producer.confirmed, l.stored.count m = 1) ∧
      ∀ m ∈ l.log, ∀ m' ∈ l.world.producer.accepted, m.publishingId < m'.publishingId := by
  obtain ⟨last', hl⟩ := Machine.run_invariant (P := fun l : Lives => ∃ last, l.Safe last)
    (fun hs hok h => safe_step hs hok.1 hok.2 h) ⟨last, safe_first hlast⟩ hok h
  have hinc := hl.stored_increasing
  have hnodup : l.stored.Nodup :=
    hinc.imp fun {m m'} (hlt : key m < key m') heq => absurd hlt (by simp [heq])
  refine ⟨hinc.imp fun hlt => UInt64.lt_iff_toNat_lt.2 hlt, fun m hm => ?_, fun m hm m' hm' => ?_⟩
  · exact List.count_eq_one_of_mem hnodup (hl.confirmed_stored hm)
  · exact UInt64.lt_iff_toNat_lt.2 (hl.log_lt_accepted hm hm')

def producerActs (as : List Act) : List LivesAct := as.map fun a => .life (.producer a)

/-- A life publishes two messages, of which the broker takes one and confirms it. -/
def oneOfTwo : List LivesAct :=
  producerActs (acceptedSend 0 ++ acceptedSend 1 ++ publishFull 1) ++ [LivesAct.life (.receive 0)] ++
    producerActs [.frame (.confirm 0 7), .frame (.invoke 0)]

/-- The next life begins with the id of the message that was not taken. The broker takes that one when it
has stored the new one, and drops it. -/
def lostMessage : List LivesAct :=
  oneOfTwo ++ [LivesAct.restart pairs] ++
    producerActs (acceptedSend 0 ++ acceptedSend 1 ++ publishFull 1) ++
    [LivesAct.life (.receive 0), .late 0, .life (.receive 0)] ++
    producerActs [.frame (.confirm 0 9), .frame (.invoke 0)]

/-- The broker takes it before the new one, and stores it. -/
def lateMessage : List LivesAct :=
  oneOfTwo ++ [LivesAct.restart pairs, .late 0] ++
    producerActs (acceptedSend 0 ++ acceptedSend 1 ++ publishFull 1) ++
    [LivesAct.life (.receive 0), .life (.receive 0)] ++
    producerActs [.frame (.confirm 0 8), .frame (.invoke 0)]

theorem exactlyOnce_over_lives_lostMessage :
    ∃ l, (machine pairs (some 6)).run (first pairs (some 6)) lostMessage = some l ∧
      l.stored.map key = [7, 8, 9] ∧
      (l.confirmed ++ l.world.producer.confirmed).map key = [7, 9] ∧
      ∀ m ∈ l.confirmed ++ l.world.producer.confirmed, l.stored.count m = 1 := by
  have hok : (machine pairs (some 6)).checkAlong
      (fun l a => l.inOrder a = true ∧ l.settled a = true) (first pairs (some 6)) lostMessage = true := by
    decide +kernel
  have hrun : ((machine pairs (some 6)).run (first pairs (some 6)) lostMessage).any (fun l =>
      decide (l.stored.map key = [7, 8, 9] ∧
        (l.confirmed ++ l.world.producer.confirmed).map key = [7, 9])) = true := by
    decide +kernel
  obtain ⟨l, hl, hafter⟩ := (Option.any_eq_true ..).1 hrun
  obtain ⟨hstored, hconfirmed⟩ := of_decide_eq_true hafter
  refine ⟨l, hl, hstored, hconfirmed, ?_⟩
  exact (exactlyOnce_over_lives pairs (some 6) (by decide) lostMessage l
    (Machine.along_of_check hok) hl).2.1

/-- **A message is confirmed and lost** if the broker stores a late one: the first message of the second
life has the id of the message that was late, and is not stored. -/
theorem confirmed_lost_of_late :
    ∃ l, (machine pairs (some 6)).run (first pairs (some 6)) lateMessage = some l ∧
      (machine pairs (some 6)).Along (fun l a => l.inOrder a = true) (first pairs (some 6))
        lateMessage ∧
      ∃ m ∈ l.world.producer.confirmed, m ∉ l.stored := by
  have hok : (machine pairs (some 6)).checkAlong (fun l a => l.inOrder a = true)
      (first pairs (some 6)) lateMessage = true := by
    decide +kernel
  have hrun : ((machine pairs (some 6)).run (first pairs (some 6)) lateMessage).any (fun l =>
      decide (∃ m ∈ l.world.producer.confirmed, m ∉ l.stored)) = true := by
    decide +kernel
  obtain ⟨l, hl, hlost⟩ := (Option.any_eq_true ..).1 hrun
  exact ⟨l, hl, Machine.along_of_check hok, of_decide_eq_true hlost⟩

end Lives

end Hareflow.Producer
