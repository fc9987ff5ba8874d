import Hareflow.Consumer.Machine
import Mathlib.Data.List.Chain

/-!
# The order of delivery

A broker answers a subscription at an offset with chunks that start at or before it, and any other
subscription from some chunk on. The consumer drops what lies before the offset it asked for, and
after a reconnection asks for the offset after the last one it accepted. So the offsets that reach
the handler are consecutive integers, however often the connection is lost and wherever in a chunk.

`promised` is what the broker and the old clients promise, as a condition on the steps of a run.
`Ordered` is the invariant: it ties `m_initial_offset` and `m_last_seen_offset` to the position of
the newest subscription and to the record of the accepted offsets.
-/

namespace Hareflow.Consumer

open Foundations

/-- The broker may send the offset next: the one after the last, or for a subscription at an offset
one that is not past it. -/
def Subscription.serves (sub : Subscription) (o : ℕ) : Bool :=
  match sub.next, sub.asked with
  | some n, _ => o = n
  | none, .offset k => o ≤ k
  | none, _ => true

/-- A message of the call has not reached the handler yet. -/
def MessagePc.undelivered : MessagePc → Bool
  | .entered _ | .accepted _ _ => true
  | _ => false

/-- The client that subscribed last has no message on its way to the handler. -/
def Feed.quiet (f : Feed) : Bool := f.newest.all fun c => !(f.messages c).undelivered

/-- What is promised of a step: offsets are below 2^64 - 1, the messages of a subscription come in
order, and a new subscription ends the delivery of the old clients. -/
def promised (s : State) : Act → Bool
  | .startQuery (some o) => o < 2 ^ 64 - 1
  | .deliver c o =>
    o < 2 ^ 64 - 1 ∧ s.feed.newest = some c ∧ (s.feed.subscriptions c).all (·.serves o)
  | .startSubscribe | .startThrow true | .reconnectSubscribe | .reconnectRefuse true _ =>
    s.feed.quiet
  | _ => true

/-- The offsets that were passed to the handler are consecutive integers, and the first is the one
that was asked for, if one was. -/
def State.Consecutive (s : State) : Prop :=
  s.feed.handed.IsChain (fun x y => y = x + 1) ∧
    ∀ k, s.feed.effective = some (.offset k) → ∀ o ∈ s.feed.handed.head?, o = k

/-! ## The invariant -/

/-- The offset that the first critical section will see next. -/
def arrival (sub : Subscription) : MessagePc → Option ℕ
  | .entered o => some o
  | _ => sub.next

/-- Accepted and not yet passed to the handler. -/
def MessagePc.unhanded : MessagePc → List ℕ
  | .accepted o _ => [o]
  | _ => []

/-- The offsets that are accepted and not yet passed to the handler. -/
def Feed.unhanded (f : Feed) : List ℕ :=
  match f.newest with
  | some c => (f.messages c).unhanded
  | none => []

/-- The initial offset follows the last one seen. -/
def Cursor.Follows (cur : Cursor) : Prop :=
  match cur.initialOffset with
  | some (.offset k) => ∀ l ∈ cur.lastSeen, k = l + 1
  | some _ => cur.lastSeen = none
  | none => cur.lastSeen ≠ none

/-- The newest subscription is where the cursor expects it: at or before the initial offset, or, once
that is cleared, right after the last offset seen. -/
def Cursor.Awaits (cur : Cursor) (sub : Subscription) (pc : MessagePc) : Prop :=
  match cur.initialOffset with
  | some (.offset k) =>
    match arrival sub pc with
    | some n => n ≤ k
    | none => ∃ k' ≤ k, sub.asked = .offset k'
  | some _ => True
  | none => ∀ l ∈ cur.lastSeen, arrival sub pc = some (l + 1)

/-- The frame thread of the newest subscription. -/
structure Cursor.Serves (cur : Cursor) (sub : Subscription) (pc : MessagePc) : Prop where
  awaits : cur.Awaits sub pc
  entered : ∀ o, pc = .entered o → sub.next = some (o + 1) ∧ o < 2 ^ 64 - 1

structure Ordered (cur : Cursor) (f : Feed) : Prop where
  chain : f.accepted.IsChain fun x y => y = x + 1
  last : cur.lastSeen = f.accepted.getLast?
  bounded : ∀ o ∈ f.accepted, o < 2 ^ 64 - 1
  handed : f.accepted = f.handed ++ f.unhanded
  others : ∀ c, f.newest ≠ some c → (f.messages c).undelivered = false
  follows : cur.Follows
  serves : ∀ c, f.newest = some c →
    ∃ sub, f.subscriptions c = some sub ∧ cur.Serves sub (f.messages c)
  unsubscribed : f.effective = none → f.accepted = [] ∧ f.newest = none
  start : ∀ k, f.effective = some (.offset k) →
    (f.accepted = [] → cur.initialOffset = some (.offset k)) ∧ ∀ o ∈ f.accepted.head?, o = k

/-- The consecutive offsets that were accepted include, first, those that were passed on. -/
theorem Ordered.consecutive {s : State} (h : Ordered s.cursor s.feed) : s.Consecutive := by
  have hchain := h.chain
  rw [h.handed] at hchain
  refine ⟨hchain.left_of_append, fun k hk o ho => (h.start k hk).2 o ?_⟩
  rw [h.handed, List.head?_append, Option.mem_def.1 ho]
  rfl

theorem ordered_initial (cfg : Config) : Ordered (initial cfg).cursor (initial cfg).feed where
  chain := .nil
  last := rfl
  bounded := nofun
  handed := rfl
  others _ _ := rfl
  follows := by
    show Cursor.Follows ⟨some cfg.offsetSpecification, none, 0⟩
    unfold Cursor.Follows
    split
    · exact nofun
    · rfl
    · rename_i hnone
      cases hnone
  serves := nofun
  unsubscribed _ := ⟨rfl, rfl⟩
  start := nofun

/-! ## The operations keep the order -/

theorem nextOffset_of_lt {o : ℕ} (h : o < 2 ^ 64 - 1) : nextOffset o = o + 1 :=
  Nat.mod_eq_of_lt (by omega)

variable {cur : Cursor} {f : Feed} {c o : ℕ}

/-- The count of unpersisted messages has no part in the order. -/
theorem Ordered.setPersist (h : Ordered cur f) (n : ℕ) :
    Ordered { cur with sinceLastPersist := n } f :=
  ⟨h.chain, h.last, h.bounded, h.handed, h.others, h.follows,
    fun c hc => (h.serves c hc).imp fun _ hsub => ⟨hsub.1, hsub.2.awaits, hsub.2.entered⟩,
    h.unsubscribed, h.start⟩

theorem Ordered.setProcessed (h : Ordered cur f) (os : List ℕ) :
    Ordered cur { f with processed := os } :=
  ⟨h.chain, h.last, h.bounded, h.handed, h.others, h.follows, h.serves, h.unsubscribed, h.start⟩

/-- A frame thread with a message under way belongs to the newest subscription. -/
theorem Ordered.newest_of_undelivered (h : Ordered cur f) (hc : (f.messages c).undelivered = true) :
    f.newest = some c := by
  by_contra hne
  rw [h.others c hne] at hc
  cases hc

/-- Before the first subscription, the stored offset replaces the configured one. -/
theorem Ordered.query (h : Ordered cur f) (hf : f.effective = none) (k : ℕ) :
    Ordered { cur with initialOffset := some (.offset k) } f := by
  obtain ⟨hacc, hnew⟩ := h.unsubscribed hf
  have hlast : cur.lastSeen = none := by rw [h.last, hacc]; rfl
  refine ⟨h.chain, h.last, h.bounded, h.handed, h.others, ?_, ?_, h.unsubscribed, ?_⟩
  · intro l hl
    rw [show cur.lastSeen = none from hlast] at hl
    cases hl
  · intro c hc
    rw [hnew] at hc
    cases hc
  · intro k' hk'
    rw [hf] at hk'
    cases hk'

/-- `reconnect_to_server` asks for the offset after the last one seen. -/
theorem Ordered.resume (h : Ordered cur f) : Ordered cur.resume f := by
  unfold Cursor.resume
  split
  case h_2 => exact h
  case h_1 l hl =>
    have hmem : l ∈ f.accepted := List.mem_of_getLast? (h.last ▸ hl)
    rw [nextOffset_of_lt (h.bounded l hmem)]
    refine ⟨h.chain, h.last, h.bounded, h.handed, h.others, ?_, fun c hc => ?_, h.unsubscribed, ?_⟩
    · intro l' hl'
      obtain rfl : l = l' := Option.some.inj (hl.symm.trans hl')
      rfl
    · obtain ⟨sub, hsub, hawaits, hentered⟩ := h.serves c hc
      refine ⟨sub, hsub, ?_, hentered⟩
      have hfollows := h.follows
      unfold Cursor.Awaits at hawaits ⊢
      unfold Cursor.Follows at hfollows
      rw [hl] at hfollows hawaits
      cases hinit : cur.initialOffset with
      | none =>
        simp only [hinit, Option.mem_def, Option.some.injEq, forall_eq'] at hawaits
        simp [hawaits]
      | some spec =>
        rw [hinit] at hfollows hawaits
        cases spec with
        | offset k =>
          obtain rfl : k = l + 1 := hfollows l rfl
          exact hawaits
        | _ => cases hfollows
    · intro k hk
      refine ⟨fun hnil => ?_, (h.start k hk).2⟩
      rw [hnil] at hmem
      cases hmem

/-- A subscription at the initial offset, when no message of the old client is under way. -/
theorem Ordered.subscribe (h : Ordered cur f) (hquiet : f.quiet = true)
    {asked : OffsetSpecification} (hasked : cur.initialOffset = some asked) (c : ℕ) :
    Ordered cur (f.subscribe c asked) := by
  have hall : ∀ c, (f.messages c).undelivered = false := by
    intro c'
    by_cases hc' : f.newest = some c'
    · simpa [Feed.quiet, hc'] using hquiet
    · exact h.others c' hc'
  have hunhanded : ∀ c, (f.messages c).unhanded = [] := by
    intro c'
    have := hall c'
    cases hpc : f.messages c' <;> simp_all [MessagePc.undelivered, MessagePc.unhanded]
  have hhanded : f.unhanded = [] := by
    unfold Feed.unhanded
    split
    · exact hunhanded _
    · rfl
  refine ⟨h.chain, h.last, h.bounded, ?_, fun c' _ => hall c', h.follows, ?_, nofun, ?_⟩
  · rw [show (f.subscribe c asked).unhanded = [] from hunhanded c, ← hhanded]
    exact h.handed
  · rintro c' hc'
    obtain rfl : c = c' := Option.some.inj hc'
    have harrival : arrival ⟨asked, none⟩ (f.messages c) = none := by
      have := hall c
      cases hpc : f.messages c <;> simp_all [MessagePc.undelivered, arrival]
    refine ⟨⟨asked, none⟩, Function.update_self .., ?_, fun o ho => ?_⟩
    · show cur.Awaits ⟨asked, none⟩ (f.messages c)
      unfold Cursor.Awaits
      rw [hasked, harrival]
      cases asked with
      | offset k => exact ⟨k, le_rfl, rfl⟩
      | _ => trivial
    · have := hall c
      rw [show f.messages c = .entered o from ho] at this
      cases this
  · intro k hk
    cases heff : f.effective with
    | some e =>
      have : e = .offset k := by simpa [Feed.subscribe, heff] using hk
      exact h.start k (by rw [heff, this])
    | none =>
      have hak : asked = .offset k := by simpa [Feed.subscribe, heff] using hk
      have hnil : (f.subscribe c asked).accepted = [] := (h.unsubscribed heff).1
      refine ⟨fun _ => by rw [hasked, hak], ?_⟩
      rw [hnil]
      exact nofun

/-- The broker sends the next offset of the newest subscription. -/
theorem Ordered.deliver (h : Ordered cur f) {sub : Subscription} (hnew : f.newest = some c)
    (hpc : f.messages c = .idle) (hsub : f.subscriptions c = some sub)
    (hserves : sub.serves o = true) (ho : o < 2 ^ 64 - 1) : Ordered cur (f.deliver c o sub) := by
  refine ⟨h.chain, h.last, h.bounded, ?_, fun c' hc' => ?_, h.follows, ?_, h.unsubscribed, h.start⟩
  · have hold : f.unhanded = [] := by simp [Feed.unhanded, hnew, hpc, MessagePc.unhanded]
    have : (f.deliver c o sub).unhanded = [] := by
      simp [Feed.unhanded, Feed.deliver, hnew, MessagePc.unhanded]
    rw [this, ← hold]
    exact h.handed
  · have hne : c' ≠ c := by
      rintro rfl
      exact hc' hnew
    show (Function.update f.messages c (.entered o) c').undelivered = false
    rw [Function.update_of_ne hne]
    exact h.others c' hc'
  · intro c' hc'
    obtain rfl : c = c' := Option.some.inj (hnew.symm.trans hc')
    obtain ⟨sub', hsub', hawaits, -⟩ := h.serves c hnew
    obtain rfl : sub = sub' := Option.some.inj (hsub.symm.trans hsub')
    refine ⟨_, Function.update_self .., ?_, fun o' ho' => ?_⟩
    · show cur.Awaits { sub with next := some (o + 1) } (Function.update f.messages c (.entered o) c)
      rw [Function.update_self]
      rw [hpc] at hawaits
      unfold Cursor.Awaits at hawaits ⊢
      simp only [arrival] at hawaits ⊢
      unfold Subscription.serves at hserves
      split at hawaits <;> split at hserves <;> simp_all
      omega
    · obtain rfl : o = o' := MessagePc.entered.inj ((Function.update_self ..).symm.trans ho')
      exact ⟨rfl, ho⟩

/-- The frame thread of the newest subscription moves. -/
theorem Ordered.others_setMessage (h : Ordered cur f) (hnew : f.newest = some c) (pc : MessagePc)
    {c' : ℕ} (hc' : f.newest ≠ some c') :
    ((f.setMessage c pc).messages c').undelivered = false := by
  have hne : c' ≠ c := by
    rintro rfl
    exact hc' hnew
  show (Function.update f.messages c pc c').undelivered = false
  rw [Function.update_of_ne hne]
  exact h.others c' hc'

/-- A message before the initial offset is dropped. -/
theorem Ordered.skip (h : Ordered cur f) (hpc : f.messages c = .entered o)
    (hskip : cur.skips o = true) : Ordered cur (f.setMessage c .idle) := by
  have hnew := h.newest_of_undelivered (by rw [hpc]; rfl)
  refine ⟨h.chain, h.last, h.bounded, ?_, fun c' => h.others_setMessage hnew _, h.follows, ?_,
    h.unsubscribed, h.start⟩
  · have hold : f.unhanded = [] := by simp [Feed.unhanded, hnew, hpc, MessagePc.unhanded]
    have : (f.setMessage c .idle).unhanded = [] := by
      simp [Feed.unhanded, Feed.setMessage, hnew, MessagePc.unhanded]
    rw [this, ← hold]
    exact h.handed
  · intro c' hc'
    obtain rfl : c = c' := Option.some.inj (hnew.symm.trans hc')
    obtain ⟨sub, hsub, -, hentered⟩ := h.serves c hnew
    have hnext := (hentered o hpc).1
    refine ⟨sub, hsub, ?_, fun o' ho' => ?_⟩
    · show cur.Awaits sub (Function.update f.messages c .idle c)
      rw [Function.update_self]
      unfold Cursor.skips at hskip
      unfold Cursor.Awaits
      simp only [arrival, hnext]
      split at hskip
      · rename_i k hk
        rw [hk]
        exact of_decide_eq_true hskip
      · cases hskip
    · cases (Function.update_self ..).symm.trans ho'

/-- A message that is not dropped is the one after the last, or the first. -/
theorem Ordered.accept (h : Ordered cur f) (hpc : f.messages c = .entered o)
    (hskip : cur.skips o = false) (store : Bool) :
    Ordered (cur.accept o)
      { f.setMessage c (.accepted o store) with accepted := f.accepted ++ [o] } := by
  have hnew := h.newest_of_undelivered (by rw [hpc]; rfl)
  obtain ⟨sub, hsub, hawaits, hentered⟩ := h.serves c hnew
  obtain ⟨hnext, hlt⟩ := hentered o hpc
  have hfollows := h.follows
  rw [hpc] at hawaits
  unfold Cursor.Awaits at hawaits
  unfold Cursor.Follows at hfollows
  unfold Cursor.skips at hskip
  simp only [arrival] at hawaits
  -- an initial offset is reached exactly; after that each message follows the last one seen
  have hsucc : ∀ l ∈ cur.lastSeen, o = l + 1 := by
    intro l hl
    split at hawaits
    case h_1 k hk =>
      simp only [hk, decide_eq_false_iff_not] at hskip hfollows
      have := hfollows l hl
      omega
    case h_2 spec hspec hk =>
      rw [hk] at hfollows
      cases spec <;> first | exact absurd rfl (hspec _) | (rw [hfollows] at hl; cases hl)
    case h_3 => exact Option.some.inj (hawaits l hl)
  have hfirst : ∀ k, cur.initialOffset = some (.offset k) → o = k := by
    intro k hk
    simp only [hk, decide_eq_false_iff_not] at hskip hawaits
    omega
  refine ⟨?_, ?_, ?_, ?_, fun c' => h.others_setMessage hnew _, ?_, ?_, ?_, ?_⟩
  · refine h.chain.append (.singleton o) fun x hx y hy => ?_
    obtain rfl : o = y := Option.some.inj hy
    exact hsucc x (h.last ▸ hx)
  · exact (List.getLast?_concat ..).symm
  · intro x hx
    rcases List.mem_append.1 hx with hx | hx
    · exact h.bounded x hx
    · obtain rfl := List.mem_singleton.1 hx
      exact hlt
  · have hold : f.unhanded = [] := by simp [Feed.unhanded, hnew, hpc, MessagePc.unhanded]
    have hhanded := h.handed
    rw [hold, List.append_nil] at hhanded
    show f.accepted ++ [o] = f.handed ++ _
    rw [hhanded]
    simp [Feed.unhanded, Feed.setMessage, hnew, MessagePc.unhanded]
  · exact nofun
  · intro c' hc'
    obtain rfl : c = c' := Option.some.inj (hnew.symm.trans hc')
    refine ⟨sub, hsub, ?_, fun o' ho' => ?_⟩
    · show ∀ l ∈ some o, _ = some (l + 1)
      intro l hl
      obtain rfl : o = l := Option.some.inj hl
      simp [Feed.setMessage, arrival, hnext]
    · cases (Function.update_self ..).symm.trans ho'
  · intro heff
    rw [(h.unsubscribed heff).2] at hnew
    cases hnew
  · intro k hk
    refine ⟨fun hnil => by simp at hnil, fun x hx => ?_⟩
    cases hacc : f.accepted with
    | nil =>
      obtain rfl : o = x := by simpa [hacc] using hx
      exact hfirst k ((h.start k hk).1 hacc)
    | cons y ys =>
      refine (h.start k hk).2 x ?_
      simpa [hacc] using hx

/-- The handler is called with the message that was accepted. -/
theorem Ordered.hand (h : Ordered cur f) {store : Bool} (hpc : f.messages c = .accepted o store) :
    Ordered cur { f.setMessage c (.handling o store) with handed := f.handed ++ [o] } := by
  have hnew := h.newest_of_undelivered (by rw [hpc]; rfl)
  refine ⟨h.chain, h.last, h.bounded, ?_, fun c' => h.others_setMessage hnew _, h.follows, ?_,
    h.unsubscribed, h.start⟩
  · have hold : f.unhanded = [o] := by simp [Feed.unhanded, hnew, hpc, MessagePc.unhanded]
    have hhanded := h.handed
    rw [hold] at hhanded
    show f.accepted = f.handed ++ [o] ++ _
    rw [hhanded]
    simp [Feed.unhanded, Feed.setMessage, hnew, MessagePc.unhanded]
  · intro c' hc'
    obtain rfl : c = c' := Option.some.inj (hnew.symm.trans hc')
    obtain ⟨sub, hsub, hawaits, -⟩ := h.serves c hnew
    rw [hpc] at hawaits
    refine ⟨sub, hsub, ?_, fun o' ho' => ?_⟩
    · show cur.Awaits sub (Function.update f.messages c _ c)
      rw [Function.update_self]
      exact hawaits
    · cases (Function.update_self ..).symm.trans ho'

/-- What a frame thread does after its call of the handler. -/
theorem Ordered.setMessage (h : Ordered cur f) {pc : MessagePc}
    (hold : (f.messages c).undelivered = false) (hpc : pc.undelivered = false) :
    Ordered cur (f.setMessage c pc) := by
  have harrival : ∀ {sub : Subscription} {pc : MessagePc}, pc.undelivered = false →
      arrival sub pc = sub.next := by
    intro sub pc hpc
    cases pc <;> first | rfl | cases hpc
  have hnil : ∀ {pc : MessagePc}, pc.undelivered = false → pc.unhanded = [] := by
    intro pc hpc
    cases pc <;> first | rfl | cases hpc
  refine ⟨h.chain, h.last, h.bounded, ?_, fun c' hc' => ?_, h.follows, ?_, h.unsubscribed, h.start⟩
  · have : (f.setMessage c pc).unhanded = f.unhanded := by
      unfold Feed.unhanded Feed.setMessage
      cases f.newest with
      | none => rfl
      | some c' =>
        by_cases hc' : c' = c
        · subst hc'
          simp [hnil hold, hnil hpc]
        · simp [hc']
    rw [this]
    exact h.handed
  · show (Function.update f.messages c pc c').undelivered = false
    by_cases hcc : c' = c
    · rw [hcc, Function.update_self]
      exact hpc
    · rw [Function.update_of_ne hcc]
      exact h.others c' hc'
  · intro c' hc'
    obtain ⟨sub, hsub, hawaits, hentered⟩ := h.serves c' hc'
    refine ⟨sub, hsub, ?_⟩
    show cur.Serves sub (Function.update f.messages c pc c')
    by_cases hcc : c' = c
    · subst hcc
      rw [Function.update_self]
      refine ⟨?_, fun o ho => by rw [ho] at hpc; cases hpc⟩
      unfold Cursor.Awaits at hawaits ⊢
      rwa [harrival hpc, ← harrival hold]
    · rw [Function.update_of_ne hcc]
      exact ⟨hawaits, hentered⟩

/-! ## Every run -/

/-- `start()` has not subscribed. -/
def StartPc.early : StartPc → Bool
  | .idle | .entered | .stored _ | .started _ | .queried _ => true
  | _ => false

/-- The invariant of the runs in which the promise is kept. -/
structure DeliveryInv (s : State) : Prop where
  ordered : Ordered s.cursor s.feed
  early : s.start.early → s.status ≠ .started ∧ s.feed.effective = none

/-- `start()` has made the first client, or has given up. -/
def StartPc.opened : StartPc → Bool
  | .idle | .entered => false
  | _ => true

section

variable {cfg : Config} {s t : State}

/-- `start()` does not go back, a consumer is started by the last step of `start()`, and it stays
stopped. -/
structure StartMoves (s t : State) : Prop where
  early : t.start.early = true → s.start.early = true
  opened : s.start.opened = true → t.start.opened = true
  returned : (s.status = .started → s.start = .returned) → t.status = .started → t.start = .returned
  stopped : s.status = .stopped → t.status = .stopped

theorem StartMoves.of_eq (hstart : t.start = s.start)
    (hstatus : t.status = s.status ∨ t.status = .stopped) : StartMoves s t := by
  refine ⟨hstart ▸ id, hstart ▸ id, fun h ht => ?_, fun h => ?_⟩
  · obtain hsame | hstopped := hstatus
    · exact hstart.trans (h (hsame ▸ ht))
    · cases hstopped.symm.trans ht
  · exact hstatus.elim (fun hsame => hsame.trans h) id

/-- `start()` goes on with a client, or gives up. It was not at its last point, and so the consumer
is not started. -/
theorem StartMoves.of_running (hpc : s.start ≠ .returned) (hstatus : t.status = s.status)
    (hearly : t.start.early = true → s.start.early = true) (hopened : t.start.opened = true) :
    StartMoves s t :=
  ⟨hearly, fun _ => hopened, fun h ht => absurd (h (hstatus ▸ ht)) hpc, hstatus.trans⟩

theorem StartMoves.of_late (hpc : s.start ≠ .returned) (hstatus : t.status = s.status)
    (hearly : t.start.early = false) (hopened : t.start.opened = true) : StartMoves s t := by
  refine .of_running hpc hstatus (fun h => ?_) hopened
  rw [hearly] at h
  cases h

theorem StartMoves.late (h : StartMoves s t) (hs : s.start.early = false) :
    t.start.early = false := by
  by_contra ht
  rw [h.early (by simpa using ht)] at hs
  cases hs

theorem startMoves_of_step {a : Act} (h : step cfg s a = some t) : StartMoves s t := by
  by_cases ha : a.starts = false
  · obtain ⟨hstart, hstatus, -⟩ := (leaves_of_step h).start ha
    exact .of_eq hstart (.inl hstatus)
  cases a <;> simp only [Act.starts, not_true_eq_false] at ha <;> simp only [step] at h
  case start =>
    split at h
    · rename_i hpc
      split at h <;> cases h
      · rename_i hinit
        refine ⟨fun _ => hpc ▸ rfl, fun hs => ?_, fun _ ht => (by cases ht), fun hst => ?_⟩
        · rw [hpc] at hs
          cases hs
        · cases hinit.symm.trans hst
      · exact .of_late (by simp [hpc]) rfl rfl rfl
    · cases h
  case startStore =>
    split at h <;> cases h
    rename_i hpc
    exact .of_running (by simp [hpc]) rfl (fun _ => hpc ▸ rfl) rfl
  case startClient =>
    split at h <;> cases h
    rename_i hpc
    exact .of_running (by simp [hpc]) rfl (fun _ => hpc ▸ rfl) rfl
  case startQuery stored =>
    (repeat' split at h) <;> cases h
    all_goals exact .of_running (by simp [*]) rfl (fun _ => by simp [*, StartPc.early]) rfl
  case startSubscribe =>
    split at h <;> cases h
    rename_i hpc
    exact .of_late (by simp [hpc]) (by simp) rfl rfl
  case startThrow subscribed =>
    cases subscribed <;> (split at h <;> cases h) <;> rename_i hpc <;>
      exact .of_late (by simp [hpc]) (by simp) rfl rfl
  case startArm =>
    split at h <;> cases h
    rename_i hpc
    exact .of_late (by simp [hpc]) (by simp) rfl rfl
  case startExchange =>
    split at h
    · rename_i c hpc
      split at h <;> cases h
      · rename_i hstarting
        exact ⟨fun ht => (by cases ht), fun _ => rfl, fun _ _ => rfl, fun hst => by
          cases hstarting.symm.trans hst⟩
      · exact .of_late (by simp [hpc]) rfl rfl rfl
    · cases h
  case reconnectSubscribe =>
    (repeat' split at h) <;> cases h
    · exact .of_eq (by simp) (by simp)
    · exact .of_eq rfl (.inl rfl)
  case reconnectRefuse subscribed deleted =>
    cases subscribed <;> ((repeat' split at h) <;> cases h) <;> exact .of_eq (by simp) (by simp)
  case stopExchange k =>
    split at h <;> cases h
    exact .of_eq rfl (.inr rfl)

theorem Ordered.stored (h : Ordered cur f) (ok : Bool) : Ordered (cur.stored ok) f := by
  cases ok with
  | false => exact h
  | true => exact h.setPersist 0

theorem ordered_step {a : Act} (hs : DeliveryInv s) (hok : promised s a = true)
    (h : step cfg s a = some t) : Ordered t.cursor t.feed := by
  have hord := hs.ordered
  cases progress_of_step h with
  | still hcur hfeed hsto =>
    rw [hcur, hfeed]
    exact hord
  | query hpc hcur hfeed hsto =>
    rw [hcur, hfeed]
    exact hord.query (hs.early (by rw [hpc]; rfl)).2 _
  | subscribe ha hpc hpc' hasked hcur hfeed hsto =>
    have hquiet : s.feed.quiet = true := by
      obtain rfl | rfl := ha <;> exact hok
    rw [hcur, hfeed]
    exact hord.subscribe hquiet hasked _
  | resume hstarted hcur hfeed hsto =>
    rw [hcur, hfeed]
    exact hord.resume
  | resubscribe ha hstarted hasked hcur hfeed hsto =>
    have hquiet : s.feed.quiet = true := by
      obtain rfl | ⟨deleted, rfl⟩ := ha <;> exact hok
    rw [hcur, hfeed]
    exact hord.resume.subscribe hquiet hasked _
  | deliver hpc hsub hcur hfeed hsto =>
    simp only [promised, hsub, decide_eq_true_eq] at hok
    rw [hcur, hfeed]
    exact hord.deliver hok.2.1 hpc hsub hok.2.2 hok.1
  | skip hpc hskip hcur hfeed hsto =>
    rw [hcur, hfeed]
    exact hord.skip hpc hskip
  | accept hpc hfree hskip hcur hfeed hsto =>
    rw [hcur, hfeed]
    exact hord.accept hpc hskip _
  | hand hpc hcur hfeed hsto =>
    rw [hcur, hfeed]
    exact hord.hand hpc
  | @handled c o store hpc hcur hfeed hsto =>
    rw [hcur, hfeed]
    refine (hord.setMessage (by rw [hpc]; rfl) ?_).setProcessed _
    cases store <;> rfl
  | threw hpc hcur hfeed hsto =>
    rw [hcur, hfeed]
    exact hord.setMessage (by rw [hpc]; rfl) rfl
  | leave hpc hwhy hcur hfeed hsto =>
    rw [hcur, hfeed]
    exact hord.setMessage (by rw [hpc]; rfl) rfl
  | storeHandled hpc hfreq hclient hcur hfeed hsto =>
    rw [hcur, hfeed]
    exact (hord.setMessage (by rw [hpc]; rfl) rfl).stored _
  | storeOffset hcur hfeed hsto =>
    rw [hcur, hfeed]
    exact hord.stored _
  | persist hlast hpos hnamed hclient hcur hfeed hsto =>
    rw [hcur, hfeed]
    exact hord.stored _
  | stopStore hpc hstops hconf hlast hpos hcur hfeed hsto =>
    rw [hcur, hfeed]
    exact hord

/-- What the first subscription asks for is set when `start()` subscribes, and by
`reconnect_to_server` only of a started consumer. -/
theorem effective_of_step {a : Act} (h : step cfg s a = some t) :
    t.feed.effective = s.feed.effective ∨ t.start.early = false ∨ s.status = .started := by
  cases progress_of_step h with
  | subscribe ha hpc hpc' hasked hcur hfeed hsto =>
    refine .inr (.inl ?_)
    obtain hpc' | hpc' := hpc' <;> rw [hpc'] <;> rfl
  | resubscribe ha hstarted hasked hcur hfeed hsto => exact .inr (.inr hstarted)
  | still hcur hfeed hsto | query hpc hcur hfeed hsto | resume hstarted hcur hfeed hsto
  | deliver hpc hsub hcur hfeed hsto | skip hpc hskip hcur hfeed hsto
  | accept hpc hfree hskip hcur hfeed hsto | hand hpc hcur hfeed hsto
  | handled hpc hcur hfeed hsto | threw hpc hcur hfeed hsto | leave hpc hwhy hcur hfeed hsto
  | storeHandled hpc hfreq hclient hcur hfeed hsto | storeOffset hcur hfeed hsto
  | persist hlast hpos hnamed hclient hcur hfeed hsto
  | stopStore hpc hstops hconf hlast hpos hcur hfeed hsto =>
    rw [hfeed]
    exact .inl rfl

theorem deliveryInv_step {a : Act} (hs : DeliveryInv s) (hok : promised s a = true)
    (h : step cfg s a = some t) : DeliveryInv t := by
  have hmoves := startMoves_of_step h
  refine ⟨ordered_step hs hok h, fun he => ?_⟩
  obtain ⟨hstatus, heff⟩ := hs.early (hmoves.early he)
  constructor
  · intro ht
    rw [hmoves.returned (fun hst => absurd hst hstatus) ht] at he
    cases he
  · obtain hsame | hlate | hstarted := effective_of_step h
    · exact hsame.trans heff
    · rw [hlate] at he
      cases he
    · exact absurd hstarted hstatus

end

/-- **The handler gets each offset once and misses none**: in every run in which the broker and the
old clients keep their promise, the offsets passed to the message handler are consecutive integers,
and start at the offset that was asked for, if one was. -/
theorem consecutive_of_run (cfg : Config) {s t : State} {as : List Act} (h0 : (machine cfg).Init s)
    (hok : (machine cfg).Along (fun s a => promised s a = true) s as)
    (h : (machine cfg).run s as = some t) : t.Consecutive := by
  have hinit : ∀ {s}, (machine cfg).Init s → DeliveryInv s := by
    rintro s rfl
    exact ⟨ordered_initial cfg, fun _ => ⟨nofun, rfl⟩⟩
  exact (Machine.invariant_along hinit deliveryInv_step h0 hok h).ordered.consecutive

/-- A consumer without a name that starts at offset 5. -/
def fromFive : Config := ⟨false, .offset 5, none⟩

/-- The broker answers with a chunk that starts at 4, the connection is lost after 5, and the new
subscription goes on with 6. -/
def lossInsideChunk : List Act :=
  [.start, .startStore, .startClient, .startQuery none, .startSubscribe, .startArm, .startExchange,
    .deliver 0 4, .accept 0, .deliver 0 5, .accept 0, .hand 0, .handled 0, .shutdown 0,
    .shutdownHandle 0, .tickReconnect .strand, .reconnect, .reconnectCheck, .reconnectCreate,
    .reconnectClient, .reconnectSubscribe, .deliver 1 4, .accept 1, .deliver 1 5, .accept 1,
    .deliver 1 6, .accept 1, .hand 1]

/-- The theorem at that run: offset 5 is not handed over twice. -/
theorem consecutive_of_lossInsideChunk :
    ∃ t, (machine fromFive).run (initial fromFive) lossInsideChunk = some t ∧
      t.feed.handed = [5, 6] ∧ t.Consecutive := by
  have hok : (machine fromFive).checkAlong (fun s a => promised s a = true) (initial fromFive)
      lossInsideChunk = true := rfl
  exact ⟨_, rfl, rfl, consecutive_of_run fromFive rfl (Machine.along_of_check hok) rfl⟩

end Hareflow.Consumer
