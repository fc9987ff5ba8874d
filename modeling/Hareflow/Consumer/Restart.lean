import Hareflow.Consumer.Delivery
import Hareflow.Consumer.Persistence

/-!
# A consumer that is started again

The broker keeps one offset under the name of a consumer. `start()` asks for it and subscribes at the
offset after it; while the consumer runs, offsets are stored. A process that ends, at any point,
leaves the stored offset behind, and the next process with a consumer of the same name goes on from
there.

`World` is the broker's side of a consumer and its lives, one after the other. A call of
`store_offset` only writes a frame: it may reach the broker late, after frames that were written later
or in a later life, or never. So the broker may take over any offset that was ever sent, at any time,
and the stored offset may go back.
-/

namespace Hareflow.Consumer

open Foundations

/-! ## What a life begins with -/

/-- `start()` has not got the answer of `query_offset`. -/
def StartPc.unanswered : StartPc → Bool
  | .idle | .entered | .stored _ | .started _ => true
  | _ => false

/-- `start()` has subscribed, and has not thrown. -/
def StartPc.hasSubscribed : StartPc → Bool
  | .subscribed _ | .armed _ | .returned => true
  | _ => false

/-- The answer of `query_offset`. -/
def Act.queries : Act → Bool
  | .startQuery _ => true
  | _ => false

/-- A life whose query is answered such that it begins at the offset `base`. -/
structure State.Begins (cfg : Config) (base : ℕ) (s : State) : Prop where
  unanswered : s.start.unanswered = true → s.cursor.initialOffset = some cfg.offsetSpecification
  queried : ∀ c, s.start = .queried c → s.cursor.initialOffset = some (.offset base)
  asked : ∀ spec ∈ s.feed.effective, spec = .offset base
  subscribed : s.start.hasSubscribed = true → s.feed.effective ≠ none
  returned : s.status = .started → s.start = .returned

section

variable {cfg : Config} {s t : State} {a : Act} {base : ℕ}

theorem begins_initial (cfg : Config) (base : ℕ) : (initial cfg).Begins cfg base where
  unanswered _ := rfl
  queried := nofun
  asked := nofun
  subscribed := nofun
  returned := nofun

theorem StartPc.early_of_unanswered {pc : StartPc} (h : pc.unanswered = true) : pc.early = true := by
  cases pc <;> first | rfl | cases h

/-- Before the first subscription only the answer of the query changes the initial offset. -/
theorem initialOffset_of_early (hs : DeliveryInv s) (hearly : s.start.early = true)
    (ha : a.queries = false) (h : step cfg s a = some t) :
    t.cursor.initialOffset = s.cursor.initialOffset := by
  obtain ⟨hstatus, heff⟩ := hs.early hearly
  cases progress_of_step h with
  | query hpc hcur hfeed hsto => cases ha
  | resume hstarted hcur hfeed hsto => exact absurd hstarted hstatus
  | resubscribe ha hstarted hasked hcur hfeed hsto => exact absurd hstarted hstatus
  | accept hpc hfree hskip hcur hfeed hsto =>
    -- no frame thread has a message, since there is no subscription
    have hnew := hs.ordered.newest_of_undelivered (by rw [hpc]; rfl)
    rw [(hs.ordered.unsubscribed heff).2] at hnew
    cases hnew
  | subscribe ha hpc hpc' hasked hcur hfeed hsto => rw [hcur]
  | storeHandled hpc hfreq hclient hcur hfeed hsto => rw [hcur, Cursor.stored_initialOffset]
  | storeOffset hcur hfeed hsto => rw [hcur, Cursor.stored_initialOffset]
  | persist hlast hpos hnamed hclient hcur hfeed hsto => rw [hcur, Cursor.stored_initialOffset]
  | _ =>
    rename_i hcur _ _
    rw [hcur]

/-- What the first subscription asks for stays, and it asks for the initial offset. -/
theorem asked_of_step (hs : DeliveryInv s) (hb : s.Begins cfg base) (h : step cfg s a = some t) :
    (∀ spec ∈ t.feed.effective, spec = .offset base) ∧
      (s.feed.effective ≠ none → t.feed.effective ≠ none) := by
  cases progress_of_step h with
  | subscribe ha hpc hpc' hasked hcur hfeed hsto =>
    have heff := (hs.early (by rw [hpc]; rfl)).2
    have hinit := hb.queried _ hpc
    rw [hasked] at hinit
    obtain rfl := Option.some.inj hinit
    simp [hfeed, Feed.subscribe, heff]
  | resubscribe ha hstarted hasked hcur hfeed hsto =>
    obtain ⟨spec, hspec⟩ := Option.ne_none_iff_exists'.1
      (hb.subscribed (by rw [hb.returned hstarted]; rfl))
    obtain rfl := hb.asked spec hspec
    simp [hfeed, Feed.subscribe, hspec]
  | still hcur hfeed hsto | query hpc hcur hfeed hsto | resume hstarted hcur hfeed hsto
  | deliver hpc hsub hcur hfeed hsto | skip hpc hskip hcur hfeed hsto
  | accept hpc hfree hskip hcur hfeed hsto | hand hpc hcur hfeed hsto
  | handled hpc hcur hfeed hsto | threw hpc hcur hfeed hsto | leave hpc hwhy hcur hfeed hsto
  | storeHandled hpc hfreq hclient hcur hfeed hsto | storeOffset hcur hfeed hsto
  | persist hlast hpos hnamed hclient hcur hfeed hsto
  | stopStore hpc hstops hconf hlast hpos hcur hfeed hsto =>
    rw [hfeed]
    exact ⟨hb.asked, id⟩

/-- How the point of `start()` moves, as far as its query and its subscription are concerned. -/
structure AnswerMoves (a : Act) (s t : State) : Prop where
  unanswered : t.start.unanswered = true → s.start.unanswered = true ∧ a.queries = false
  queried : ∀ c, t.start = .queried c → s.start = .queried c ∨ a.queries = true
  subscribed : t.start.hasSubscribed = true → s.start.hasSubscribed = true ∨ t.feed.effective ≠ none

theorem AnswerMoves.of_eq (hstart : t.start = s.start) (ha : a.queries = false) :
    AnswerMoves a s t :=
  ⟨fun h => ⟨hstart ▸ h, ha⟩, fun _ h => .inl (hstart ▸ h), fun h => .inl (hstart ▸ h)⟩

/-- `start()` moves to a point before its query. -/
theorem AnswerMoves.of_unanswered (hs : s.start.unanswered = true) (ht : t.start.unanswered = true)
    (ha : a.queries = false) : AnswerMoves a s t := by
  refine ⟨fun _ => ⟨hs, ha⟩, fun c hc => ?_, fun hsub => ?_⟩
  · rw [hc] at ht
    cases ht
  · cases hpc : t.start <;> rw [hpc] at ht hsub <;>
      first | (cases ht; done) | cases hsub

/-- `start()` moves to a point after its query. -/
theorem AnswerMoves.of_answered (ht : t.start.early = false)
    (hsub : t.start.hasSubscribed = true → s.start.hasSubscribed = true ∨ t.feed.effective ≠ none) :
    AnswerMoves a s t := by
  refine ⟨fun hun => ?_, fun c hc => ?_, hsub⟩
  · rw [StartPc.early_of_unanswered hun] at ht
    cases ht
  · rw [hc] at ht
    cases ht

theorem answerMoves_of_step (hb : s.Begins cfg base) (h : step cfg s a = some t) :
    AnswerMoves a s t := by
  by_cases ha : a.starts = false
  · obtain ⟨hstart, -, -⟩ := (leaves_of_step h).start ha
    refine .of_eq hstart ?_
    cases a <;> first | rfl | cases ha
  cases a <;> simp only [Act.starts, not_true_eq_false] at ha <;> simp only [step] at h
  case start =>
    split at h
    · rename_i hpc
      split at h <;> cases h
      · exact .of_unanswered (by rw [hpc]; rfl) rfl rfl
      · exact .of_answered rfl (by simp [StartPc.hasSubscribed])
    · cases h
  case startStore | startClient =>
    split at h <;> cases h
    rename_i hpc
    exact .of_unanswered (by rw [hpc]; rfl) rfl rfl
  case startQuery stored =>
    (repeat' split at h) <;> cases h
    all_goals
      exact ⟨by simp [StartPc.unanswered], fun _ _ => .inr rfl, by simp [StartPc.hasSubscribed]⟩
  case startSubscribe =>
    split at h <;> cases h
    rename_i c hpc
    refine .of_answered rfl fun _ => .inr ?_
    simp [State.subscribe, hb.queried c hpc, Feed.subscribe]
  case startThrow subscribed =>
    split at h <;> cases h <;> exact .of_answered rfl (by simp [StartPc.hasSubscribed])
  case startArm | startExchange =>
    (repeat' split at h) <;> cases h
    all_goals exact .of_answered rfl fun _ => .inl (by simp [*, StartPc.hasSubscribed])
  case reconnectSubscribe =>
    (repeat' split at h) <;> cases h
    · exact .of_eq (by simp) rfl
    · exact .of_eq rfl rfl
  case reconnectRefuse subscribed deleted =>
    cases subscribed <;> ((repeat' split at h) <;> cases h) <;> exact .of_eq (by simp) rfl
  case stopExchange k =>
    split at h <;> cases h
    exact .of_eq rfl rfl

theorem begins_step (hs : DeliveryInv s) (hb : s.Begins cfg base)
    (hanswer : a.queries = true → t.cursor.initialOffset = some (.offset base))
    (h : step cfg s a = some t) : t.Begins cfg base := by
  have hmoves := answerMoves_of_step hb h
  obtain ⟨hasked, hkept⟩ := asked_of_step hs hb h
  refine ⟨fun hpc => ?_, fun c hpc => ?_, hasked, fun hpc => ?_,
    (startMoves_of_step h).returned hb.returned⟩
  · obtain ⟨hpc, ha⟩ := hmoves.unanswered hpc
    rw [initialOffset_of_early hs (StartPc.early_of_unanswered hpc) ha h]
    exact hb.unanswered hpc
  · cases ha : a.queries with
    | true => exact hanswer ha
    | false =>
      have hpc := (hmoves.queried c hpc).resolve_right (by simp [ha])
      rw [initialOffset_of_early hs (by rw [hpc]; rfl) ha h]
      exact hb.queried c hpc
  · exact (hmoves.subscribed hpc).elim (fun hpc => hkept (hb.subscribed hpc)) id

end

/-! ## What a life processes -/

/-- Offsets in a row. -/
theorem mem_of_isChain_succ {x o : ℕ} : ∀ {xs : List ℕ} {y : ℕ},
    (y :: xs).IsChain (fun x y => y = x + 1) → x ∈ y :: xs → y ≤ o → o ≤ x → o ∈ y :: xs
  | [], y, _, hx, hy, ho => by
    obtain rfl := List.mem_singleton.1 hx
    exact List.mem_singleton.2 (Nat.le_antisymm ho hy)
  | z :: xs, y, hchain, hx, hy, ho => by
    obtain ⟨hz, hrest⟩ := List.isChain_cons_cons.1 hchain
    obtain rfl | hlt := hy.eq_or_lt
    · exact List.mem_cons_self
    · obtain rfl | hx := List.mem_cons.1 hx
      · omega
      · exact List.mem_cons_of_mem _ (mem_of_isChain_succ hrest hx (by omega) ho)

/-- No message handler throws, the user stores only offsets of messages that were processed, and the
consumer stores the last seen offset only when its handler has returned. -/
def careful (cfg : Config) (s : State) : Act → Bool
  | .storeOffset o _ => o ∈ s.feed.processed
  | a => sequential s a && settled cfg s a && returns a

theorem tidy_careful {cfg : Config} {s t : State} {a : Act} (hs : Tidy s.cursor s.feed s.stores)
    (hok : careful cfg s a = true) (h : step cfg s a = some t) :
    Tidy t.cursor t.feed t.stores := by
  by_cases ha : ∃ o ok, a = .storeOffset o ok
  · obtain ⟨o, ok, rfl⟩ := ha
    cases progress_of_step h with
    | still hcur hfeed hsto =>
      rw [hcur, hfeed, hsto]
      exact hs
    | storeOffset hcur hfeed hsto =>
      rw [hcur, hfeed, hsto]
      exact (hs.store (of_decide_eq_true hok) ok).setCursor (by simp)
    | subscribe ha => simp at ha
    | resume hstarted hcur hfeed hsto =>
      rw [hcur, hfeed, hsto]
      exact hs.setCursor s.cursor.resume_lastSeen
    | resubscribe ha => simp at ha
  · have hok : (sequential s a = true ∧ settled cfg s a = true) ∧ returns a = true := by
      unfold careful at hok
      split at hok
      · exact absurd ⟨_, _, rfl⟩ ha
      · simpa using hok
    exact tidy_step hs hok.1.1 hok.1.2 hok.2 h

/-- A life: it began at `base`, and its messages come in order and are stored with care. -/
structure Life (cfg : Config) (base : ℕ) (s : State) : Prop where
  delivery : DeliveryInv s
  tidy : Tidy s.cursor s.feed s.stores
  begins : s.Begins cfg base

namespace Life

variable {cfg : Config} {base : ℕ} {s t : State}

theorem initial (cfg : Config) (base : ℕ) : Life cfg base (initial cfg) where
  delivery := ⟨ordered_initial cfg, fun _ => ⟨by simp [Consumer.initial], rfl⟩⟩
  tidy := tidy_initial cfg
  begins := begins_initial cfg base

/-- Consecutive offsets, from the base on. -/
theorem processed (h : Life cfg base s) :
    s.feed.processed.IsChain (fun x y => y = x + 1) ∧ ∀ o ∈ s.feed.processed.head?, o = base := by
  have hacc := h.tidy.processed
  have hchain := h.delivery.ordered.chain
  rw [hacc] at hchain
  refine ⟨hchain.left_of_append, fun o ho => ?_⟩
  have hhead : o ∈ s.feed.accepted.head? := by
    rw [hacc, List.head?_append, Option.mem_def.1 ho]
    rfl
  cases heff : s.feed.effective with
  | none =>
    rw [(h.delivery.ordered.unsubscribed heff).1] at hhead
    cases hhead
  | some spec =>
    obtain rfl := h.begins.asked spec heff
    exact (h.delivery.ordered.start base heff).2 o hhead

theorem mem_processed (h : Life cfg base s) {x o : ℕ} (hx : x ∈ s.feed.processed) (hb : base ≤ o)
    (ho : o ≤ x) : o ∈ s.feed.processed := by
  obtain ⟨hchain, hhead⟩ := h.processed
  cases hp : s.feed.processed with
  | nil =>
    rw [hp] at hx
    cases hx
  | cons y ys =>
    rw [hp] at hchain hhead hx
    obtain rfl : y = base := hhead y rfl
    exact mem_of_isChain_succ hchain hx hb ho

/-- Nothing is processed before the query is answered. -/
theorem processed_of_early (h : Life cfg base s) (hearly : s.start.early = true) :
    s.feed.processed = [] := by
  have hacc := h.tidy.processed
  rw [(h.delivery.ordered.unsubscribed (h.delivery.early hearly).2).1] at hacc
  exact (List.append_eq_nil_iff.1 hacc.symm).1

/-- Until the query is answered, the base is open. -/
theorem rebase (h : Life cfg base s) (hpc : s.start.unanswered = true) (base' : ℕ) :
    Life cfg base' s := by
  have hearly := StartPc.early_of_unanswered hpc
  refine ⟨h.delivery, h.tidy, h.begins.unanswered, fun c hc => ?_, fun spec hspec => ?_,
    h.begins.subscribed, h.begins.returned⟩
  · rw [hc] at hpc
    cases hpc
  · rw [(h.delivery.early hearly).2] at hspec
    cases hspec

theorem step {a : Act} (h : Life cfg base s) (hpromised : promised s a = true)
    (hcareful : careful cfg s a = true)
    (hanswer : a.queries = true → t.cursor.initialOffset = some (.offset base))
    (hstep : Consumer.step cfg s a = some t) : Life cfg base t where
  delivery := deliveryInv_step h.delivery hpromised hstep
  tidy := tidy_careful h.tidy hcareful hstep
  begins := begins_step h.delivery h.begins hanswer hstep

end Life

/-- A message that was processed stays processed. -/
theorem processed_subset_of_step {cfg : Config} {s t : State} {a : Act} (h : step cfg s a = some t) :
    s.feed.processed ⊆ t.feed.processed := by
  cases progress_of_step h with
  | handled hpc hcur hfeed hsto =>
    rw [hfeed]
    exact List.subset_append_left ..
  | still hcur hfeed hsto | query hpc hcur hfeed hsto | resume hstarted hcur hfeed hsto
  | subscribe ha hpc hpc' hasked hcur hfeed hsto | resubscribe ha hstarted hasked hcur hfeed hsto
  | deliver hpc hsub hcur hfeed hsto | skip hpc hskip hcur hfeed hsto
  | accept hpc hfree hskip hcur hfeed hsto | hand hpc hcur hfeed hsto
  | threw hpc hcur hfeed hsto | leave hpc hwhy hcur hfeed hsto
  | storeHandled hpc hfreq hclient hcur hfeed hsto | storeOffset hcur hfeed hsto
  | persist hlast hpos hnamed hclient hcur hfeed hsto
  | stopStore hpc hstops hconf hlast hpos hcur hfeed hsto =>
    rw [hfeed]
    exact fun _ => id

/-- What the answer of `query_offset` does. -/
theorem startQuery_of_step {cfg : Config} {s t : State} {stored : Option ℕ}
    (h : step cfg s (.startQuery stored) = some t) :
    s.start.unanswered = true ∧ t.feed = s.feed ∧ (stored = none → t.cursor = s.cursor) ∧
      ∀ o ∈ stored, t.cursor.initialOffset = some (.offset (nextOffset o)) := by
  simp only [step] at h
  split at h
  · rename_i hpc
    cases h
    exact ⟨by simp [hpc, StartPc.unanswered], rfl, fun _ => rfl, by simp⟩
  · rename_i hpc
    split at h <;> cases h
    exact ⟨by simp [hpc, StartPc.unanswered], rfl, by simp, by simp⟩
  · cases h

/-! ## The lives of a consumer -/

/-- The broker's side of a consumer, its earlier lives and the present one. -/
structure World where
  /-- The offset that the broker keeps under the name of the consumer. -/
  stored : Option ℕ
  /-- The offsets that earlier lives have sent to the broker. -/
  sent : List ℕ
  /-- The offsets that earlier lives have processed. -/
  past : List ℕ
  /-- What the broker has answered the present life. -/
  answer : Option ℕ
  consumer : State

inductive WorldAct
  /-- A step of the consumer. -/
  | consumer (a : Act)
  /-- An offset that was sent arrives at the broker. -/
  | arrive (o : ℕ)
  /-- The process ends, and a new one constructs its consumer. -/
  | restart
  deriving DecidableEq, Repr

namespace World

/-- What `query_offset` answers; it is not called without a name. -/
def found (cfg : Config) (w : World) : Option ℕ := if cfg.named then w.stored else none

/-- The offsets that the life has sent to the broker, whether or not the call has succeeded. -/
def sending (w : World) : List ℕ := w.consumer.stores.map Prod.fst

/-- The offsets that any of the lives has processed. -/
def processed (w : World) : List ℕ := w.past ++ w.consumer.feed.processed

/-- The first offset of the life, when the offset specification of the consumer is `k`. -/
def base (k : ℕ) (w : World) : ℕ :=
  match w.answer with
  | some o => o + 1
  | none => k

def step (cfg : Config) (w : World) : WorldAct → Option World
  | .consumer (.startQuery stored) =>
    if stored = w.found cfg then
      (Consumer.step cfg w.consumer (.startQuery stored)).map fun s =>
        { w with answer := stored, consumer := s }
    else none
  | .consumer a => (Consumer.step cfg w.consumer a).map fun s => { w with consumer := s }
  | .arrive o =>
    if o ∈ w.sent ++ w.sending then some { w with stored := some o } else none
  | .restart =>
    some
      { w with
        sent := w.sent ++ w.sending
        past := w.processed
        answer := none
        consumer := initial cfg }

/-- Before the first life, with what the broker has under the name. -/
def first (cfg : Config) (stored : Option ℕ) : World := ⟨stored, [], [], none, initial cfg⟩

def machine (cfg : Config) (stored : Option ℕ) : Machine World WorldAct :=
  ⟨(· = first cfg stored), step cfg⟩

/-- The broker keeps its promises, and offsets are stored with care. -/
def careful (cfg : Config) (w : World) : WorldAct → Bool
  | .consumer a => promised w.consumer a && Consumer.careful cfg w.consumer a
  | _ => true

/-- All offsets from `k` to `x` are among `os`. -/
def Covers (k : ℕ) (os : List ℕ) (x : ℕ) : Prop := ∀ o, k ≤ o → o ≤ x → o ∈ os

theorem Covers.mono {k x : ℕ} {os os' : List ℕ} (h : Covers k os x) (hsub : os ⊆ os') :
    Covers k os' x :=
  fun o hk ho => hsub (h o hk ho)

/-- Everything before the present life's base is done, and so is everything before an offset that the
broker has or may yet get. -/
structure Inv (cfg : Config) (k : ℕ) (w : World) : Prop where
  life : Life cfg (w.base k) w.consumer
  known : w.found cfg = none → cfg.offsetSpecification = .offset k
  before : ∀ o, k ≤ o → o < w.base k → o ∈ w.past
  past : ∀ x ∈ w.past, Covers k w.past x
  sent : ∀ x ∈ w.sent, Covers k w.past x
  found : ∀ x ∈ w.found cfg, Covers k w.processed x

section

variable {cfg : Config} {k : ℕ} {w w' : World}

/-- What the present life has processed leaves no gap. -/
theorem Inv.covers (h : Inv cfg k w) {x : ℕ} (hx : x ∈ w.consumer.feed.processed) :
    Covers k w.processed x := by
  intro o hk ho
  rw [processed, List.mem_append]
  by_cases hb : o < w.base k
  · exact .inl (h.before o hk hb)
  · exact .inr (h.life.mem_processed hx (Nat.not_lt.1 hb) ho)

theorem Inv.covers_processed (h : Inv cfg k w) {x : ℕ} (hx : x ∈ w.processed) :
    Covers k w.processed x := by
  obtain hx | hx := List.mem_append.1 hx
  · exact (h.past x hx).mono (List.subset_append_left ..)
  · exact h.covers hx

/-- Whatever the broker may get leaves no gap. -/
theorem Inv.covers_sent (h : Inv cfg k w) {x : ℕ} (hx : x ∈ w.sent ++ w.sending) :
    Covers k w.processed x := by
  obtain hx | hx := List.mem_append.1 hx
  · exact (h.sent x hx).mono (List.subset_append_left ..)
  · obtain ⟨p, hp, rfl⟩ := List.mem_map.1 hx
    exact h.covers (h.life.tidy.stored p hp)

/-- The answer of the broker is where the life begins. -/
theorem Inv.query (h : Inv cfg k w) {stored : Option ℕ} {s : State}
    (hok : careful cfg w (.consumer (.startQuery stored)) = true) (hstored : stored = w.found cfg)
    (hstep : Consumer.step cfg w.consumer (.startQuery stored) = some s) :
    Inv cfg k { w with answer := stored, consumer := s } := by
  simp only [careful, Bool.and_eq_true] at hok
  obtain ⟨hpc, hfeed, hnone, hsome⟩ := startQuery_of_step hstep
  have hnil := h.life.processed_of_early (StartPc.early_of_unanswered hpc)
  have hprocessed : processed { w with answer := stored, consumer := s } = w.processed := by
    simp [processed, hfeed]
  refine ⟨(h.life.rebase hpc _).step hok.1 hok.2 (fun _ => ?_) hstep, h.known, fun o hk hlt => ?_,
    h.past, h.sent, fun x hx => ?_⟩
  · cases hs : stored with
    | none =>
      show s.cursor.initialOffset = some (.offset k)
      rw [hnone hs, h.life.begins.unanswered hpc, h.known (hstored.symm.trans hs)]
    | some x =>
      rw [hs] at hok
      rw [hsome x hs, nextOffset_of_lt (of_decide_eq_true hok.1)]
      rfl
  · cases hs : stored with
    | none =>
      rw [hs] at hlt
      exact absurd hlt (Nat.not_lt.2 hk)
    | some x =>
      rw [hs] at hlt hstored
      have hmem := h.found x hstored.symm o hk (Nat.le_of_lt_succ hlt)
      rwa [processed, hnil, List.append_nil] at hmem
  · rw [hprocessed]
    exact h.found x hx

/-- Any other step of the consumer. -/
theorem Inv.consumer (h : Inv cfg k w) {a : Act} {s : State} (ha : a.queries = false)
    (hok : careful cfg w (.consumer a) = true) (hstep : Consumer.step cfg w.consumer a = some s) :
    Inv cfg k { w with consumer := s } := by
  simp only [careful, Bool.and_eq_true] at hok
  have hsub := processed_subset_of_step hstep
  refine ⟨h.life.step hok.1 hok.2 (by simp [ha]) hstep, h.known, h.before, h.past, h.sent,
    fun x hx => (h.found x hx).mono ?_⟩
  exact List.append_subset.2
    ⟨List.subset_append_left .., List.Subset.trans hsub (List.subset_append_right ..)⟩

theorem Inv.arrive (h : Inv cfg k w) {o : ℕ} (ho : o ∈ w.sent ++ w.sending) :
    Inv cfg k { w with stored := some o } := by
  refine ⟨h.life, fun hnone => ?_, h.before, h.past, h.sent, fun x hx => ?_⟩
  · refine h.known ?_
    unfold World.found at hnone ⊢
    split at hnone
    · cases hnone
    · rename_i hn
      rw [if_neg hn]
  · unfold World.found at hx
    split at hx
    · obtain rfl := Option.some.inj hx
      exact h.covers_sent ho
    · cases hx

theorem Inv.restart (h : Inv cfg k w) :
    Inv cfg k ⟨w.stored, w.sent ++ w.sending, w.processed, none, initial cfg⟩ := by
  refine ⟨.initial cfg _, h.known, fun o ho hlt => absurd hlt (Nat.not_lt.2 ho),
    fun x hx => h.covers_processed hx, fun x hx => h.covers_sent hx, fun x hx => ?_⟩
  exact (h.found x hx).mono (List.subset_append_left ..)

theorem inv_step {a : WorldAct} (h : Inv cfg k w) (hok : careful cfg w a = true)
    (hstep : step cfg w a = some w') : Inv cfg k w' := by
  unfold step at hstep
  split at hstep
  · split at hstep
    · rename_i hstored
      obtain ⟨s, hs, rfl⟩ := Option.map_eq_some_iff.1 hstep
      exact h.query hok hstored hs
    · cases hstep
  · rename_i a ha
    obtain ⟨s, hs, rfl⟩ := Option.map_eq_some_iff.1 hstep
    refine h.consumer ?_ hok hs
    cases a <;> first | rfl | exact absurd rfl (ha _)
  · split at hstep <;> cases hstep
    rename_i ho
    exact h.arrive ho
  · cases hstep
    exact h.restart

/-- The start of a life, up to the subscription. -/
def opening (stored : Option ℕ) : List WorldAct :=
  [.consumer .start, .consumer .startStore, .consumer .startClient, .consumer (.startQuery stored),
    .consumer .startSubscribe]

/-- A message is delivered and processed. -/
def process (o : ℕ) : List WorldAct :=
  [.consumer (.deliver 0 o), .consumer (.accept 0), .consumer (.hand 0), .consumer (.handled 0)]

end

end World

end Hareflow.Consumer
