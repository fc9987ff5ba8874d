import Hareflow.Environment.Operation
import Hareflow.Wire.ServerCommands

/-!
# The broker of a producer or a consumer

A producer connects to the leader of its stream, a consumer to one of its replicas, or to the leader if
there are none. `get_producer_client` and `get_consumer_client` ask the locator for the metadata of the
stream, through `locator_operation`. The response numbers the brokers by references and has the leader
and the replicas of each stream as such numbers; `metadata()` resolves them.

The response is any response: references may be missing or listed twice, streams may be listed twice,
or be others than the one that was asked for. `Chosen` says what an answer comes to in its own terms,
and `Ends` what the last attempt comes to.
-/

namespace Hareflow.Environment.Routing

open Foundations
open Wire (Bytes)

/-- `Broker`, whose constructor without arguments leaves the port unset. -/
structure Broker where
  host : Bytes := []
  port : Option UInt16 := none
  deriving DecidableEq, Repr

structure StreamMetadata where
  streamName : Bytes
  responseCode : ResponseCode
  leader : Broker
  replicas : List Broker
  deriving DecidableEq, Repr

/-! ## Metadata -/

/-- The entry that `metadata()` makes of a broker of the response. -/
def entry (b : Wire.Broker) : UInt16 × Broker := (b.reference, ⟨b.host, some b.port.toUInt16⟩)

/-- `std::map::at`, which throws if there is no such reference. -/
def brokerAt (brokers : List (UInt16 × Broker)) (reference : UInt16) : Option Broker :=
  (brokers.find? fun e => e.1 = reference).map Prod.snd

/-- `std::map::try_emplace`. -/
def tryEmplace (brokers : List (UInt16 × Broker)) (b : Wire.Broker) : List (UInt16 × Broker) :=
  if (brokerAt brokers b.reference).isSome then brokers else brokers ++ [entry b]

/-- The loop over the replicas. -/
def resolveReplicas (brokers : List (UInt16 × Broker)) : List UInt16 → Option (List Broker)
  | [] => some []
  | r :: rs => (brokerAt brokers r).bind fun b => (resolveReplicas brokers rs).map (b :: ·)

/-- The body of the loop over the streams, up to `emplace`. -/
def resolve (brokers : List (UInt16 × Broker)) (m : Wire.StreamMetadata) : Option StreamMetadata :=
  if (⟨m.code⟩ : ResponseCode) = .ok then
    (brokerAt brokers m.leader).bind fun leader =>
      (resolveReplicas brokers m.replicas).map fun replicas =>
        ⟨m.streamName, ⟨m.code⟩, leader, replicas⟩
  else some ⟨m.streamName, ⟨m.code⟩, {}, []⟩

/-- `StreamMetadataSet::emplace`, by the order of `StreamMetadataLess`. -/
def emplace (m : StreamMetadata) : List StreamMetadata → List StreamMetadata
  | [] => [m]
  | x :: xs =>
    if m.streamName < x.streamName then m :: x :: xs
    else if x.streamName < m.streamName then x :: emplace m xs
    else x :: xs

def computeMetadata (brokers : List (UInt16 × Broker)) :
    List Wire.StreamMetadata → List StreamMetadata → Option (List StreamMetadata)
  | [], result => some result
  | m :: ms, result => (resolve brokers m).bind fun x => computeMetadata brokers ms (emplace x result)

/-- A response to a metadata request. -/
structure Answer where
  brokers : List Wire.Broker
  streamMetadata : List Wire.StreamMetadata
  deriving DecidableEq, Repr

def incoherent : StreamException :=
  .stream "Incoherent results returned by server, failed to compute metadata"

/-- `ClientImpl::metadata`, from the response on. -/
def metadata (a : Answer) : Except StreamException (List StreamMetadata) :=
  match computeMetadata (a.brokers.foldl tryEmplace []) a.streamMetadata [] with
  | some result => .ok result
  | none => .error incoherent

def fetchStreamMetadata (a : Answer) : Except StreamException StreamMetadata :=
  match metadata a with
  | .error e => .error e
  | .ok [] => .error (.responseError .streamDoesNotExist)
  | .ok (m :: _) => if m.responseCode ≠ .ok then .error (.responseError m.responseCode) else .ok m

/-! ## Clients -/

/-- `select_randomly` on candidates of which there is one; `draw` is what the generator gives. -/
def selectRandomly (b : Broker) (bs : List Broker) (draw : ℕ) : Broker :=
  if 1 < (b :: bs).length then (b :: bs).getD (draw % (b :: bs).length) b else b

inductive Role
  | producer
  | consumer
  deriving DecidableEq, Repr

/-- The operation of `get_producer_client` and that of `get_consumer_client`. -/
def Role.host (role : Role) (a : Answer) (draw : ℕ) : Except StreamException Bytes :=
  match fetchStreamMetadata a with
  | .error e => .error e
  | .ok m =>
    match role, m.replicas with
    | .consumer, b :: bs => .ok (selectRandomly b bs draw).host
    | _, _ => .ok m.leader.host

/-- How an attempt of `locator_operation` goes. -/
inductive Attempt
  /-- The wait for a locator ends without one. -/
  | noLocator
  /-- The request ends with a `TimeoutException` or an `IOException`. -/
  | lost (e : Lost)
  /-- It ends with another exception. -/
  | threw (e : StreamException)
  | answered (a : Answer) (draw : ℕ)
  deriving DecidableEq, Repr

/-- The attempt is followed by another one, unless it was the last. -/
def Attempt.retried : Attempt → Bool
  | noLocator | lost _ => true
  | threw _ | answered _ _ => false

/-- How the operation ends that gives a host. -/
def ofExcept : Except StreamException Bytes → Outcome Bytes
  | .ok host => .returned host
  | .error e => .threw e

/-- `locator_operation` from attempt `i` on; `none` as long as it has not ended. -/
def locatorOperation (operation : Answer → ℕ → Except StreamException Bytes) :
    ℕ → List Attempt → Option (Outcome Bytes)
  | _, [] => none
  | i, .noLocator :: as =>
    if nbRetries ≤ i then some (.threw locatorNotAvailable) else locatorOperation operation (i + 1) as
  | i, .lost e :: as =>
    if nbRetries ≤ i then some (.lost e) else locatorOperation operation (i + 1) as
  | _, .threw e :: _ => some (.threw e)
  | _, .answered a draw :: _ => some (ofExcept (operation a draw))

/-- `get_producer_client` and `get_consumer_client`: a client of the host that is returned, with the
port of the parameters. -/
def getClient (role : Role) (as : List Attempt) : Option (Outcome Bytes) :=
  locatorOperation role.host 1 as

/-! ## What an answer says -/

namespace Answer

/-- The broker with a reference; the first one counts. -/
def broker (a : Answer) (reference : UInt16) : Option Wire.Broker :=
  a.brokers.find? fun b => b.reference = reference

/-- What the answer says to be available is on brokers that it lists. -/
def Coherent (a : Answer) : Prop :=
  ∀ m ∈ a.streamMetadata, (⟨m.code⟩ : ResponseCode) = .ok →
    ∀ r ∈ m.leader :: m.replicas, (a.broker r).isSome = true

/-- The stream that counts: the first one of those with the least name. -/
def Counts (a : Answer) (m : Wire.StreamMetadata) : Prop :=
  ∃ before after, a.streamMetadata = before ++ m :: after ∧
    (∀ x ∈ before, m.streamName < x.streamName) ∧ ∀ x ∈ after, ¬ x.streamName < m.streamName

end Answer

/-- The references that a client may be routed to. -/
def Role.candidates : Role → Wire.StreamMetadata → List UInt16
  | producer, m => [m.leader]
  | consumer, m => if m.replicas = [] then [m.leader] else m.replicas

/-- What an answer comes to. -/
inductive Chosen (role : Role) (a : Answer) : Except StreamException Bytes → Prop
  | incoherent (h : ¬ a.Coherent) : Chosen role a (.error Routing.incoherent)
  | empty (h : a.streamMetadata = []) : Chosen role a (.error (.responseError .streamDoesNotExist))
  | refused (m : Wire.StreamMetadata) (h : a.Coherent) (hm : a.Counts m)
      (hcode : (⟨m.code⟩ : ResponseCode) ≠ .ok) : Chosen role a (.error (.responseError ⟨m.code⟩))
  | routed (m : Wire.StreamMetadata) (r : UInt16) (b : Wire.Broker) (h : a.Coherent) (hm : a.Counts m)
      (hcode : (⟨m.code⟩ : ResponseCode) = .ok) (hr : r ∈ role.candidates m)
      (hb : a.broker r = some b) : Chosen role a (.ok b.host)

/-- What the attempt of a number comes to, if it is the last. -/
inductive Ends (role : Role) : Attempt → ℕ → Outcome Bytes → Prop
  | noLocator : Ends role .noLocator nbRetries (.threw locatorNotAvailable)
  | lost (e : Lost) : Ends role (.lost e) nbRetries (.lost e)
  | threw (e : StreamException) (i : ℕ) : Ends role (.threw e) i (.threw e)
  | answered (a : Answer) (draw i : ℕ) {x : Except StreamException Bytes} (h : Chosen role a x) :
      Ends role (.answered a draw) i (ofExcept x)

/-! ## References -/

theorem brokerAt_append (xs ys : List (UInt16 × Broker)) (r : UInt16) :
    brokerAt (xs ++ ys) r = (brokerAt xs r).or (brokerAt ys r) := by
  simp only [brokerAt, List.find?_append]
  cases xs.find? fun e => e.1 = r <;> rfl

theorem brokerAt_tryEmplace (brokers : List (UInt16 × Broker)) (b : Wire.Broker) (r : UInt16) :
    brokerAt (tryEmplace brokers b) r =
      (brokerAt brokers r).or (if b.reference = r then some (entry b).2 else none) := by
  simp only [tryEmplace]
  split
  · rename_i hsome
    by_cases hr : b.reference = r
    · obtain ⟨x, hx⟩ := Option.isSome_iff_exists.1 hsome
      rw [← hr, hx]
      rfl
    · simp [hr]
  · rw [brokerAt_append]
    congr 1
    by_cases hr : b.reference = r <;> simp [brokerAt, entry, hr]

/-- **The map of the brokers has the first broker of each reference.** -/
theorem brokerAt_foldl (bs : List Wire.Broker) (brokers : List (UInt16 × Broker)) (r : UInt16) :
    brokerAt (bs.foldl tryEmplace brokers) r =
      (brokerAt brokers r).or ((bs.find? fun b => b.reference = r).map fun b => (entry b).2) := by
  induction bs generalizing brokers with
  | nil => simp
  | cons b bs ih =>
    rw [List.foldl_cons, ih, brokerAt_tryEmplace, Option.or_assoc]
    congr 1
    by_cases hr : b.reference = r <;> simp [hr]

theorem brokerAt_brokers (a : Answer) (r : UInt16) :
    brokerAt (a.brokers.foldl tryEmplace []) r = (a.broker r).map fun b => (entry b).2 := by
  rw [brokerAt_foldl]
  rfl

section Resolve

variable {brokers : List (UInt16 × Broker)}

theorem isSome_resolveReplicas {rs : List UInt16} :
    (resolveReplicas brokers rs).isSome = true ↔ ∀ r ∈ rs, (brokerAt brokers r).isSome = true := by
  induction rs with
  | nil => simp [resolveReplicas]
  | cons r rs ih =>
    cases hr : brokerAt brokers r <;> simp [resolveReplicas, hr, ih]

theorem mem_resolveReplicas {rs : List UInt16} {bs : List Broker}
    (h : resolveReplicas brokers rs = some bs) {b : Broker} (hb : b ∈ bs) :
    ∃ r ∈ rs, brokerAt brokers r = some b := by
  induction rs generalizing bs with
  | nil =>
    cases h
    cases hb
  | cons r rs ih =>
    obtain ⟨x, hx, h⟩ := Option.bind_eq_some_iff.1 h
    obtain ⟨xs, hxs, rfl⟩ := Option.map_eq_some_iff.1 h
    rcases List.mem_cons.1 hb with rfl | hb
    · exact ⟨r, by simp, hx⟩
    · obtain ⟨r', hr', hb'⟩ := ih hxs hb
      exact ⟨r', List.mem_cons_of_mem r hr', hb'⟩

theorem resolveReplicas_eq_nil {rs : List UInt16} (h : resolveReplicas brokers rs = some []) :
    rs = [] := by
  cases rs with
  | nil => rfl
  | cons r rs =>
    obtain ⟨x, -, h⟩ := Option.bind_eq_some_iff.1 h
    obtain ⟨xs, -, h⟩ := Option.map_eq_some_iff.1 h
    cases h

theorem isSome_resolve {m : Wire.StreamMetadata} :
    (resolve brokers m).isSome = true ↔ ((⟨m.code⟩ : ResponseCode) = .ok →
      ∀ r ∈ m.leader :: m.replicas, (brokerAt brokers r).isSome = true) := by
  simp only [resolve]
  split
  · rename_i hcode
    simp only [hcode, forall_const, List.forall_mem_cons]
    rw [← isSome_resolveReplicas]
    cases brokerAt brokers m.leader <;> simp
  · rename_i hcode
    simp [hcode]

theorem streamName_resolve {m : Wire.StreamMetadata} {x : StreamMetadata}
    (h : resolve brokers m = some x) : x.streamName = m.streamName ∧ x.responseCode = ⟨m.code⟩ := by
  simp only [resolve] at h
  split at h
  · obtain ⟨leader, -, h⟩ := Option.bind_eq_some_iff.1 h
    obtain ⟨replicas, -, rfl⟩ := Option.map_eq_some_iff.1 h
    exact ⟨rfl, rfl⟩
  · cases h
    exact ⟨rfl, rfl⟩

theorem isSome_computeMetadata {ms : List Wire.StreamMetadata} {result : List StreamMetadata} :
    (computeMetadata brokers ms result).isSome = true ↔
      ∀ m ∈ ms, (resolve brokers m).isSome = true := by
  induction ms generalizing result with
  | nil => simp [computeMetadata]
  | cons m ms ih =>
    cases hm : resolve brokers m <;> simp [computeMetadata, hm, ih]

/-- What comes first after an insertion. -/
theorem head_emplace (x : StreamMetadata) (result : List StreamMetadata) :
    ((emplace x result).head? = some x ∧ ∀ y ∈ result.head?, x.streamName < y.streamName) ∨
      ∃ y, result.head? = some y ∧ (emplace x result).head? = some y ∧
        ¬ x.streamName < y.streamName := by
  cases result with
  | nil => exact .inl ⟨rfl, by simp⟩
  | cons y ys =>
    simp only [emplace]
    split
    · rename_i hlt
      exact .inl ⟨rfl, by simpa using hlt⟩
    · rename_i hlt
      refine .inr ⟨y, rfl, ?_, hlt⟩
      split <;> rfl

theorem lt_of_lt_of_not_lt {x y z : Bytes} (hxy : x < y) (hzy : ¬ z < y) : x < z := by
  by_contra hxz
  exact hzy (List.lt_of_le_of_lt (List.not_lt.1 hxz) hxy)

/-- What comes first is the first stream of those with the least name. -/
theorem head_computeMetadata {ms : List Wire.StreamMetadata} {result final : List StreamMetadata}
    (h : computeMetadata brokers ms result = some final) :
    (final.head? = result.head? ∧ ∀ y ∈ result.head?, ∀ m ∈ ms, ¬ m.streamName < y.streamName) ∧
        (result = [] → ms = []) ∨
      ∃ before m after x, ms = before ++ m :: after ∧ resolve brokers m = some x ∧
        final.head? = some x ∧ (∀ y ∈ result.head?, m.streamName < y.streamName) ∧
        (∀ b ∈ before, m.streamName < b.streamName) ∧ ∀ c ∈ after, ¬ c.streamName < m.streamName := by
  induction ms generalizing result with
  | nil =>
    cases h
    exact .inl ⟨⟨rfl, by simp⟩, fun _ => rfl⟩
  | cons m ms ih =>
    obtain ⟨x, hx, h⟩ := Option.bind_eq_some_iff.1 h
    have hname := (streamName_resolve hx).1
    rcases ih h with ⟨⟨hfinal, hleast⟩, -⟩ |
      ⟨before, m', after, x', rfl, hx', hfinal, hhead', hbefore, hafter⟩
    · rcases head_emplace x result with ⟨hhead, hlt⟩ | ⟨y, hy, hhead, hnot⟩
      · refine .inr ⟨[], m, ms, x, rfl, hx, hfinal.trans hhead, ?_, by simp, ?_⟩
        · rwa [hname] at hlt
        · rw [hhead] at hleast
          rw [← hname]
          exact hleast x rfl
      · refine .inl ⟨⟨by rw [hfinal, hhead, hy], fun z hz => ?_⟩, fun hnil => ?_⟩
        · obtain rfl : y = z := Option.some.inj (hy.symm.trans hz)
          rw [hhead] at hleast
          rw [hname] at hnot
          exact List.forall_mem_cons.2 ⟨hnot, hleast y rfl⟩
        · simp [hnil] at hy
    · -- a later stream has a name that is less than all before it
      rcases head_emplace x result with ⟨hhead, hlt⟩ | ⟨y, hy, hhead, hnot⟩
      · have hm' : m'.streamName < m.streamName := hname ▸ hhead' x hhead
        refine .inr ⟨m :: before, m', after, x', rfl, hx', hfinal, fun y hy => ?_,
          List.forall_mem_cons.2 ⟨hm', hbefore⟩, hafter⟩
        exact List.lt_trans hm' (hname ▸ hlt y hy)
      · have hm' : m'.streamName < y.streamName := hhead' y hhead
        refine .inr ⟨m :: before, m', after, x', rfl, hx', hfinal, fun z hz => ?_,
          List.forall_mem_cons.2 ⟨lt_of_lt_of_not_lt hm' (hname ▸ hnot), hbefore⟩, hafter⟩
        obtain rfl : y = z := Option.some.inj (hy.symm.trans hz)
        exact hm'

end Resolve

/-! ## Answers -/

theorem isSome_metadata (a : Answer) :
    (computeMetadata (a.brokers.foldl tryEmplace []) a.streamMetadata []).isSome = true ↔
      a.Coherent := by
  simp only [isSome_computeMetadata, isSome_resolve, brokerAt_brokers, Option.isSome_map,
    Answer.Coherent]

theorem selectRandomly_mem (b : Broker) (bs : List Broker) (draw : ℕ) :
    selectRandomly b bs draw ∈ b :: bs := by
  simp only [selectRandomly]
  split
  · have hlt : draw % (b :: bs).length < (b :: bs).length := Nat.mod_lt _ (by simp)
    rw [List.getD_eq_getElem?_getD, List.getElem?_eq_getElem hlt, Option.getD_some]
    exact List.getElem_mem hlt
  · exact List.mem_cons_self

/-- The brokers of a stream are those of the answer. -/
theorem routed_of_brokerAt {role : Role} {a : Answer} {m : Wire.StreamMetadata} (h : a.Coherent)
    (hm : a.Counts m) (hcode : (⟨m.code⟩ : ResponseCode) = .ok) {r : UInt16}
    (hr : r ∈ role.candidates m) {b : Broker}
    (hb : brokerAt (a.brokers.foldl tryEmplace []) r = some b) : Chosen role a (.ok b.host) := by
  rw [brokerAt_brokers] at hb
  obtain ⟨b', hb', rfl⟩ := Option.map_eq_some_iff.1 hb
  exact .routed m r b' h hm hcode hr hb'

/-- **What the operation makes of an answer is what the answer says.** -/
theorem chosen_host (role : Role) (a : Answer) (draw : ℕ) : Chosen role a (role.host a draw) := by
  cases hmeta : computeMetadata (a.brokers.foldl tryEmplace []) a.streamMetadata [] with
  | none =>
    have hnot : ¬ a.Coherent := by
      intro h
      have hsome := (isSome_metadata a).2 h
      simp [hmeta] at hsome
    have hhost : role.host a draw = .error incoherent := by
      simp [Role.host, fetchStreamMetadata, metadata, hmeta]
    rw [hhost]
    exact .incoherent hnot
  | some final =>
    have hcoherent : a.Coherent := (isSome_metadata a).1 (by rw [hmeta]; rfl)
    rcases head_computeMetadata hmeta with ⟨⟨hfinal, -⟩, hempty⟩ |
      ⟨before, m, after, x, hstreams, hx, hfinal, -, hbefore, hafter⟩
    · have hnil : final = [] := List.head?_eq_none_iff.1 hfinal
      have hhost : role.host a draw = .error (.responseError .streamDoesNotExist) := by
        simp [Role.host, fetchStreamMetadata, metadata, hmeta, hnil]
      rw [hhost]
      exact .empty (hempty rfl)
    · obtain ⟨xs, rfl⟩ := List.head?_eq_some_iff.1 hfinal
      have hcounts : a.Counts m := ⟨before, after, hstreams, hbefore, hafter⟩
      obtain ⟨-, hxcode⟩ := streamName_resolve hx
      by_cases hcode : (⟨m.code⟩ : ResponseCode) = .ok
      · simp only [resolve, hcode, if_true] at hx
        obtain ⟨leader, hleader, hx⟩ := Option.bind_eq_some_iff.1 hx
        obtain ⟨replicas, hreplicas, rfl⟩ := Option.map_eq_some_iff.1 hx
        have hfetch : fetchStreamMetadata a = .ok ⟨m.streamName, .ok, leader, replicas⟩ := by
          simp [fetchStreamMetadata, metadata, hmeta]
        cases role with
        | producer =>
          have hhost : Role.host .producer a draw = .ok leader.host := by simp [Role.host, hfetch]
          rw [hhost]
          exact routed_of_brokerAt hcoherent hcounts hcode (by simp [Role.candidates]) hleader
        | consumer =>
          cases replicas with
          | nil =>
            have hnone := resolveReplicas_eq_nil hreplicas
            have hhost : Role.host .consumer a draw = .ok leader.host := by
              simp [Role.host, hfetch]
            rw [hhost]
            exact routed_of_brokerAt hcoherent hcounts hcode (by simp [Role.candidates, hnone]) hleader
          | cons b bs =>
            have hhost : Role.host .consumer a draw = .ok (selectRandomly b bs draw).host := by
              simp [Role.host, hfetch]
            obtain ⟨r, hr, hb⟩ := mem_resolveReplicas hreplicas (selectRandomly_mem b bs draw)
            have hcandidates : r ∈ Role.candidates .consumer m := by
              simp only [Role.candidates]
              split
              · rename_i hnone
                simp [hnone] at hr
              · exact hr
            rw [hhost]
            exact routed_of_brokerAt hcoherent hcounts hcode hcandidates hb
      · have hhost : role.host a draw = .error (.responseError ⟨m.code⟩) := by
          simp [Role.host, fetchStreamMetadata, metadata, hmeta, hxcode, hcode]
        rw [hhost]
        exact .refused m hcoherent hcounts hcode

/-! ## Attempts -/

/-- What a call does in an attempt. -/
def Attempt.acts (operation : Answer → ℕ → Except StreamException Bytes) :
    Attempt → List (CallAct Unit Bytes)
  | noLocator => [.noLocator]
  | lost e => [.take (), .finish (.lost e)]
  | threw e => [.take (), .finish (.threw e)]
  | answered a draw => [.take (), .finish (ofExcept (operation a draw))]

/-- What an attempt ends with. -/
def Attempt.outcome (operation : Answer → ℕ → Except StreamException Bytes) : Attempt → Outcome Bytes
  | noLocator => .threw locatorNotAvailable
  | lost e => .lost e
  | threw e => .threw e
  | answered a draw => ofExcept (operation a draw)

section Calls

variable (operation : Answer → ℕ → Except StreamException Bytes)

theorem locatorOperation_cons (i : ℕ) (a : Attempt) (as : List Attempt) :
    locatorOperation operation i (a :: as) =
      if a.retried = true ∧ i < nbRetries then locatorOperation operation (i + 1) as
      else some (a.outcome operation) := by
  by_cases hlast : nbRetries ≤ i
  · cases a <;> simp [locatorOperation, Attempt.retried, Attempt.outcome, hlast]
  · have hlt : i < nbRetries := Nat.lt_of_not_le hlast
    cases a <;> simp [locatorOperation, Attempt.retried, Attempt.outcome, hlast, hlt]

theorem run_acts (i : ℕ) (a : Attempt) :
    Call.machine.run (.waiting i) (a.acts operation) =
      some (if a.retried = true ∧ i < nbRetries then .waiting (i + 1)
        else .ended i (a.outcome operation)) := by
  have hnext (o : Outcome Bytes) : (Call.nextAttempt i o : Call Unit Bytes) =
      if i < nbRetries then .waiting (i + 1) else .ended i o := by
    rw [Call.nextAttempt]
    split <;> rename_i hlast
    · rw [if_neg (Nat.not_lt.2 hlast)]
    · rw [if_pos (Nat.lt_of_not_le hlast)]
  have hdone (x : Except StreamException Bytes) : (ofExcept x).retried = false := by cases x <;> rfl
  cases a with
  | noLocator =>
    simp [Attempt.acts, Attempt.retried, Attempt.outcome, Machine.run, Call.machine, Call.step, hnext]
  | lost e | threw e =>
    simp [Attempt.acts, Attempt.retried, Attempt.outcome, Machine.run, Call.machine, Call.step,
      Outcome.retried, hnext]
  | answered a draw =>
    simp [Attempt.acts, Attempt.retried, Attempt.outcome, Machine.run, Call.machine, Call.step, hdone]

/-- **`locator_operation` is a call**: it ends with an outcome exactly if the call does, in some first
attempts. -/
theorem locatorOperation_eq_some_iff {i : ℕ} {as : List Attempt} {o : Outcome Bytes} :
    locatorOperation operation i as = some o ↔ ∃ tried rest j, as = tried ++ rest ∧
      Call.machine.run (.waiting i) (tried.flatMap (Attempt.acts operation)) = some (.ended j o) := by
  induction as generalizing i with
  | nil =>
    refine ⟨(fun h => by cases h), ?_⟩
    rintro ⟨tried, rest, j, has, hrun⟩
    obtain ⟨rfl, -⟩ := List.append_eq_nil_iff.1 has.symm
    cases hrun
  | cons a as ih =>
    rw [locatorOperation_cons]
    have hacts := run_acts operation i a
    split
    · rename_i hagain
      rw [if_pos hagain] at hacts
      rw [ih]
      constructor
      · rintro ⟨tried, rest, j, rfl, hrun⟩
        exact ⟨a :: tried, rest, j, rfl, Machine.run_append.2 ⟨_, hacts, hrun⟩⟩
      · rintro ⟨tried, rest, j, has, hrun⟩
        cases tried with
        | nil => cases hrun
        | cons b tried =>
          obtain ⟨rfl, rfl⟩ := List.cons.inj has
          obtain ⟨call, hcall, hrun⟩ := Machine.run_append.1 hrun
          obtain rfl := Option.some.inj (hacts.symm.trans hcall)
          exact ⟨tried, rest, j, rfl, hrun⟩
    · rename_i hends
      rw [if_neg hends] at hacts
      constructor
      · intro h
        obtain rfl := Option.some.inj h
        exact ⟨[a], as, i, rfl, by simpa using hacts⟩
      · rintro ⟨tried, rest, j, has, hrun⟩
        cases tried with
        | nil => cases hrun
        | cons b tried =>
          obtain ⟨rfl, rfl⟩ := List.cons.inj has
          obtain ⟨call, hcall, hrun⟩ := Machine.run_append.1 hrun
          obtain rfl := Option.some.inj (hacts.symm.trans hcall)
          obtain ⟨-, rfl⟩ := Call.ended.inj (Call.run_ended hrun)
          rfl

end Calls

/-- From attempt `i` on: some attempts are followed by another one, and one is the last. -/
theorem locatorOperation_ends (role : Role) {i : ℕ} {as : List Attempt} (hi : i ≤ nbRetries)
    (h : nbRetries < i + as.length ∨ ∃ a ∈ as, a.retried = false) :
    ∃ result failed last rest, locatorOperation role.host i as = some result ∧
      as = failed ++ last :: rest ∧ i + failed.length ≤ nbRetries ∧
      (∀ f ∈ failed, f.retried = true) ∧ Ends role last (i + failed.length) result := by
  induction as generalizing i with
  | nil =>
    exfalso
    rcases h with h | ⟨a, ha, -⟩
    · simp only [List.length_nil] at h
      omega
    · cases ha
  | cons a as ih =>
    have hcons := locatorOperation_cons role.host i a as
    by_cases hagain : a.retried = true ∧ i < nbRetries
    · rw [if_pos hagain] at hcons
      have h' : nbRetries < i + 1 + as.length ∨ ∃ a ∈ as, a.retried = false := by
        rcases h with h | ⟨b, hb, hfalse⟩
        · rw [List.length_cons] at h
          exact .inl (by omega)
        · rcases List.mem_cons.1 hb with rfl | hb
          · simp [hagain.1] at hfalse
          · exact .inr ⟨b, hb, hfalse⟩
      obtain ⟨result, failed, last, rest, hrun, rfl, hle, hfailed, hends⟩ := ih hagain.2 h'
      have hlength : i + (a :: failed).length = i + 1 + failed.length := by
        rw [List.length_cons]
        omega
      refine ⟨result, a :: failed, last, rest, hcons.trans hrun, rfl, ?_,
        List.forall_mem_cons.2 ⟨hagain.1, hfailed⟩, ?_⟩ <;> rwa [hlength]
    · rw [if_neg hagain] at hcons
      refine ⟨a.outcome role.host, [], a, as, hcons, rfl, hi, by simp, ?_⟩
      -- an attempt that is retried ends the call only as the last one
      have hlast : a.retried = true → i = nbRetries := fun hretried =>
        Nat.le_antisymm hi (Nat.le_of_not_lt fun hlt => hagain ⟨hretried, hlt⟩)
      cases a with
      | noLocator =>
        obtain rfl := hlast rfl
        exact .noLocator
      | lost e =>
        obtain rfl := hlast rfl
        exact .lost e
      | threw e => exact .threw e _
      | answered a draw => exact .answered a draw _ (chosen_host role a draw)

/-- **A producer is routed to the leader and a consumer to a replica**, as the answer of the first
attempt that has one says; there are at most three attempts. -/
theorem client_routed (role : Role) {as : List Attempt}
    (h : nbRetries ≤ as.length ∨ ∃ a ∈ as, a.retried = false) :
    ∃ result failed last rest, getClient role as = some result ∧ as = failed ++ last :: rest ∧
      failed.length < nbRetries ∧ (∀ f ∈ failed, f.retried = true) ∧
      Ends role last (failed.length + 1) result := by
  obtain ⟨result, failed, last, rest, hrun, has, hle, hfailed, hends⟩ :=
    locatorOperation_ends role (i := 1) (by decide) (h.imp_left fun h => by omega)
  rw [Nat.add_comm] at hle hends
  exact ⟨result, failed, last, rest, hrun, has, hle, hfailed, hends⟩

/-- A locator that is not there, a request without an answer, and then three brokers, of which the
second one is listed twice, and a stream with two replicas. -/
def thirdAttempt : List Attempt :=
  [.noLocator, .lost (.timeout "Timeout while waiting for response"),
    .answered ⟨[⟨0, [97], 5552⟩, ⟨1, [98], 5552⟩, ⟨1, [100], 5552⟩, ⟨2, [99], 5552⟩],
      [⟨[115], 1, 0, [1, 2]⟩]⟩ 4]

theorem client_routed_thirdAttempt :
    getClient .consumer thirdAttempt = some (.returned [98]) ∧
      ∃ result failed last rest, getClient .consumer thirdAttempt = some result ∧
        thirdAttempt = failed ++ last :: rest ∧ failed.length < nbRetries ∧
        (∀ f ∈ failed, f.retried = true) ∧ Ends .consumer last (failed.length + 1) result :=
  ⟨by decide, client_routed .consumer (.inl (by decide))⟩

end Hareflow.Environment.Routing
