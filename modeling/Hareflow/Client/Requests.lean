import Mathlib.Data.List.Nodup
import Mathlib.Data.List.Perm.Subperm
import Hareflow.Connection.Reader

/-!
# Outstanding requests

A request takes the next correlation id, registers a promise under it in `m_outstanding_requests`,
is written, and waits for its future. The promise is completed by the response with its correlation
id, or failed by the shutdown of the client; a caller that times out or cannot write drops its id.
The map is guarded by `m_outstanding_mutex`, so that each function that takes the mutex is one step,
and everything a caller does between two of them is a step of its own.

`Inv.outstanding` is the invariant that carries the rest: the map holds the id and the promise of
exactly the calls that have registered and have not been completed, failed or dropped.
-/

namespace Hareflow.Client.Requests

open Foundations
open Connection (IOException)

/-- The classes of responses that a caller may expect. -/
inductive ResponseType
  | generic
  | queryPublisherSequence
  | queryOffset
  | metadata
  | peerProperties
  | saslHandshake
  | saslAuthenticate
  | open
  | exchangeCommandVersions
  deriving DecidableEq, Repr

/-- A `ServerResponse`: its class and its correlation id. -/
structure Response where
  correlationId : UInt32
  type : ResponseType
  deriving DecidableEq, Repr

/-- The exceptions that a call ends with. -/
inductive Failure
  | io (e : IOException)
  | invalidInput (what : String)
  | timeout (what : String)
  | stream (what : String)
  deriving DecidableEq, Repr

/-- Where a call of `send_request_wait_response` is. -/
inductive CallPc
  | idle
  /-- The request has its correlation id. -/
  | numbered
  /-- The promise is in the map, and the frame is being written. -/
  | registered
  /-- In `wait_for`. -/
  | waiting
  /-- A `StreamException` was caught, and the id is to be dropped. -/
  | dropping (e : Failure)
  | threw (e : Failure)
  | returned (response : Response)
  /-- `get_future` has thrown, since the promise under this id has another caller's future. -/
  | escaped
  deriving DecidableEq, Repr

/-- The call is past `try_emplace` and has neither returned nor thrown. -/
def CallPc.isRegistered : CallPc → Bool
  | registered | waiting | dropping _ => true
  | _ => false

/-- The call has returned or thrown. -/
def CallPc.isOver : CallPc → Bool
  | threw _ | returned _ | escaped => true
  | _ => false

/-- A call, with the result that its future shares with the promise. -/
structure Call where
  pc : CallPc := .idle
  correlationId : UInt32 := 0
  expects : ResponseType := .generic
  result : Option (Except IOException Response) := none

/-- The call has registered and has not been completed, failed or dropped. -/
def Call.Outstanding (c : Call) : Prop := c.pc.isRegistered = true ∧ c.result = none

/-- The requests of a client. A promise is the number of its call. -/
structure State where
  /-- `m_correlation_sequence`. -/
  correlationSequence : UInt32 := 0
  /-- The number of requests made. -/
  requests : ℕ := 0
  calls : ℕ → Call := fun _ => {}
  /-- `m_outstanding_requests`. -/
  outstandingRequests : List (UInt32 × ℕ) := []
  /-- The promises that were completed, by `set_value` or `set_exception`, in this order. -/
  completed : List ℕ := []

namespace State

def setCall (s : State) (i : ℕ) (c : Call) : State :=
  { s with calls := Function.update s.calls i c }

def setPc (s : State) (i : ℕ) (pc : CallPc) : State := s.setCall i { s.calls i with pc }

/-- `++m_correlation_sequence` and the construction of the request. -/
def newRequest (s : State) (expects : ResponseType) : State :=
  let id := s.correlationSequence + 1
  { s.setCall s.requests { pc := .numbered, correlationId := id, expects } with
    correlationSequence := id, requests := s.requests + 1 }

/-- The critical section of `send_request`. -/
def register (s : State) (i : ℕ) : State :=
  let id := (s.calls i).correlationId
  if id ∈ s.outstandingRequests.map Prod.fst then s.setPc i .escaped
  else { s.setPc i .registered with
    outstandingRequests := s.outstandingRequests ++ [(id, i)] }

def dropOutstandingRequest (s : State) (id : UInt32) : State :=
  { s with outstandingRequests := s.outstandingRequests.filter fun e => e.1 != id }

def completeOutstandingRequest (s : State) (response : Response) : State :=
  match s.outstandingRequests.find? fun e => e.1 == response.correlationId with
  | none => s
  | some (id, i) =>
    { s.setCall i { s.calls i with result := some (.ok response) } with
      outstandingRequests := s.outstandingRequests.filter fun e => e.1 != id
      completed := s.completed ++ [i] }

def failAllOutstandingRequests (s : State) : State :=
  let promises := s.outstandingRequests.map Prod.snd
  { s with
    calls := fun i => if i ∈ promises then
      { s.calls i with
        result := some (.error ⟨"Connection shutdown while waiting for response"⟩) }
      else s.calls i
    outstandingRequests := []
    completed := s.completed ++ promises }

/-- The future of a caller is ready: `get()`, and the cast to the class it expects. -/
def get (s : State) (i : ℕ) : Except IOException Response → State
  | .error e => s.setPc i (.dropping (.io e))
  | .ok response =>
    if response.type = (s.calls i).expects then s.setPc i (.returned response)
    else s.setPc i (.threw (.stream "Unexpected type for response object"))

end State

inductive Act
  /-- A call of `send_request_wait_response`, with the class of response it expects. -/
  | call (expects : ResponseType)
  | register (i : ℕ)
  /-- `send_frame(request).get()` returns or throws. -/
  | write (i : ℕ) (thrown : Option Failure)
  /-- `wait_for` gives up. -/
  | timeout (i : ℕ)
  /-- `wait_for` finds the future ready. -/
  | ready (i : ℕ)
  | drop (i : ℕ)
  /-- The frame thread has a response. -/
  | respond (response : Response)
  /-- A shutdown of the client. -/
  | failAll
  deriving DecidableEq, Repr

def step (s : State) : Act → Option State
  | .call expects => some (s.newRequest expects)
  | .register i => if (s.calls i).pc = .numbered then some (s.register i) else none
  | .write i thrown =>
    if (s.calls i).pc = .registered then
      some (match thrown with
        | none => s.setPc i .waiting
        | some e => s.setPc i (.dropping e))
    else none
  | .timeout i =>
    if (s.calls i).pc = .waiting ∧ (s.calls i).result = none then
      some (s.setPc i (.dropping (.timeout "Timeout while waiting for response")))
    else none
  | .ready i => if (s.calls i).pc = .waiting then (s.calls i).result.map (s.get i) else none
  | .drop i =>
    match (s.calls i).pc with
    | .dropping e => some ((s.dropOutstandingRequest (s.calls i).correlationId).setPc i (.threw e))
    | _ => none
  | .respond response => some (s.completeOutstandingRequest response)
  | .failAll => some s.failAllOutstandingRequests

def machine : Machine State Act where
  Init s := s = {}
  step := step

/-! ## The invariant -/

/-- What holds of each call by itself. -/
structure Call.Ok (c : Call) : Prop where
  fresh : c.pc = .numbered → c.result = none
  /-- The promise is completed by a response with the correlation id of the call. -/
  own : ∀ response, c.result = some (.ok response) → response.correlationId = c.correlationId
  returned : ∀ response, c.pc = .returned response → c.result = some (.ok response)
  escaped : c.pc ≠ .escaped

/-- The invariant of fewer than `2 ^ 32` requests. -/
structure Inv (s : State) : Prop where
  sequence : s.correlationSequence = UInt32.ofNat s.requests
  numbered : ∀ i < s.requests, (s.calls i).correlationId = UInt32.ofNat (i + 1)
  idle : ∀ i, s.requests ≤ i → s.calls i = {}
  calls : ∀ i, (s.calls i).Ok
  keys : (s.outstandingRequests.map Prod.fst).Nodup
  /-- The map holds the calls that are outstanding. -/
  outstanding : ∀ id i, (id, i) ∈ s.outstandingRequests ↔
    (s.calls i).correlationId = id ∧ (s.calls i).Outstanding
  once : s.completed.Nodup
  /-- The promises that were completed have a result. -/
  completed : ∀ i ∈ s.completed, (s.calls i).result ≠ none

theorem Call.ok_idle : Call.Ok {} where
  fresh := by simp
  own := by simp
  returned := by simp
  escaped := by simp

theorem inv_init : Inv {} where
  sequence := rfl
  numbered := by simp
  idle := by simp
  calls _ := Call.ok_idle
  keys := by simp
  outstanding := by simp [Call.Outstanding, CallPc.isRegistered]
  once := by simp
  completed := by simp

namespace Inv

variable {s : State} {i : ℕ}

/-- Different calls have different correlation ids. -/
theorem distinct (h : Inv s) (hfew : s.requests < 2 ^ 32) {i j : ℕ} (hi : i < s.requests)
    (hj : j < s.requests) (hij : (s.calls i).correlationId = (s.calls j).correlationId) : i = j := by
  rw [h.numbered i hi, h.numbered j hj] at hij
  have := congrArg UInt32.toNat hij
  rw [UInt32.toNat_ofNat_of_lt' (show i + 1 < UInt32.size by simp only [UInt32.size]; omega),
    UInt32.toNat_ofNat_of_lt' (show j + 1 < UInt32.size by simp only [UInt32.size]; omega)] at this
  omega

/-- A call that has begun is one of the requests. -/
theorem lt_requests (h : Inv s) (hpc : (s.calls i).pc ≠ .idle) : i < s.requests := by
  by_contra hi
  rw [h.idle i (by omega)] at hpc
  exact hpc rfl

theorem lt_of_outstanding (h : Inv s) (hout : (s.calls i).Outstanding) : i < s.requests := by
  refine h.lt_requests fun hidle => ?_
  have := hout.1
  simp [hidle, CallPc.isRegistered] at this

/-- Removing the correlation id of a call removes that call only. -/
theorem mem_remove (h : Inv s) (hfew : s.requests < 2 ^ 32) (hi : i < s.requests) {id : UInt32}
    {j : ℕ} :
    (id, j) ∈ s.outstandingRequests.filter (fun e => e.1 != (s.calls i).correlationId) ↔
      (id, j) ∈ s.outstandingRequests ∧ j ≠ i := by
  simp only [List.mem_filter, bne_iff_ne, ne_eq, and_congr_right_iff]
  intro hmem
  obtain ⟨rfl, hout⟩ := (h.outstanding id j).1 hmem
  refine not_congr ⟨h.distinct hfew (h.lt_of_outstanding hout) hi, ?_⟩
  rintro rfl
  rfl

/-- One call changes, and the map follows it. -/
theorem update (h : Inv s) (hi : i < s.requests) {c : Call} (hok : c.Ok)
    (hid : c.correlationId = (s.calls i).correlationId) {map : List (UInt32 × ℕ)}
    (hkeys : (map.map Prod.fst).Nodup)
    (hself : ∀ id, (id, i) ∈ map ↔ c.correlationId = id ∧ c.Outstanding)
    (hothers : ∀ id j, j ≠ i → ((id, j) ∈ map ↔ (id, j) ∈ s.outstandingRequests))
    {completed : List ℕ} (honce : completed.Nodup)
    (hcompleted : ∀ j ∈ completed, j ≠ i → j ∈ s.completed)
    (hresult : i ∈ completed → c.result ≠ none) :
    Inv { s.setCall i c with outstandingRequests := map, completed } := by
  have hcalls : ∀ j, j ≠ i → Function.update s.calls i c j = s.calls j := fun j hj =>
    Function.update_of_ne hj c s.calls
  exact
    { sequence := h.sequence
      numbered := by
        intro j hj
        by_cases hji : j = i
        · subst hji
          simpa [State.setCall, hid] using h.numbered j hj
        · simpa [State.setCall, hcalls j hji] using h.numbered j hj
      idle := by
        intro j hj
        have hle : s.requests ≤ j := hj
        simpa [State.setCall, hcalls j (by omega)] using h.idle j hle
      calls := by
        intro j
        by_cases hji : j = i
        · subst hji
          simpa [State.setCall] using hok
        · simpa [State.setCall, hcalls j hji] using h.calls j
      keys := hkeys
      outstanding := by
        intro id j
        by_cases hji : j = i
        · subst hji
          simpa [State.setCall] using hself id
        · simpa [State.setCall, hcalls j hji] using
            (hothers id j hji).trans (h.outstanding id j)
      once := honce
      completed := by
        intro j hj
        by_cases hji : j = i
        · subst hji
          simpa [State.setCall] using hresult hj
        · simpa [State.setCall, hcalls j hji] using h.completed j (hcompleted j hj hji) }

/-- A caller moves on, and stays in the map or out of it. -/
theorem setPc (h : Inv s) {pc : CallPc} (hi : i < s.requests)
    (hok : Call.Ok { s.calls i with pc })
    (hsame : Call.Outstanding { s.calls i with pc } ↔ (s.calls i).Outstanding) :
    Inv (s.setPc i pc) :=
  h.update hi hok rfl h.keys
    (fun id => (h.outstanding id i).trans (and_congr_right fun _ => hsame.symm))
    (fun _ _ _ => Iff.rfl) h.once (fun _ hj _ => hj) (h.completed i)

/-- The promise of a call is put into the map. -/
theorem register (h : Inv s) (hfew : s.requests < 2 ^ 32) (hpc : (s.calls i).pc = .numbered) :
    Inv (s.register i) := by
  have hi : i < s.requests := h.lt_requests (by simp [hpc])
  have hnot : ∀ id, (id, i) ∉ s.outstandingRequests := by
    intro id hmem
    have := ((h.outstanding id i).1 hmem).2.1
    simp [hpc, CallPc.isRegistered] at this
  have hnew : (s.calls i).correlationId ∉ s.outstandingRequests.map Prod.fst := by
    intro hmem
    obtain ⟨⟨id, j⟩, hj, hid⟩ := List.mem_map.1 hmem
    obtain ⟨rfl, hout⟩ := (h.outstanding id j).1 hj
    obtain rfl := h.distinct hfew (h.lt_of_outstanding hout) hi hid
    exact hnot _ hj
  have hresult := (h.calls i).fresh hpc
  rw [State.register, if_neg hnew]
  refine h.update (c := { s.calls i with pc := .registered }) hi
    ⟨by simp, (h.calls i).own, by simp, by simp⟩ rfl ?_ ?_ ?_ h.once (fun _ hj _ => hj)
    (h.completed i)
  · rw [List.map_append, List.nodup_append]
    refine ⟨h.keys, by simp, ?_⟩
    rintro id hid _ hid' rfl
    obtain rfl : id = (s.calls i).correlationId := by simpa using hid'
    exact hnew hid
  · intro id
    simp [hnot, Call.Outstanding, CallPc.isRegistered, hresult, eq_comm]
  · intro id j hj
    simp [hj]

/-- A caller drops its correlation id and throws. -/
theorem drop (h : Inv s) (hfew : s.requests < 2 ^ 32) {e : Failure}
    (hpc : (s.calls i).pc = .dropping e) :
    Inv ((s.dropOutstandingRequest (s.calls i).correlationId).setPc i (.threw e)) := by
  have hi : i < s.requests := h.lt_requests (by simp [hpc])
  refine h.update (c := { s.calls i with pc := .threw e }) hi
    ⟨by simp, (h.calls i).own, by simp, by simp⟩ rfl
    (h.keys.sublist (List.filter_sublist.map Prod.fst)) ?_ ?_ h.once (fun _ hj _ => hj)
    (h.completed i)
  · intro id
    rw [h.mem_remove hfew hi]
    simp [Call.Outstanding, CallPc.isRegistered]
  · intro id j hj
    rw [h.mem_remove hfew hi]
    simp [hj]

/-- A response completes the promise under its correlation id, if there is one. -/
theorem respond (h : Inv s) (hfew : s.requests < 2 ^ 32) (response : Response) :
    Inv (s.completeOutstandingRequest response) := by
  rw [State.completeOutstandingRequest]
  split
  · exact h
  · rename_i id i hfind
    have hmem := List.mem_of_find?_eq_some hfind
    have hid : id = response.correlationId := by simpa using List.find?_some hfind
    obtain ⟨rfl, hregistered, hnone⟩ := (h.outstanding id i).1 hmem
    have hi := h.lt_of_outstanding ⟨hregistered, hnone⟩
    have hfresh : i ∉ s.completed := fun hc => h.completed i hc hnone
    refine h.update (c := { s.calls i with result := some (.ok response) }) hi
      ⟨?_, ?_, ?_, (h.calls i).escaped⟩ rfl
      (h.keys.sublist (List.filter_sublist.map Prod.fst)) ?_ ?_ ?_ ?_ (by simp)
    · intro hpc
      rw [show (s.calls i).pc = .numbered from hpc] at hregistered
      simp [CallPc.isRegistered] at hregistered
    · intro response' hresponse
      obtain rfl : response = response' := by simpa using hresponse
      exact hid.symm
    · intro response' hpc
      rw [show (s.calls i).pc = .returned response' from hpc] at hregistered
      simp [CallPc.isRegistered] at hregistered
    · intro id'
      rw [h.mem_remove hfew hi]
      simp [Call.Outstanding]
    · intro id' j hj
      rw [h.mem_remove hfew hi]
      simp [hj]
    · exact List.nodup_append.2 ⟨h.once, by simp, by rintro a ha _ hb rfl; simp_all⟩
    · intro j hj hji
      simpa [hji] using hj

/-- The promises in the map are those of the outstanding calls. -/
theorem mem_promises (h : Inv s) :
    i ∈ s.outstandingRequests.map Prod.snd ↔ (s.calls i).Outstanding := by
  constructor
  · intro hi
    obtain ⟨⟨id, j⟩, hmem, rfl⟩ := List.mem_map.1 hi
    exact ((h.outstanding id j).1 hmem).2
  · intro hout
    exact List.mem_map.2 ⟨(_, i), (h.outstanding _ i).2 ⟨rfl, hout⟩, rfl⟩

theorem nodup_promises (h : Inv s) : (s.outstandingRequests.map Prod.snd).Nodup := by
  refine List.Nodup.map_on ?_ h.keys.of_map
  rintro ⟨id, i⟩ hi ⟨id', j⟩ hj rfl
  rw [← ((h.outstanding id _).1 hi).1, ← ((h.outstanding id' _).1 hj).1]

/-- A shutdown fails every promise in the map. -/
theorem failAll (h : Inv s) : Inv s.failAllOutstandingRequests := by
  have hmem := fun i => h.mem_promises (i := i)
  have hnumbered : ∀ i, (s.failAllOutstandingRequests.calls i).correlationId =
      (s.calls i).correlationId := by
    intro i
    simp only [State.failAllOutstandingRequests]
    split <;> rfl
  exact
    { sequence := h.sequence
      numbered := fun i hi => (hnumbered i).trans (h.numbered i hi)
      idle := by
        intro i hi
        have hnot : ¬(s.calls i).Outstanding := fun hout =>
          Nat.not_lt.2 hi (h.lt_of_outstanding hout)
        have hsame : s.failAllOutstandingRequests.calls i = s.calls i := if_neg ((hmem i).not.2 hnot)
        exact hsame.trans (h.idle i hi)
      calls := by
        intro i
        simp only [State.failAllOutstandingRequests]
        split
        · rename_i hi
          have hregistered := ((hmem i).1 hi).1
          refine ⟨?_, by simp, ?_, (h.calls i).escaped⟩
          · intro hpc
            rw [show (s.calls i).pc = .numbered from hpc] at hregistered
            simp [CallPc.isRegistered] at hregistered
          · intro response hpc
            rw [show (s.calls i).pc = .returned response from hpc] at hregistered
            simp [CallPc.isRegistered] at hregistered
        · exact h.calls i
      keys := by simp [State.failAllOutstandingRequests]
      outstanding := by
        intro id i
        simp only [State.failAllOutstandingRequests, List.not_mem_nil, false_iff, not_and]
        intro _
        split
        · simp [Call.Outstanding]
        · rename_i hi
          exact (hmem i).not.1 hi
      once := by
        refine List.nodup_append.2 ⟨h.once, h.nodup_promises, ?_⟩
        rintro i hi _ hj rfl
        exact h.completed i hi ((hmem i).1 hj).2
      completed := by
        intro i hi
        simp only [State.failAllOutstandingRequests]
        split
        · simp
        · rename_i hnot
          exact h.completed i ((List.mem_append.1 hi).resolve_right hnot) }

/-- A new request takes the next correlation id. -/
theorem newRequest (h : Inv s) (expects : ResponseType) : Inv (s.newRequest expects) := by
  have hself : (s.newRequest expects).calls s.requests =
      { pc := .numbered, correlationId := s.correlationSequence + 1, expects } := by
    simp [State.newRequest, State.setCall]
  have hothers : ∀ i, i ≠ s.requests → (s.newRequest expects).calls i = s.calls i := by
    intro i hi
    simp [State.newRequest, State.setCall, hi]
  have hidle := h.idle s.requests (Nat.le_refl _)
  have hnext : s.correlationSequence + 1 = UInt32.ofNat (s.requests + 1) := by
    rw [h.sequence]
    simp
  exact
    { sequence := hnext
      numbered := by
        intro i hi
        by_cases hnew : i = s.requests
        · subst hnew
          rw [hself]
          exact hnext
        · rw [hothers i hnew]
          have hlt : i < s.requests + 1 := hi
          exact h.numbered i (by omega)
      idle := by
        intro i hi
        have hle : s.requests + 1 ≤ i := hi
        rw [hothers i (by omega)]
        exact h.idle i (by omega)
      calls := by
        intro i
        by_cases hnew : i = s.requests
        · subst hnew
          rw [hself]
          exact ⟨by simp, by simp, by simp, by simp⟩
        · rw [hothers i hnew]
          exact h.calls i
      keys := h.keys
      outstanding := by
        intro id i
        refine (h.outstanding id i).trans ?_
        by_cases hnew : i = s.requests
        · subst hnew
          rw [hself, hidle]
          simp [Call.Outstanding, CallPc.isRegistered]
        · rw [hothers i hnew]
      once := h.once
      completed := by
        intro i hi
        have hold := h.completed i hi
        rw [hothers i]
        · exact hold
        · rintro rfl
          rw [hidle] at hold
          exact hold rfl }

end Inv

theorem inv_step {s t : State} {a : Act} (h : Inv s) (hfew : s.requests < 2 ^ 32)
    (hstep : step s a = some t) : Inv t := by
  cases a with
  | call expects =>
    obtain rfl := Option.some.inj hstep
    exact h.newRequest expects
  | register i =>
    obtain ⟨hpc, hstep⟩ := Option.ite_none_right_eq_some.1 hstep
    obtain rfl := Option.some.inj hstep
    exact h.register hfew hpc
  | write i thrown =>
    obtain ⟨hpc, hstep⟩ := Option.ite_none_right_eq_some.1 hstep
    obtain rfl := Option.some.inj hstep
    have hi : i < s.requests := h.lt_requests (by simp [hpc])
    cases thrown with
    | none =>
      exact h.setPc hi ⟨by simp, (h.calls i).own, by simp, by simp⟩
        (by simp [Call.Outstanding, CallPc.isRegistered, hpc])
    | some e =>
      exact h.setPc hi ⟨by simp, (h.calls i).own, by simp, by simp⟩
        (by simp [Call.Outstanding, CallPc.isRegistered, hpc])
  | timeout i =>
    obtain ⟨⟨hpc, hnone⟩, hstep⟩ := Option.ite_none_right_eq_some.1 hstep
    obtain rfl := Option.some.inj hstep
    exact h.setPc (h.lt_requests (by simp [hpc])) ⟨by simp, (h.calls i).own, by simp, by simp⟩
      (by simp [Call.Outstanding, CallPc.isRegistered, hpc])
  | ready i =>
    obtain ⟨hpc, hstep⟩ := Option.ite_none_right_eq_some.1 hstep
    obtain ⟨result, hresult, rfl⟩ := Option.map_eq_some_iff.1 hstep
    have hi : i < s.requests := h.lt_requests (by simp [hpc])
    cases result with
    | error e =>
      exact h.setPc hi ⟨by simp, (h.calls i).own, by simp, by simp⟩
        (by simp [Call.Outstanding, CallPc.isRegistered, hpc])
    | ok response =>
      rw [State.get]
      split
      · exact h.setPc hi ⟨by simp, (h.calls i).own, by simp [hresult], by simp⟩
          (by simp [Call.Outstanding, hresult])
      · exact h.setPc hi ⟨by simp, (h.calls i).own, by simp, by simp⟩
          (by simp [Call.Outstanding, hresult])
  | drop i =>
    simp only [step] at hstep
    split at hstep
    · rename_i e hpc
      obtain rfl := Option.some.inj hstep
      exact h.drop hfew hpc
    · cases hstep
  | respond response =>
    obtain rfl := Option.some.inj hstep
    exact h.respond hfew response
  | failAll =>
    obtain rfl := Option.some.inj hstep
    exact h.failAll

/-- The number of requests never falls. -/
theorem requests_le {s t : State} {a : Act} (h : step s a = some t) : s.requests ≤ t.requests := by
  cases a with
  | call expects =>
    obtain rfl := Option.some.inj h
    exact Nat.le_succ _
  | register i =>
    obtain ⟨-, h⟩ := Option.ite_none_right_eq_some.1 h
    obtain rfl := Option.some.inj h
    rw [State.register]
    split <;> exact Nat.le_refl _
  | write i thrown =>
    obtain ⟨-, h⟩ := Option.ite_none_right_eq_some.1 h
    obtain rfl := Option.some.inj h
    cases thrown <;> exact Nat.le_refl _
  | timeout i =>
    obtain ⟨-, h⟩ := Option.ite_none_right_eq_some.1 h
    obtain rfl := Option.some.inj h
    exact Nat.le_refl _
  | ready i =>
    obtain ⟨-, h⟩ := Option.ite_none_right_eq_some.1 h
    obtain ⟨result, -, rfl⟩ := Option.map_eq_some_iff.1 h
    cases result with
    | error e => exact Nat.le_refl _
    | ok response =>
      rw [State.get]
      split <;> exact Nat.le_refl _
  | drop i =>
    simp only [step] at h
    split at h
    · obtain rfl := Option.some.inj h
      exact Nat.le_refl _
    · cases h
  | respond response =>
    obtain rfl := Option.some.inj h
    rw [State.completeOutstandingRequest]
    split <;> exact Nat.le_refl _
  | failAll =>
    obtain rfl := Option.some.inj h
    exact Nat.le_refl _

/-- Along a run of fewer than `2 ^ 32` requests the invariant holds. -/
theorem inv_run {t : State} {as : List Act} (h : machine.run {} as = some t)
    (hfew : t.requests < 2 ^ 32) : Inv t :=
  Machine.run_keeps (M := machine) (P := fun s => s.requests < 2 ^ 32 → Inv s)
    (fun {s a t} hs hstep ht => by
      have hle := requests_le hstep
      exact inv_step (hs (by omega)) (by omega) hstep)
    (fun _ => inv_init) h hfew

/-! ## Any number of requests -/

/-- The call is past its critical section of `send_request`. -/
def CallPc.isBegun : CallPc → Bool
  | idle | numbered => false
  | _ => true

/-- The promises in the map and the completed ones. -/
def State.promises (s : State) : List ℕ := s.outstandingRequests.map Prod.snd ++ s.completed

/-- The promise of a call is in the map or completed, once at most, and only after the call has
begun. Unlike the invariant above, this survives a wrap of the correlation ids. -/
structure Once (s : State) : Prop where
  idle : ∀ i, s.requests ≤ i → (s.calls i).pc = .idle
  begun : ∀ i ∈ s.promises, (s.calls i).pc.isBegun = true
  nodup : s.promises.Nodup

namespace Once

variable {s t : State}

/-- No promise is added, and no call goes back to its beginning. -/
theorem mono (h : Once s) (hsub : t.promises.Subperm s.promises)
    (hidle : ∀ i, t.requests ≤ i → (t.calls i).pc = .idle)
    (hbegun : ∀ i, (s.calls i).pc.isBegun = true → (t.calls i).pc.isBegun = true) : Once t := by
  obtain ⟨promises, hperm, hsub⟩ := hsub
  refine ⟨hidle, fun i hi => hbegun i (h.begun i (hsub.subset (hperm.mem_iff.2 hi))), ?_⟩
  exact hperm.nodup_iff.1 (h.nodup.sublist hsub)

/-- A call that has begun moves on. -/
theorem setPc (h : Once s) {i : ℕ} {pc : CallPc} (hpc : (s.calls i).pc ≠ .idle)
    (hbegun : pc.isBegun = true) : Once (s.setPc i pc) := by
  have hothers : ∀ j, j ≠ i → (s.setPc i pc).calls j = s.calls j := fun j hj =>
    Function.update_of_ne hj _ _
  have hself : ((s.setPc i pc).calls i).pc = pc := by simp [State.setPc, State.setCall]
  refine h.mono (List.Perm.refl _).subperm (fun j hj => ?_) (fun j hj => ?_)
  · have hji : j ≠ i := by
      rintro rfl
      exact hpc (h.idle j hj)
    rw [hothers j hji]
    exact h.idle j hj
  · by_cases hji : j = i
    · subst hji
      rwa [hself]
    · rwa [hothers j hji]

theorem register (h : Once s) {i : ℕ} (hpc : (s.calls i).pc = .numbered) : Once (s.register i) := by
  have hnew : i ∉ s.promises := by
    intro hi
    have := h.begun i hi
    simp [hpc, CallPc.isBegun] at this
  have hset : Once (s.setPc i .registered) := h.setPc (by simp [hpc]) rfl
  rw [State.register]
  split
  · exact h.setPc (by simp [hpc]) rfl
  · have hperm : ((s.outstandingRequests ++ [((s.calls i).correlationId, i)]).map Prod.snd ++
        s.completed).Perm (i :: s.promises) := by
      simp [State.promises]
    refine ⟨hset.idle, fun j hj => ?_, hperm.nodup_iff.2 (List.nodup_cons.2 ⟨hnew, h.nodup⟩)⟩
    rcases List.mem_cons.1 (hperm.mem_iff.1 hj) with rfl | hj
    · simp [State.setPc, State.setCall, CallPc.isBegun]
    · exact hset.begun j hj

theorem newRequest (h : Once s) (expects : ResponseType) : Once (s.newRequest expects) := by
  have hothers : ∀ i, i ≠ s.requests → (s.newRequest expects).calls i = s.calls i := fun i hi =>
    Function.update_of_ne hi _ _
  refine h.mono (List.Perm.refl _).subperm (fun i hi => ?_) (fun i hi => ?_)
  · have hlt : s.requests + 1 ≤ i := hi
    rw [hothers i (by omega)]
    exact h.idle i (by omega)
  · rw [hothers i]
    · exact hi
    · rintro rfl
      rw [h.idle _ (Nat.le_refl _)] at hi
      cases hi

theorem drop (h : Once s) (id : UInt32) : Once (s.dropOutstandingRequest id) :=
  h.mono ((List.filter_sublist.map _).append_right _).subperm h.idle fun _ hi => hi

theorem respond (h : Once s) (response : Response) :
    Once (s.completeOutstandingRequest response) := by
  rw [State.completeOutstandingRequest]
  split
  · exact h
  · rename_i id i hfind
    have hmem := List.mem_of_find?_eq_some hfind
    have hpc : ∀ j, ((s.setCall i { s.calls i with result := some (.ok response) }).calls j).pc =
        (s.calls j).pc := by
      intro j
      by_cases hji : j = i
      · subst hji
        simp [State.setCall]
      · simp [State.setCall, hji]
    refine h.mono ?_ (fun j hj => (hpc j).trans (h.idle j hj)) fun j hj => (congrArg _ (hpc j)).trans hj
    -- the entry of `i` goes, and `i` is completed instead
    have hgone : i ∉ (s.outstandingRequests.filter fun e => e.1 != id).map Prod.snd := by
      intro hi
      obtain ⟨⟨id', j⟩, hj, rfl⟩ := List.mem_map.1 hi
      obtain ⟨hj, hne⟩ := List.mem_filter.1 hj
      have heq := List.inj_on_of_nodup_map (List.nodup_append.1 h.nodup).1 hj hmem rfl
      exact absurd (congrArg Prod.fst heq) (by simpa using hne)
    have hsub : (i :: (s.outstandingRequests.filter fun e => e.1 != id).map Prod.snd).Subperm
        (s.outstandingRequests.map Prod.snd) :=
      List.cons_subperm_of_not_mem_of_mem hgone (List.mem_map.2 ⟨_, hmem, rfl⟩)
        (List.filter_sublist.map _).subperm
    have hperm : ((s.outstandingRequests.filter fun e => e.1 != id).map Prod.snd ++
        (s.completed ++ [i])).Perm
        (i :: (s.outstandingRequests.filter fun e => e.1 != id).map Prod.snd ++ s.completed) := by
      rw [← List.append_assoc]
      exact List.perm_append_singleton i _
    exact hperm.subperm.trans ((List.subperm_append_right _).2 hsub)

theorem failAll (h : Once s) : Once s.failAllOutstandingRequests := by
  have hpc : ∀ i, (s.failAllOutstandingRequests.calls i).pc = (s.calls i).pc := by
    intro i
    simp only [State.failAllOutstandingRequests]
    split <;> rfl
  have hperm : (s.completed ++ s.outstandingRequests.map Prod.snd).Perm s.promises :=
    List.perm_append_comm
  exact h.mono hperm.subperm (fun i hi => (hpc i).trans (h.idle i hi))
    fun i hi => (congrArg _ (hpc i)).trans hi

end Once

theorem once_init : Once {} := ⟨fun _ _ => rfl, by simp [State.promises], by simp [State.promises]⟩

/-- **No promise is completed twice**, whatever the number of requests. -/
theorem once_step {s t : State} {a : Act} (h : Once s) (hstep : step s a = some t) : Once t := by
  cases a with
  | call expects =>
    obtain rfl := Option.some.inj hstep
    exact h.newRequest expects
  | register i =>
    obtain ⟨hpc, hstep⟩ := Option.ite_none_right_eq_some.1 hstep
    obtain rfl := Option.some.inj hstep
    exact h.register hpc
  | write i thrown =>
    obtain ⟨hpc, hstep⟩ := Option.ite_none_right_eq_some.1 hstep
    obtain rfl := Option.some.inj hstep
    cases thrown <;> exact h.setPc (by simp [hpc]) rfl
  | timeout i =>
    obtain ⟨⟨hpc, -⟩, hstep⟩ := Option.ite_none_right_eq_some.1 hstep
    obtain rfl := Option.some.inj hstep
    exact h.setPc (by simp [hpc]) rfl
  | ready i =>
    obtain ⟨hpc, hstep⟩ := Option.ite_none_right_eq_some.1 hstep
    obtain ⟨result, -, rfl⟩ := Option.map_eq_some_iff.1 hstep
    cases result with
    | error e => exact h.setPc (by simp [hpc]) rfl
    | ok response =>
      rw [State.get]
      split <;> exact h.setPc (by simp [hpc]) rfl
  | drop i =>
    simp only [step] at hstep
    split at hstep
    · rename_i e hpc
      obtain rfl := Option.some.inj hstep
      exact (h.drop _).setPc (by simp [State.dropOutstandingRequest, hpc]) rfl
    · cases hstep
  | respond response =>
    obtain rfl := Option.some.inj hstep
    exact h.respond response
  | failAll =>
    obtain rfl := Option.some.inj hstep
    exact h.failAll

/-- **Requests and responses are neither mismatched nor leaked.** After any run of fewer than
`2 ^ 32` requests
* different requests have different correlation ids, and a call that has returned a response has
  returned one with its own id;
* no promise has been completed twice, and no `get_future` has thrown;
* the map holds exactly the correlation ids of the calls that have registered and have not been
  completed, failed or dropped, each once, with their own promises;
* the correlation id of a call that has returned or thrown is not in the map. -/
theorem requests_matched (as : List Act) (t : State) (h : machine.run {} as = some t)
    (hfew : t.requests < 2 ^ 32) :
    ((∀ i < t.requests, ∀ j < t.requests,
        (t.calls i).correlationId = (t.calls j).correlationId → i = j) ∧
      ∀ i response, (t.calls i).pc = .returned response →
        response.correlationId = (t.calls i).correlationId) ∧
    (t.completed.Nodup ∧ ∀ i, (t.calls i).pc ≠ .escaped) ∧
    ((t.outstandingRequests.map Prod.fst).Nodup ∧
      (∀ id, id ∈ t.outstandingRequests.map Prod.fst ↔
        ∃ i < t.requests, (t.calls i).correlationId = id ∧ (t.calls i).Outstanding) ∧
      ∀ id i, (id, i) ∈ t.outstandingRequests → (t.calls i).correlationId = id) ∧
    ∀ i < t.requests, (t.calls i).pc.isOver = true →
      (t.calls i).correlationId ∉ t.outstandingRequests.map Prod.fst := by
  have hinv := inv_run h hfew
  have hkeys : ∀ id, id ∈ t.outstandingRequests.map Prod.fst ↔
      ∃ i < t.requests, (t.calls i).correlationId = id ∧ (t.calls i).Outstanding := by
    intro id
    constructor
    · intro hid
      obtain ⟨⟨id, i⟩, hmem, rfl⟩ := List.mem_map.1 hid
      obtain ⟨hid, hout⟩ := (hinv.outstanding id i).1 hmem
      exact ⟨i, hinv.lt_of_outstanding hout, hid, hout⟩
    · rintro ⟨i, -, hid, hout⟩
      exact List.mem_map.2 ⟨(id, i), (hinv.outstanding id i).2 ⟨hid, hout⟩, rfl⟩
  refine ⟨⟨fun i hi j hj => hinv.distinct hfew hi hj, ?_⟩,
    ⟨hinv.once, fun i => (hinv.calls i).escaped⟩,
    ⟨hinv.keys, hkeys, fun id i hmem => ((hinv.outstanding id i).1 hmem).1⟩, ?_⟩
  · intro i response hpc
    exact (hinv.calls i).own response ((hinv.calls i).returned response hpc)
  · intro i hi hover hmem
    obtain ⟨j, hj, hid, hout⟩ := (hkeys _).1 hmem
    obtain rfl := hinv.distinct hfew hj hi hid
    have hregistered := hout.1
    cases hpc : (t.calls j).pc <;> simp [hpc, CallPc.isOver, CallPc.isRegistered] at hover hregistered

/-- Two requests of which one times out while the other is answered; its own answer comes too late. -/
def lateResponse : List Act :=
  [.call .generic, .call .metadata, .register 1, .register 0, .write 0 none, .write 1 none,
    .respond ⟨2, .metadata⟩, .timeout 0, .ready 1, .drop 0, .respond ⟨1, .generic⟩]

theorem requests_matched_lateResponse :
    ∃ t, machine.run {} lateResponse = some t ∧ (t.calls 1).pc = .returned ⟨2, .metadata⟩ ∧
      (t.calls 0).correlationId ∉ t.outstandingRequests.map Prod.fst := by
  obtain ⟨t, ht, hfew, hreturned, hover⟩ : ∃ t, machine.run {} lateResponse = some t ∧
      t.requests = 2 ∧ (t.calls 1).pc = .returned ⟨2, .metadata⟩ ∧ (t.calls 0).pc.isOver = true :=
    ⟨_, rfl, rfl, rfl, rfl⟩
  have h := requests_matched lateResponse t ht (by omega)
  exact ⟨t, ht, hreturned, h.2.2.2 0 (by omega) hover⟩

end Hareflow.Client.Requests
