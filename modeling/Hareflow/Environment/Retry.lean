import Mathlib.Data.List.Nodup
import Hareflow.Environment.Operation

/-!
# Retried administrative operations

`StreamCreator::create` and `delete_stream` send one request to the broker, through
`locator_operation`, which sends it again when an attempt ends with a `TimeoutException` or an
`IOException`. Such an attempt may still have reached the broker: its response was lost, or comes too
late. Neither operation is idempotent, so the next attempt may be answered with the effect of the
one before it: the stream already exists, or does not exist any more.

The machine has the call, which moves as any call of `locator_operation` does, and the broker, which
executes each request that it receives once, at any time after it was sent, or never receives it.
Nobody else touches the stream.
-/

namespace Hareflow.Environment.Retry

open Foundations

/-- The administrative operations on a stream. -/
inductive Operation
  | create
  | delete
  deriving DecidableEq, Repr

/-- Whether the stream exists once the operation has been carried out. -/
def Operation.target : Operation → Bool
  | create => true
  | delete => false

/-- The code of the response if there is nothing to carry out. -/
def Operation.conflict : Operation → ResponseCode
  | create => .streamAlreadyExists
  | delete => .streamDoesNotExist

/-- The code of the response of the broker, by whether the stream exists. -/
def Operation.execute (op : Operation) (existing : Bool) : ResponseCode :=
  if existing = op.target then op.conflict else .ok

/-- The call and the broker. A request is the number of its attempt. -/
structure State where
  call : Call Unit Unit
  /-- The request of the attempt has been written, and the call waits for the response. -/
  awaiting : Bool := false
  /-- Whether the stream exists. -/
  existing : Bool
  /-- The requests that were sent and that the broker has not executed. -/
  inFlight : List ℕ := []
  /-- The requests that the broker has executed, in this order, with the codes of their responses. -/
  executed : List (ℕ × ResponseCode) := []
  deriving DecidableEq, Repr

inductive Act
  /-- The wait for a locator ends without one. -/
  | noLocator
  | take
  /-- The request is refused before it is written. -/
  | refuse (what : String)
  /-- The request cannot be written. -/
  | writeFails (what : String)
  | send
  /-- The broker receives and executes the request of attempt `j`. -/
  | execute (j : ℕ)
  /-- The response of the current attempt arrives in time. -/
  | respond (code : ResponseCode)
  /-- It does not, or the connection is lost. -/
  | fail (e : Lost)
  deriving DecidableEq, Repr

/-- `send_request_check_response_code` on a response. -/
def checkResponseCode (code : ResponseCode) : Outcome Unit :=
  if code ≠ .ok then .threw (.responseError code) else .returned ()

/-- The call goes on; it does not wait for a response any longer. -/
def State.operate (s : State) (a : CallAct Unit Unit) : Option State :=
  (s.call.step a).map fun call => { s with call := call, awaiting := false }

def step (op : Operation) (s : State) : Act → Option State
  | .noLocator => s.operate .noLocator
  | .take => s.operate (.take ())
  | .refuse what =>
    if s.awaiting then none else s.operate (.finish (.threw (.invalidInput what)))
  | .writeFails what => if s.awaiting then none else s.operate (.finish (.lost (.io what)))
  | .send =>
    match s.call, s.awaiting with
    | .operating i _, false => some { s with awaiting := true, inFlight := i :: s.inFlight }
    | _, _ => none
  | .execute j =>
    if j ∈ s.inFlight then
      some { s with
        existing := op.target
        inFlight := s.inFlight.erase j
        executed := s.executed ++ [(j, op.execute s.existing)] }
    else none
  | .respond code =>
    match s.call, s.awaiting with
    | .operating i _, true =>
      if (i, code) ∈ s.executed then s.operate (.finish (checkResponseCode code)) else none
    | _, _ => none
  | .fail e => if s.awaiting then s.operate (.finish (.lost e)) else none

/-- A call for a stream, by whether the stream exists. `create` refuses an empty name. -/
def initial (op : Operation) (stream : List UInt8) (existed : Bool) : State where
  call := if op = .create ∧ stream.isEmpty then
      .ended 0 (.threw (.invalidInput "stream needs to be specified for a creator"))
    else .waiting 1
  existing := existed

def machine (op : Operation) (stream : List UInt8) (existed : Bool) : Machine State Act where
  Init s := s = initial op stream existed
  step := step op

/-! ## What the broker answers -/

/-- The requests of the attempts before this one may exist. -/
def requested (awaiting : Bool) : Call Unit Unit → ℕ
  | .waiting i => i
  | .operating i _ => if awaiting then i + 1 else i
  | .ended i _ => i + 1

/-- The outcome of a call that has got a response. -/
def isAnswer : Outcome Unit → Bool
  | .returned _ | .threw (.responseError _) => true
  | _ => false

/-- The requests are those of different attempts, and the first one that is executed decides. -/
structure Inv (op : Operation) (existed : Bool) (s : State) : Prop where
  requests : ∀ j ∈ s.inFlight ++ s.executed.map Prod.fst, j < requested s.awaiting s.call
  nodup : (s.inFlight ++ s.executed.map Prod.fst).Nodup
  existing : s.existing = if s.executed = [] then existed else op.target
  /-- The first request meets the stream as it was, the others as the first has left it. -/
  codes : ∀ request ∈ s.executed, request.2 =
    if s.executed.head? = some request then op.execute existed else op.conflict
  answered : ∀ i o, s.call = .ended i o → isAnswer o = true →
    ∃ code, (i, code) ∈ s.executed ∧ o = checkResponseCode code

namespace Inv

variable {op : Operation} {existed : Bool} {s t : State}

/-- The call goes on, and if it ends with an answer, then with the one that it got. -/
theorem operate (h : Inv op existed s) {a : CallAct Unit Unit} (hstep : s.operate a = some t)
    (ha : ∀ i o, s.call = .operating i () → a = .finish o → isAnswer o = true →
      ∃ code, (i, code) ∈ s.executed ∧ o = checkResponseCode code) : Inv op existed t := by
  obtain ⟨call, hcall, rfl⟩ := Option.map_eq_some_iff.1 hstep
  obtain ⟨i, k, hwaiting, -, rfl⟩ | ⟨i, o, hc, hend⟩ := Call.step_cases hcall
  · refine { h with requests := fun j hj => ?_, answered := fun _ _ hover => by cases hover }
    simpa [hwaiting, requested] using h.requests j hj
  -- the attempt is over, with or without a request of its own
  have hrequests : ∀ j ∈ s.inFlight ++ s.executed.map Prod.fst, j < i + 1 := by
    intro j hj
    have hlt := h.requests j hj
    obtain ⟨hwaiting, -, -⟩ | ⟨k, hoperating, -⟩ := hc
    · rw [hwaiting] at hlt
      exact Nat.lt_succ_of_lt hlt
    · simp only [hoperating, requested] at hlt
      split at hlt
      · exact hlt
      · exact Nat.lt_succ_of_lt hlt
  obtain ⟨rfl, -⟩ | ⟨rfl, -⟩ := hend
  · refine { h with requests := hrequests, answered := fun j o' hover hanswer => ?_ }
    obtain ⟨rfl, rfl⟩ := Call.ended.inj hover
    obtain ⟨-, -, rfl⟩ | ⟨k, hoperating, rfl⟩ := hc
    · cases hanswer
    · exact ha i o hoperating rfl hanswer
  · exact { h with requests := hrequests, answered := fun _ _ hover => by cases hover }

/-- A request is sent. -/
theorem send (h : Inv op existed s) {i : ℕ} {k : Unit} (hcall : s.call = .operating i k)
    (hidle : s.awaiting = false) :
    Inv op existed { s with awaiting := true, inFlight := i :: s.inFlight } := by
  have hrequests : ∀ j ∈ s.inFlight ++ s.executed.map Prod.fst, j < i := by
    intro j hj
    simpa [hcall, hidle, requested] using h.requests j hj
  refine ⟨?_, ?_, h.existing, h.codes, fun _ _ hover => by cases hcall.symm.trans hover⟩
  · intro j hj
    simp only [hcall, requested, if_true]
    rcases List.mem_cons.1 hj with rfl | hj
    · exact Nat.lt_succ_self j
    · exact Nat.lt_succ_of_lt (hrequests j hj)
  · exact List.nodup_cons.2 ⟨fun hi => Nat.lt_irrefl i (hrequests i hi), h.nodup⟩

/-- The broker executes a request. -/
theorem execute (h : Inv op existed s) {j : ℕ} (hj : j ∈ s.inFlight) :
    Inv op existed { s with
      existing := op.target
      inFlight := s.inFlight.erase j
      executed := s.executed ++ [(j, op.execute s.existing)] } := by
  have hnew : j ∉ s.executed.map Prod.fst := fun hmem =>
    (List.nodup_append.1 h.nodup).2.2 j hj j hmem rfl
  have hperm : (s.inFlight.erase j ++ (s.executed ++ [(j, op.execute s.existing)]).map Prod.fst).Perm
      (s.inFlight ++ s.executed.map Prod.fst) := by
    rw [List.map_append, ← List.append_assoc]
    refine (List.perm_append_singleton _ _).trans ?_
    exact ((List.perm_cons_erase hj).append_right _).symm
  refine ⟨fun i hi => h.requests i (hperm.mem_iff.1 hi), hperm.nodup_iff.2 h.nodup, by simp, ?_, ?_⟩
  · intro request hmem
    have hexisting := h.existing
    cases hexecuted : s.executed with
    | nil =>
      rw [hexecuted, if_pos rfl] at hexisting
      rw [hexecuted] at hmem
      obtain rfl := List.mem_singleton.1 hmem
      simp [hexisting]
    | cons first rest =>
      rw [hexecuted, if_neg (List.cons_ne_nil _ _)] at hexisting
      have hhead : (first :: rest ++ [(j, op.execute s.existing)]).head? = s.executed.head? := by
        rw [hexecuted]
        rfl
      rw [hhead]
      rcases List.mem_append.1 hmem with hmem | hmem
      · exact h.codes request hmem
      · obtain rfl := List.mem_singleton.1 hmem
        have hne : s.executed.head? ≠ some (j, op.execute s.existing) := fun heq =>
          hnew (List.mem_map.2 ⟨_, List.mem_of_mem_head? heq, rfl⟩)
        rw [if_neg hne, hexisting, Operation.execute, if_pos rfl]
  · intro i o hcall hanswer
    obtain ⟨code, hmem, ho⟩ := h.answered i o hcall hanswer
    exact ⟨code, List.mem_append_left _ hmem, ho⟩

theorem step {a : Act} (h : Inv op existed s) (hstep : Retry.step op s a = some t) :
    Inv op existed t := by
  cases a with
  | noLocator | take => exact h.operate hstep fun _ _ _ ha => by cases ha
  | refuse what | writeFails what | fail e =>
    -- the operation ends without an answer
    obtain ⟨-, hstep⟩ : _ ∧ s.operate _ = some t := by
      simpa [Retry.step] using hstep
    refine h.operate hstep fun _ o _ ha hanswer => ?_
    obtain rfl := CallAct.finish.inj ha
    cases hanswer
  | send =>
    simp only [Retry.step] at hstep
    split at hstep
    · rename_i i k hcall hidle
      obtain rfl := Option.some.inj hstep
      exact h.send hcall hidle
    · cases hstep
  | execute j =>
    obtain ⟨hj, hstep⟩ := Option.ite_none_right_eq_some.1 hstep
    obtain rfl := Option.some.inj hstep
    exact h.execute hj
  | respond code =>
    simp only [Retry.step] at hstep
    split at hstep
    · rename_i i k hcall hawaiting
      obtain ⟨hmem, hstep⟩ := Option.ite_none_right_eq_some.1 hstep
      refine h.operate hstep fun j o hj ha _ => ?_
      obtain ⟨rfl, -⟩ := Call.operating.inj (hcall.symm.trans hj)
      obtain rfl := CallAct.finish.inj ha
      exact ⟨code, hmem, rfl⟩
    · cases hstep

end Inv

theorem inv_init (op : Operation) (stream : List UInt8) (existed : Bool) :
    Inv op existed (initial op stream existed) := by
  refine ⟨by simp [initial], by simp [initial], by simp [initial], by simp [initial], ?_⟩
  intro i o hcall hanswer
  simp only [initial] at hcall
  split at hcall
  · obtain ⟨rfl, rfl⟩ := Call.ended.inj hcall
    cases hanswer
  · cases hcall

/-- The call throws the conflict when the code of the response is the conflict. -/
theorem checkResponseCode_eq_conflict (op : Operation) (code : ResponseCode) :
    checkResponseCode code = .threw (.responseError op.conflict) ↔ code = op.conflict := by
  have hconflict : op.conflict ≠ .ok := by cases op <;> decide
  rw [checkResponseCode]
  split
  · simp
  · rename_i hok
    obtain rfl : code = .ok := not_not.1 hok
    simp [hconflict.symm]

theorem execute_eq_conflict (op : Operation) (existed : Bool) :
    op.execute existed = op.conflict ↔ existed = op.target := by
  cases op <;> cases existed <;> decide

/-- **A retried operation may report its own effect as a conflict.** A call of `create` or
`delete_stream` that has got a response to attempt `i` throws the conflict exactly if there was
nothing to carry out before the call (the stream existed, or did not exist), or the first request
that the broker executed was that of another attempt, whose response was lost or late. -/
theorem conflict_iff (op : Operation) (stream : List UInt8) (existed : Bool) (acts : List Act)
    (t : State) (h : (machine op stream existed).run (initial op stream existed) acts = some t)
    (i : ℕ) (o : Outcome Unit) (hover : t.call = .ended i o) (hanswer : isAnswer o = true) :
    o = .threw (.responseError op.conflict) ↔
      existed = op.target ∨ (t.executed.map Prod.fst).head? ≠ some i := by
  have hinv : Inv op existed t :=
    Machine.run_keeps (M := machine op stream existed) (P := Inv op existed) Inv.step
      (inv_init op stream existed) h
  obtain ⟨code, hmem, rfl⟩ := hinv.answered i o hover hanswer
  have hcode := hinv.codes (i, code) hmem
  rw [checkResponseCode_eq_conflict, List.head?_map]
  by_cases hhead : t.executed.head? = some (i, code)
  · rw [if_pos hhead] at hcode
    rw [hhead, show code = op.execute existed from hcode, execute_eq_conflict]
    simp
  · rw [if_neg hhead] at hcode
    refine ⟨fun _ => .inr fun hfirst => hhead ?_, fun _ => hcode⟩
    obtain ⟨⟨j, code'⟩, hhead', rfl⟩ := Option.map_eq_some_iff.1 hfirst
    have hsame := List.inj_on_of_nodup_map (List.nodup_append.1 hinv.nodup).2.1
      (List.mem_of_mem_head? hhead') hmem rfl
    rw [hhead', hsame]

/-- The request of the first attempt is late: the broker executes it after that of the second, which
is answered. -/
def lateRequest : List Act :=
  [.take, .send, .fail (.timeout "Timeout while waiting for response"), .take, .send, .execute 2,
    .execute 1, .respond .ok]

/-- The second attempt of a creation returns, and it was the one that created the stream. -/
theorem conflict_iff_lateRequest :
    ∃ t, (machine .create [115] false).run (initial .create [115] false) lateRequest = some t ∧
      t.call = .ended 2 (.returned ()) ∧ (t.executed.map Prod.fst).head? = some 2 := by
  obtain ⟨t, ht, hover⟩ : ∃ t, (machine .create [115] false).run (initial .create [115] false)
      lateRequest = some t ∧ t.call = .ended 2 (.returned ()) := ⟨_, rfl, rfl⟩
  have hiff := conflict_iff .create [115] false lateRequest t ht 2 (.returned ()) hover rfl
  refine ⟨t, ht, hover, ?_⟩
  by_contra hfirst
  have := hiff.2 (.inr hfirst)
  cases this

/-- The response to the first attempt is lost, and the second attempt is answered. -/
def lostResponse (code : ResponseCode) : List Act :=
  [.take, .send, .execute 1, .fail (.timeout "Timeout while waiting for response"), .take, .send,
    .execute 2, .respond code]

/-- A stream that did not exist is created by the first attempt, and the call throws
`StreamAlreadyExists`; a stream that existed is deleted by the first attempt, and the call throws
`StreamDoesNotExist`. -/
theorem conflict_of_lostResponse :
    (∃ t, (machine .create [115] false).run (initial .create [115] false)
      (lostResponse .streamAlreadyExists) = some t ∧
      t.call = .ended 2 (.threw (.responseError .streamAlreadyExists))) ∧
    ∃ t, (machine .delete [115] true).run (initial .delete [115] true)
      (lostResponse .streamDoesNotExist) = some t ∧
      t.call = .ended 2 (.threw (.responseError .streamDoesNotExist)) :=
  ⟨⟨_, rfl, rfl⟩, ⟨_, rfl, rfl⟩⟩

end Hareflow.Environment.Retry
