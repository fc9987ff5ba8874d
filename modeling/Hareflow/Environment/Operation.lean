import Hareflow.Exceptions
import Hareflow.Foundations.Machine

/-!
# A call of `locator_operation`

Every administrative request of an environment goes through `locator_operation`, which waits for a
locator, takes it and tries the operation on it, up to three times: it tries again when there was no
locator, or when the operation ended with a `TimeoutException` or an `IOException`.

* `Call` is where a call is and `Call.step` what it can do, for an operation that gives a value of any
  type on clients of any type. The environment's machine has any number of calls beside its locator;
  the creation and the deletion of a stream and the choice of a broker are calls with operations of
  their own.
* `Call.Bounded` holds along every run: there are at most three attempts, and what is tried again
  after ends the last one only.
-/

namespace Hareflow.Environment

open Foundations

/-- The attempts of `locator_operation`. -/
def nbRetries : ℕ := 3

/-- The exceptions that `locator_operation` tries again after. -/
inductive Lost
  /-- `TimeoutException`. -/
  | timeout (what : String)
  /-- `IOException`. -/
  | io (what : String)
  deriving DecidableEq, Repr

/-- How an operation ends, and how a call does. -/
inductive Outcome (α : Type)
  | returned (value : α)
  | lost (e : Lost)
  | threw (e : StreamException)
  deriving DecidableEq, Repr

def Outcome.retried {α : Type} : Outcome α → Bool
  | lost _ => true
  | _ => false

/-- Where a call is, with the number of its attempt. -/
inductive Call (κ α : Type)
  /-- Waiting for a locator. -/
  | waiting (i : ℕ)
  /-- In the operation, on a client. -/
  | operating (i : ℕ) (client : κ)
  | ended (i : ℕ) (o : Outcome α)
  deriving DecidableEq, Repr

inductive CallAct (κ α : Type)
  /-- The wait for a locator ends without one. -/
  | noLocator
  | take (client : κ)
  /-- The operation ends. -/
  | finish (o : Outcome α)
  deriving DecidableEq, Repr

def locatorNotAvailable : StreamException := .stream "Locator not available"

namespace Call

variable {κ α : Type}

/-- What follows a failed attempt: the last one is the end of the call. -/
def nextAttempt (i : ℕ) (o : Outcome α) : Call κ α :=
  if nbRetries ≤ i then .ended i o else .waiting (i + 1)

def step : Call κ α → CallAct κ α → Option (Call κ α)
  | .waiting i, .noLocator => some (nextAttempt i (.threw locatorNotAvailable))
  | .waiting i, .take c => some (.operating i c)
  | .operating i _, .finish o => some (if o.retried then nextAttempt i o else .ended i o)
  | _, _ => none

/-- A call as a machine. -/
def machine : Machine (Call κ α) (CallAct κ α) := ⟨(· = .waiting 1), step⟩

/-- The attempt is one of those there are, and an outcome that is tried again after is the outcome of
the last. -/
def Bounded : Call κ α → Prop
  | .waiting i | .operating i _ => 0 < i ∧ i ≤ nbRetries
  | .ended i o => 0 < i ∧ i ≤ nbRetries ∧ (o.retried = true → i = nbRetries)

/-- What a step of a call can be: it takes a locator, or its attempt ends, and it with it or not. -/
theorem step_cases {c c' : Call κ α} {a : CallAct κ α} (h : step c a = some c') :
    (∃ i k, c = .waiting i ∧ a = .take k ∧ c' = .operating i k) ∨
      ∃ i o, (c = .waiting i ∧ a = .noLocator ∧ o = .threw locatorNotAvailable ∨
          ∃ k, c = .operating i k ∧ a = .finish o) ∧
        (c' = .ended i o ∧ (o.retried = true → nbRetries ≤ i) ∨
          c' = .waiting (i + 1) ∧ i < nbRetries) := by
  have hnext (i : ℕ) (o : Outcome α) :
      (nextAttempt i o : Call κ α) = .ended i o ∧ (o.retried = true → nbRetries ≤ i) ∨
        (nextAttempt i o : Call κ α) = .waiting (i + 1) ∧ i < nbRetries := by
    by_cases hlast : nbRetries ≤ i
    · exact .inl ⟨if_pos hlast, fun _ => hlast⟩
    · exact .inr ⟨if_neg hlast, Nat.lt_of_not_le hlast⟩
  cases c with
  | waiting i =>
    cases a with
    | noLocator =>
      obtain rfl := Option.some.inj h
      exact .inr ⟨i, _, .inl ⟨rfl, rfl, rfl⟩, hnext i _⟩
    | take k =>
      obtain rfl := Option.some.inj h
      exact .inl ⟨i, k, rfl, rfl, rfl⟩
    | finish o => cases h
  | operating i k =>
    cases a with
    | noLocator => cases h
    | take k => cases h
    | finish o =>
      obtain rfl := Option.some.inj h
      refine .inr ⟨i, o, .inr ⟨k, rfl, rfl⟩, ?_⟩
      split
      · exact hnext i o
      · rename_i hdone
        exact .inl ⟨rfl, fun hretried => absurd hretried hdone⟩
  | ended i o => cases a <;> cases h

theorem Bounded.step {c c' : Call κ α} {a : CallAct κ α} (h : c.Bounded)
    (hstep : Call.step c a = some c') : c'.Bounded := by
  obtain ⟨i, k, rfl, -, rfl⟩ | ⟨i, o, hc, hend⟩ := step_cases hstep
  · exact h
  have hi : 0 < i ∧ i ≤ nbRetries := by
    obtain ⟨rfl, -, -⟩ | ⟨k, rfl, -⟩ := hc <;> exact h
  obtain ⟨rfl, hlast⟩ | ⟨rfl, hlt⟩ := hend
  · exact ⟨hi.1, hi.2, fun hretried => Nat.le_antisymm hi.2 (hlast hretried)⟩
  · exact ⟨Nat.succ_pos i, hlt⟩

/-- A call that is over stays so. -/
theorem run_ended {i : ℕ} {o : Outcome α} {c : Call κ α} {as : List (CallAct κ α)}
    (h : machine.run (.ended i o) as = some c) : c = .ended i o := by
  cases as with
  | nil => exact (Option.some.inj h).symm
  | cons a as =>
    obtain ⟨c', hc', -⟩ := Machine.run_cons.1 h
    cases a <;> cases hc'

end Call

end Hareflow.Environment
