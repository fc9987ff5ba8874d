import Mathlib.Data.Nat.Notation
import Mathlib.Tactic.TypeStar
import Mathlib.Tactic.Common

/-!
# Bounded queues

Calls from any number of threads append elements to a queue of bounded capacity, and are told
whether the element has filled it. At any time somebody may take all elements out.

A journal lists what was added and what was taken. `Follows` ties the contents of a queue to its
journal: nothing is lost or reordered, the capacity is never exceeded, and a full queue was filled by
a call that was told so since the last time that the elements were taken (`Unanswered`).
`Follows.add` and `Follows.take` are the rules.
-/

namespace Foundations

variable {ι α : Type*}

namespace BoundedQueue

/-- What happens to a queue; `ι` names the calls that add. -/
inductive Event (ι α : Type*)
  /-- A call adds an element, and is told whether the queue is now full. -/
  | added (i : ι) (x : α) (full : Bool)
  /-- All elements are taken out. -/
  | taken (xs : List α)
  deriving DecidableEq, Repr

/-- The elements that were added, in this order. -/
def additions (journal : List (Event ι α)) : List α :=
  journal.filterMap fun
    | .added _ x _ => some x
    | .taken _ => none

/-- The lists that were taken out, in this order. -/
def extractions (journal : List (Event ι α)) : List (List α) :=
  journal.filterMap fun
    | .added _ _ _ => none
    | .taken xs => some xs

/-- The call was told that the queue is full, and since then nothing has been taken. -/
def Unanswered (journal : List (Event ι α)) (i : ι) : Prop :=
  ∃ before x after, journal = before ++ .added i x true :: after ∧ extractions after = []

@[simp] theorem additions_append (l l' : List (Event ι α)) :
    additions (l ++ l') = additions l ++ additions l' := List.filterMap_append

@[simp] theorem extractions_append (l l' : List (Event ι α)) :
    extractions (l ++ l') = extractions l ++ extractions l' := List.filterMap_append

@[simp] theorem additions_added (i : ι) (x : α) (full : Bool) :
    additions [.added i x full] = [x] := rfl

@[simp] theorem additions_taken (xs : List α) : additions [(.taken xs : Event ι α)] = [] := rfl

@[simp] theorem extractions_added (i : ι) (x : α) (full : Bool) :
    extractions [.added i x full] = [] := rfl

@[simp] theorem extractions_taken (xs : List α) :
    extractions [(.taken xs : Event ι α)] = [xs] := rfl

namespace Unanswered

variable {journal : List (Event ι α)} {i j : ι} {x : α} {full : Bool}

theorem add (h : Unanswered journal i) (j : ι) (x : α) (full : Bool) :
    Unanswered (journal ++ [.added j x full]) i := by
  obtain ⟨before, y, after, rfl, hafter⟩ := h
  exact ⟨before, y, after ++ [.added j x full], by simp, by simp [hafter]⟩

theorem last (journal : List (Event ι α)) (i : ι) (x : α) :
    Unanswered (journal ++ [.added i x true]) i :=
  ⟨journal, x, [], rfl, rfl⟩

/-- The event is the last one, or was there before it. -/
theorem of_append_singleton {e : Event ι α} (h : Unanswered (journal ++ [e]) i) :
    (∃ x, e = .added i x true) ∨ Unanswered journal i ∧ extractions [e] = [] := by
  obtain ⟨before, x, after, heq, hafter⟩ := h
  rcases List.eq_nil_or_concat after with rfl | ⟨init, e', rfl⟩
  · exact .inl ⟨x, (List.append_inj' heq rfl).2 |> List.singleton_inj.1⟩
  · rw [List.concat_eq_append, extractions_append, List.append_eq_nil_iff] at hafter
    rw [List.concat_eq_append, ← List.cons_append, ← List.append_assoc] at heq
    obtain ⟨rfl, hlast⟩ := List.append_inj' heq rfl
    obtain rfl := List.singleton_inj.1 hlast
    exact .inr ⟨⟨before, x, init, rfl, hafter.1⟩, hafter.2⟩

theorem not_take (journal : List (Event ι α)) (xs : List α) (i : ι) :
    ¬Unanswered (journal ++ [.taken xs]) i := by
  intro h
  obtain ⟨x, hx⟩ | ⟨-, hx⟩ := h.of_append_singleton
  · cases hx
  · cases hx

end Unanswered

/-- A queue of this capacity with these elements has come about as the journal says. -/
structure Follows (capacity : ℕ) (pending : List α) (journal : List (Event ι α)) : Prop where
  lossless : (extractions journal).flatten ++ pending = additions journal
  bounded : pending.length ≤ capacity
  filled : pending.length = capacity → ∃ i, Unanswered journal i

namespace Follows

variable {capacity : ℕ} {pending : List α} {journal : List (Event ι α)}

theorem empty (hc : 0 < capacity) : Follows capacity [] ([] : List (Event ι α)) where
  lossless := rfl
  bounded := Nat.zero_le _
  filled h := absurd h (Nat.ne_of_lt hc)

theorem add (h : Follows capacity pending journal) (hroom : pending.length < capacity) (i : ι)
    (x : α) :
    Follows capacity (pending ++ [x])
      (journal ++ [.added i x (pending.length + 1 == capacity)]) where
  lossless := by simp [← h.lossless]
  bounded := by
    rw [List.length_append]
    exact hroom
  filled hfull := by
    rw [List.length_append, List.length_singleton] at hfull
    rw [beq_iff_eq.2 hfull]
    exact ⟨i, .last journal i x⟩

theorem take (h : Follows capacity pending journal) (hc : 0 < capacity) :
    Follows capacity [] (journal ++ [.taken pending]) where
  lossless := by simp [← h.lossless]
  bounded := Nat.zero_le _
  filled h := absurd h (Nat.ne_of_lt hc)

end Follows

end BoundedQueue

end Foundations
