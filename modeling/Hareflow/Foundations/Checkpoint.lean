import Mathlib.Data.Nat.Notation
import Mathlib.Order.Basic

/-!
# Checkpoints

A log of items that come in order, and of the marks that are set at them: a mark at an item says
that everything up to the item is saved. Each mark has a label, which says who has set it.

* `last` is the last item, `pending` the number of items since the last mark, and `marks` the items
  at which marks were set.
* `Orderly` is the discipline: the items increase, and a mark is set at the last item only, while
  something is pending. Then the marks increase (`Orderly.marks_pairwise`).
-/

namespace Foundations

/-- An entry of the log. -/
inductive Note (α β : Type*)
  | item (a : α)
  | mark (a : α) (b : β)
  deriving DecidableEq, Repr

namespace Note

variable {α β : Type*}

/-- The last item of the log. -/
def last (l : List (Note α β)) : Option α :=
  l.foldl (fun o e => match e with | item a => some a | mark _ _ => o) none

/-- The number of items since the last mark. -/
def pending (l : List (Note α β)) : ℕ :=
  l.foldl (fun n e => match e with | item _ => n + 1 | mark _ _ => 0) 0

/-- The items at which marks were set. -/
def marks (l : List (Note α β)) : List α :=
  l.filterMap fun e => match e with | item _ => none | mark a _ => some a

/-- A mark with the label was set. -/
def MarkedBy (l : List (Note α β)) (b : β) : Prop := ∃ a, mark a b ∈ l

variable (l : List (Note α β)) (a : α) (b : β)

@[simp] theorem last_item : last (l ++ [item a]) = some a := by simp [last]

@[simp] theorem last_mark : last (l ++ [mark a b]) = last l := by simp [last]

@[simp] theorem pending_item : pending (l ++ [item a]) = pending l + 1 := by simp [pending]

@[simp] theorem pending_mark : pending (l ++ [mark a b]) = 0 := by simp [pending]

@[simp] theorem marks_item : marks (l ++ [item a]) = marks l := by simp [marks]

@[simp] theorem marks_mark : marks (l ++ [mark a b]) = marks l ++ [a] := by simp [marks]

@[simp] theorem not_markedBy_nil : ¬MarkedBy ([] : List (Note α β)) b := by simp [MarkedBy]

@[simp] theorem markedBy_item : MarkedBy (l ++ [item a]) b ↔ MarkedBy l b := by simp [MarkedBy]

@[simp] theorem markedBy_mark (b' : β) :
    MarkedBy (l ++ [mark a b']) b ↔ MarkedBy l b ∨ b = b' := by
  simp [MarkedBy, exists_or]

variable [Preorder α] {l : List (Note α β)}

/-- The items increase, and a mark is set at the last item while something is pending. -/
inductive Orderly : List (Note α β) → Prop
  | nil : Orderly []
  | item {l : List (Note α β)} {a : α} (h : Orderly l) (hlt : ∀ x ∈ last l, x < a) :
    Orderly (l ++ [.item a])
  | mark {l : List (Note α β)} {a : α} (b : β) (h : Orderly l) (hlast : last l = some a)
    (hpos : 0 < pending l) : Orderly (l ++ [.mark a b])

/-- A mark is not past the last item, and before it while something is pending. -/
theorem Orderly.le_last (h : Orderly l) :
    ∀ m ∈ marks l, ∃ x, last l = some x ∧ m ≤ x ∧ (0 < pending l → m < x) := by
  induction h with
  | nil => exact nofun
  | @item l a h hlt ih =>
    intro m hm
    obtain ⟨x, hx, hmx, -⟩ := ih m (by simpa using hm)
    have hma : m < a := lt_of_le_of_lt hmx (hlt x hx)
    exact ⟨a, last_item l a, le_of_lt hma, fun _ => hma⟩
  | @mark l a b h hlast hpos ih =>
    intro m hm
    refine ⟨a, (last_mark l a b).trans hlast, ?_, fun h0 => by simp at h0⟩
    rw [marks_mark, List.mem_append, List.mem_singleton] at hm
    obtain hm | rfl := hm
    · obtain ⟨x, hx, hmx, -⟩ := ih m hm
      obtain rfl : x = a := Option.some.inj (hx.symm.trans hlast)
      exact hmx
    · exact le_refl m

/-- **The marks increase.** -/
theorem Orderly.marks_pairwise (h : Orderly l) : (marks l).Pairwise (· < ·) := by
  induction h with
  | nil => exact List.Pairwise.nil
  | item h hlt ih => simpa using ih
  | @mark l a b h hlast hpos ih =>
    rw [marks_mark, List.pairwise_append]
    refine ⟨ih, List.pairwise_singleton .., fun m hm x hx => ?_⟩
    obtain rfl := List.mem_singleton.1 hx
    -- the item came after the last mark, and so it is past all of them
    obtain ⟨y, hy, -, hlt⟩ := h.le_last m hm
    obtain rfl : y = x := Option.some.inj (hy.symm.trans hlast)
    exact hlt hpos

end Note

end Foundations
