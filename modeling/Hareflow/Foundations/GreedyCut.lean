import Mathlib.Algebra.Ring.Nat
import Mathlib.Data.List.Chain
import Mathlib.Data.Nat.Notation
import Mathlib.Tactic.Common

/-!
# Cutting a list into groups under a weight limit

A batcher reads a list of weighted items and fills one group at a time: it closes the open group
when the next item would take it past the limit. `greedy` is that loop, with the open group as its
accumulator. Its result is the only cut of the list into consecutive groups that fit and could not
have taken one more item (`IsGreedyCut.eq_greedy`), so a property of the batcher's groups can be
stated without the batcher, about cuts of its input.
-/

namespace Foundations.GreedyCut

variable {α : Type*} (w : α → ℕ)

/-- The total weight of a group. -/
def weight (g : List α) : ℕ := (g.map w).sum

@[simp] theorem weight_nil : weight w [] = 0 := rfl

@[simp] theorem weight_cons (x : α) (g : List α) : weight w (x :: g) = w x + weight w g := by
  simp [weight]

@[simp] theorem weight_append (g h : List α) : weight w (g ++ h) = weight w g + weight w h := by
  simp [weight]

/-- Fill groups up to `cap`, the group `g` being open: an item that does not fit closes it. -/
def greedy (cap : ℕ) : List α → List α → List (List α)
  | g, [] => if g.isEmpty then [] else [g]
  | g, x :: xs => if cap < weight w g + w x then g :: greedy cap [x] xs else greedy cap (g ++ [x]) xs

/-- A cut into consecutive non-empty groups that fit under `cap`, none of which could have taken
the first item of the next group. -/
structure IsGreedyCut (cap : ℕ) (gs : List (List α)) : Prop where
  ne_nil : ∀ g ∈ gs, g ≠ []
  fits : ∀ g ∈ gs, weight w g ≤ cap
  closed : gs.IsChain fun g g' => ∀ x ∈ g'.head?, cap < weight w g + w x

variable {w} {cap : ℕ}

/-- Cutting loses nothing and keeps the order. -/
theorem flatten_greedy (xs g : List α) : (greedy w cap g xs).flatten = g ++ xs := by
  induction xs generalizing g with
  | nil => cases g <;> simp [greedy]
  | cons x xs ih =>
    rw [greedy]
    split
    · simp [ih]
    · simp [ih]

/-- While the items fit, the loop only extends the open group. -/
theorem greedy_append (p xs rest : List α) (h : weight w (p ++ xs) ≤ cap) :
    greedy w cap p (xs ++ rest) = greedy w cap (p ++ xs) rest := by
  induction xs generalizing p with
  | nil => simp
  | cons x xs ih =>
    have hx : ¬cap < weight w p + w x := by simp at h; omega
    rw [List.cons_append, greedy, if_neg hx, ih (p ++ [x]) (by simpa using h)]
    simp

theorem greedy_nil_cons {x : α} (hx : w x ≤ cap) (xs : List α) :
    greedy w cap [] (x :: xs) = greedy w cap [x] xs := by
  simpa using greedy_append [] [x] xs (by simpa using hx)

/-- **A greedy cut is what the loop computes** on the list it cuts. -/
theorem IsGreedyCut.eq_greedy {gs : List (List α)} (h : IsGreedyCut w cap gs) :
    greedy w cap [] gs.flatten = gs := by
  induction gs with
  | nil => rfl
  | cons g gs ih =>
    obtain ⟨hne, hfits, hclosed⟩ := h
    have htail : IsGreedyCut w cap gs :=
      ⟨fun _ hg => hne _ (.tail _ hg), fun _ hg => hfits _ (.tail _ hg), hclosed.tail⟩
    have hg : g.isEmpty = false := by simpa using hne g (by simp)
    rw [List.flatten_cons, greedy_append [] g _ (by simpa using hfits g (by simp)), List.nil_append]
    -- what closes `g` is the first item of the next group, when there is one
    rcases gs with _ | ⟨g', gs⟩
    · simp [greedy, hg]
    · obtain ⟨x, t, rfl⟩ := List.exists_cons_of_ne_nil (hne g' (by simp))
      have hx : w x ≤ cap := by
        have := hfits (x :: t) (by simp)
        simp only [weight_cons] at this
        omega
      have hclose : cap < weight w g + w x := by
        have := (List.isChain_cons_cons.1 hclosed).1
        exact this x (by simp)
      have htail' := ih htail
      simp only [List.flatten_cons, List.cons_append] at htail' ⊢
      rw [greedy, if_pos hclose, ← greedy_nil_cons hx, htail']

/-- The loop's groups fit, given that the open group and every single item do. -/
theorem greedy_fits {xs g : List α} (hg : weight w g ≤ cap) (hxs : ∀ x ∈ xs, w x ≤ cap) :
    ∀ h ∈ greedy w cap g xs, weight w h ≤ cap := by
  induction xs generalizing g with
  | nil => cases g <;> simp_all [greedy]
  | cons x xs ih =>
    have hxs' : ∀ y ∈ xs, w y ≤ cap := fun y hy => hxs y (.tail _ hy)
    rw [greedy]
    split
    · intro h hh
      rcases List.mem_cons.1 hh with rfl | hh
      · exact hg
      · exact ih (by simpa using hxs x (by simp)) hxs' h hh
    · exact ih (by simp; omega) hxs'

/-- The loop starting on a non-empty open group gives groups that are not empty. -/
theorem greedy_ne_nil {xs g : List α} (hg : g ≠ []) : ∀ h ∈ greedy w cap g xs, h ≠ [] := by
  induction xs generalizing g with
  | nil => simp [greedy, hg]
  | cons x xs ih =>
    rw [greedy]
    split
    · intro h hh
      rcases List.mem_cons.1 hh with rfl | hh
      · exact hg
      · exact ih (by simp) h hh
    · exact ih (by simp)

/-- The first group starts with what the open group starts with. -/
theorem head?_greedy {xs g : List α} (hg : g ≠ []) :
    ∀ h ∈ (greedy w cap g xs).head?, h.head? = g.head? := by
  induction xs generalizing g with
  | nil => simp [greedy, hg]
  | cons x xs ih =>
    rw [greedy]
    split
    · simp
    · intro h hh
      rw [ih (by simp) h hh]
      obtain ⟨y, t, rfl⟩ := List.exists_cons_of_ne_nil hg
      simp

/-- No group of the loop could have taken the first item of the next one. -/
theorem greedy_closed {xs g : List α} :
    (greedy w cap g xs).IsChain fun g g' => ∀ x ∈ g'.head?, cap < weight w g + w x := by
  induction xs generalizing g with
  | nil => cases g <;> simp [greedy]
  | cons x xs ih =>
    rw [greedy]
    split
    · rename_i hx
      refine List.isChain_cons.2 ⟨fun h hh y hy => ?_, ih⟩
      rw [head?_greedy (by simp) h hh] at hy
      obtain rfl : x = y := by simpa using hy
      exact hx
    · exact ih

/-- **The loop computes a greedy cut** when every single item fits. -/
theorem isGreedyCut_greedy {xs : List α} (hxs : ∀ x ∈ xs, w x ≤ cap) :
    IsGreedyCut w cap (greedy w cap [] xs) := by
  refine ⟨?_, greedy_fits (by simp) hxs, greedy_closed⟩
  cases xs with
  | nil => simp [greedy]
  | cons x xs =>
    rw [greedy_nil_cons (hxs x (by simp))]
    exact greedy_ne_nil (by simp)

end Foundations.GreedyCut
