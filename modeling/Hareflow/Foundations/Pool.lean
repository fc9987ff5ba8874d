import Mathlib.Algebra.Order.Group.Multiset
import Mathlib.Data.Multiset.Count

/-!
# Pools of permits

A pool has a number of permits to give out, and records who holds one. A holder is there once for
each permit it holds. The moves of a pool give out one permit or take some back.

* `Pool.Move.total_eq`: what is available and what is held add up to the same number.
* `Pool.Fair` says that every holder holds one permit and is entitled to it; a move keeps it if it
  gives its permit to someone who is entitled to one and has none, and nobody who keeps a permit
  loses the title (`Pool.Fair.move`).
-/

namespace Foundations

variable {α : Type*}

/-- How many permits are left, and who holds the others. -/
@[ext]
structure Pool (α : Type*) where
  available : ℕ
  held : Multiset α

namespace Pool

/-- The permits of a pool. -/
def total (P : Pool α) : ℕ := P.available + P.held.card

/-- The moves of a pool, with the one who gets a permit. -/
inductive Move (P P' : Pool α) : Option α → Prop
  | stay (h : P' = P) : Move P P' none
  | acquire (a : α) (ha : P.available = P'.available + 1) (hh : P'.held = a ::ₘ P.held) :
    Move P P' (some a)
  | release (r : Multiset α) (ha : P'.available = P.available + r.card) (hh : P.held = r + P'.held) :
    Move P P' none

/-- Each holder holds one permit, and has a title to it. -/
structure Fair (title : α → Prop) (P : Pool α) : Prop where
  nodup : P.held.Nodup
  title : ∀ a ∈ P.held, title a

variable {P P' : Pool α} {title title' : α → Prop}

theorem Move.total_eq {o : Option α} (h : Move P P' o) : P'.total = P.total := by
  cases h with
  | stay h => rw [h]
  | acquire a ha hh =>
    simp only [total, ha, hh, Multiset.card_cons]
    omega
  | release r ha hh =>
    simp only [total, ha, hh, Multiset.card_add]
    omega

theorem Fair.move {o : Option α} (hf : Fair title P) (h : Move P P' o)
    (hnew : ∀ a ∈ o, ¬title a ∧ title' a) (hkeep : ∀ a ∈ P'.held, title a → title' a) :
    Fair title' P' := by
  cases h with
  | stay h =>
    subst h
    exact ⟨hf.nodup, fun a ha => hkeep a ha (hf.title a ha)⟩
  | acquire a ha hh =>
    obtain ⟨hnot, htitle⟩ := hnew a rfl
    refine ⟨?_, fun b hb => ?_⟩
    · rw [hh]
      exact Multiset.nodup_cons.2 ⟨fun hmem => hnot (hf.title a hmem), hf.nodup⟩
    · have hb' := hb
      rw [hh] at hb'
      obtain rfl | hmem := Multiset.mem_cons.1 hb'
      · exact htitle
      · exact hkeep b hb (hf.title b hmem)
  | release r ha hh =>
    have hnodup := hf.nodup
    rw [hh] at hnodup
    refine ⟨(Multiset.nodup_add.1 hnodup).2.1, fun b hb => hkeep b hb (hf.title b ?_)⟩
    rw [hh]
    exact Multiset.mem_add.2 (.inr hb)

/-- A holder of a pool that is fair holds exactly one permit. -/
theorem Fair.count_eq_one [DecidableEq α] (hf : Fair title P) {a : α} (ha : a ∈ P.held) :
    P.held.count a = 1 :=
  Multiset.count_eq_one_of_mem hf.nodup ha

end Pool

end Foundations
