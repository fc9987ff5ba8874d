import Mathlib.Data.List.Pairwise
import Mathlib.Data.List.TakeWhile
import Mathlib.Tactic.Common

/-!
# Scans that stop early

A loop that goes through a list and stops at the first element that fails a test handles
`List.takeWhile` of it. It was meant to handle every element that passes, which is `List.filter`.
The two agree when no element that passes stands behind one that fails, and in no other case
(`takeWhile_eq_filter_iff`). In a sorted list that is a statement about the order of the elements
(`pairwise_iff_forall_mem`).

A loop that an element may break has handled what comes before it and the element itself, which is
`throughFirst`. `throughFirst_takeWhile_perm_filter_iff` is about the two, one after the other, and up
to the order.
-/

namespace Foundations

variable {α : Type*} {p : α → Bool}

theorem takeWhile_sublist_filter (p : α → Bool) (l : List α) :
    (l.takeWhile p).Sublist (l.filter p) := by
  induction l with
  | nil => exact .refl _
  | cons x l ih =>
    cases hx : p x with
    | true => simpa [hx] using ih
    | false => simp [hx]

/-- **A scan that stops early is complete** exactly if what passes comes first. -/
theorem takeWhile_eq_filter_iff {l : List α} :
    l.takeWhile p = l.filter p ↔ l.Pairwise fun x y => p y = true → p x = true := by
  induction l with
  | nil => simp
  | cons x l ih =>
    cases hx : p x with
    | true => simp [hx, ih]
    | false =>
      -- the scan stops here, so nothing behind `x` may pass
      rw [List.takeWhile_cons_of_neg (by simp [hx]), List.filter_cons_of_neg (by simp [hx]),
        List.pairwise_cons, eq_comm, List.filter_eq_nil_iff]
      constructor
      · intro hnone
        refine ⟨fun y hy hpy => absurd hpy (hnone y hy), ?_⟩
        exact List.pairwise_of_forall_mem_list fun y _ z hz hpz => absurd hpz (hnone z hz)
      · rintro ⟨hpass, -⟩ y hy hpy
        have := hpass y hy hpy
        simp [hx] at this

/-- The elements up to the first that breaks the loop, this one included. -/
def throughFirst (q : α → Bool) : List α → List α
  | [] => []
  | x :: l => if q x then [x] else x :: throughFirst q l

theorem throughFirst_isPrefix (q : α → Bool) (l : List α) : throughFirst q l <+: l := by
  induction l with
  | nil => exact List.prefix_rfl
  | cons x l ih =>
    rw [throughFirst]
    split
    · exact List.prefix_append [x] l
    · exact (List.prefix_cons_inj x).2 ih

/-- A loop handles everything exactly if only the last element may break it. -/
theorem throughFirst_eq_iff {q : α → Bool} {l : List α} :
    throughFirst q l = l ↔ l.Pairwise fun x _ => q x = false := by
  induction l with
  | nil => simp [throughFirst]
  | cons x l ih =>
    rw [throughFirst, List.pairwise_cons]
    cases hx : q x with
    | false => simp [ih]
    | true =>
      cases l with
      | nil => simp
      | cons y l =>
        simp only [if_true, List.cons.injEq, true_and, false_iff, not_and, reduceCtorEq]
        intro hfalse
        cases hfalse y List.mem_cons_self

/-- An element is handled if none before it breaks the loop. -/
theorem mem_throughFirst {q : α → Bool} {r : α → α → Prop} {l : List α} (hsorted : l.Pairwise r)
    {x : α} (hx : x ∈ l) (hbefore : ∀ y ∈ l, r y x → q y = false) : x ∈ throughFirst q l := by
  induction l with
  | nil => cases hx
  | cons y l ih =>
    rw [throughFirst]
    obtain ⟨hy, hsorted⟩ := List.pairwise_cons.1 hsorted
    rcases List.mem_cons.1 hx with rfl | hx
    · split <;> exact List.mem_cons_self
    · rw [hbefore y List.mem_cons_self (hy x hx)]
      exact List.mem_cons_of_mem y (ih hsorted hx fun z hz => hbefore z (List.mem_cons_of_mem y hz))

/-- **A loop over what a scan has found** handles all that passes exactly if what passes comes first and
only the last of it may break the loop. -/
theorem throughFirst_takeWhile_perm_filter_iff {q : α → Bool} {l : List α} :
    (throughFirst q (l.takeWhile p)).Perm (l.filter p) ↔
      (l.Pairwise fun x y => p y = true → p x = true) ∧
        l.Pairwise fun x y => p x = true → p y = true → q x = false := by
  have hfound := takeWhile_sublist_filter p l
  have hloop := throughFirst_isPrefix q (l.takeWhile p)
  rw [← takeWhile_eq_filter_iff, ← List.pairwise_filter]
  constructor
  · intro hperm
    have hlength := hperm.length_eq
    have heq : l.takeWhile p = l.filter p :=
      hfound.eq_of_length (Nat.le_antisymm hfound.length_le (hlength ▸ hloop.length_le))
    refine ⟨heq, ?_⟩
    rw [heq] at hlength hloop
    exact throughFirst_eq_iff.1 (hloop.eq_of_length hlength)
  · rintro ⟨heq, hlast⟩
    rw [heq, throughFirst_eq_iff.2 hlast]

/-- A scan that handles what it makes of an element, and stops at the first of which it can make
nothing. -/
theorem filterMap_takeWhile_eq_iff {β : Type*} {f : α → Option β} {l : List α} :
    (l.takeWhile fun x => (f x).isSome).filterMap f = l.filterMap f ↔
      l.Pairwise fun x y => (f y).isSome = true → (f x).isSome = true := by
  rw [← takeWhile_eq_filter_iff]
  have hlength : ∀ l : List α, (l.filterMap f).length = (l.filter fun x => (f x).isSome).length :=
    fun l => by rw [← List.countP_eq_length_filter, List.length_filterMap_eq_countP]
  constructor
  · intro heq
    refine (takeWhile_sublist_filter _ l).eq_of_length ?_
    have h := congrArg List.length heq
    rw [hlength, hlength] at h
    rwa [List.filter_eq_self.2 fun x hx =>
      List.mem_takeWhile_imp (p := fun x => (f x).isSome) hx] at h
  · intro heq
    rw [heq, List.filterMap_filter]
    congr 1
    funext x
    cases f x <;> rfl

/-- In a strictly sorted list the order of the elements is that of the list. -/
theorem pairwise_iff_forall_mem {r R : α → α → Prop} (hasymm : ∀ {x y}, r x y → ¬r y x)
    {l : List α} (hsorted : l.Pairwise r) :
    l.Pairwise R ↔ ∀ x ∈ l, ∀ y ∈ l, r x y → R x y := by
  constructor
  · intro hR x hx y hy hxy
    have hboth : l.Pairwise fun x y => (r x y → R x y) ∧ (r y x → R y x) :=
      (hsorted.and hR).imp fun ⟨hlt, h⟩ => ⟨fun _ => h, fun hgt => absurd hgt (hasymm hlt)⟩
    have hsymm : Std.Symm fun x y => (r x y → R x y) ∧ (r y x → R y x) := ⟨fun _ _ h => ⟨h.2, h.1⟩⟩
    have hrefl : ∀ z ∈ l, (r z z → R z z) ∧ (r z z → R z z) :=
      fun z _ => ⟨fun h => absurd h (hasymm h), fun h => absurd h (hasymm h)⟩
    exact (hboth.forall_of_forall hrefl hx hy).1 hxy
  · intro hR
    exact hsorted.imp_of_mem fun hx hy hxy => hR _ hx _ hy hxy

end Foundations
