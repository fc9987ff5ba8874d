import Mathlib.Algebra.BigOperators.Group.Finset.Piecewise
import Mathlib.Algebra.Order.Group.Multiset
import Mathlib.Data.Multiset.Count

/-!
# Ledgers: each entry is called once

A ledger keeps the entries that it has accepted in three stages: those that wait, those that have
been taken out to be called, and those that have been called. Entries move from stage to stage and
are never copied or dropped.

* `Ledger.Move` is the moves; `Kept` says that the stages together hold the accepted entries, each
  of them once.
* `Kept.move` is the rule: a move keeps a ledger that is kept, if what it accepts is new.
* `Kept.count_eq_one` and `Kept.called_eq_one` are what it is good for: an accepted entry is in one
  stage only, and in a ledger that is drained each one has been called exactly once.
* `LossyMove` may also lose entries, and `Abandons` is one way to: a call that fails takes others with
  it. What then remains is `Traced`: the stages hold accepted entries, each at most once, and what was
  lost never comes back.

Where the entries are in many hands, a stage is a sum over the parties, and `add_sum_update` says how
it changes when one of them moves.
-/

namespace Foundations

/-- One of the parties moves: what all of them have changes by what it had and has. -/
theorem add_sum_update {ι β M : Type*} [DecidableEq ι] [AddCommMonoid M] (f : ι → β) (g : ι → β → M)
    {s : Finset ι} {i : ι} (hi : i ∈ s) (b : β) :
    g i (f i) + ∑ j ∈ s, g j (Function.update f i b j) = g i b + ∑ j ∈ s, g j (f j) := by
  have hrest : ∑ j ∈ s.erase i, g j (Function.update f i b j) = ∑ j ∈ s.erase i, g j (f j) :=
    Finset.sum_congr rfl fun j hj => by rw [Function.update_of_ne (Finset.ne_of_mem_erase hj)]
  rw [← Finset.add_sum_erase s _ hi, ← Finset.add_sum_erase s (fun j => g j (f j)) hi, hrest,
    Function.update_self, add_left_comm]

variable {α : Type*}

/-- The entries of a ledger by stage. -/
@[ext]
structure Ledger (α : Type*) where
  /-- Accepted, and not yet taken out. -/
  waiting : Multiset α
  /-- Taken out to be called. -/
  out : Multiset α
  /-- Called. -/
  called : Multiset α

namespace Ledger

/-- The entries of all stages. -/
def all (L : Ledger α) : Multiset α := L.waiting + L.out + L.called

/-- The moves of a ledger, with the entry that a move accepts. -/
inductive Move (L L' : Ledger α) : Option α → Prop
  | stay (h : L' = L) : Move L L' none
  | accept (a : α) (hw : L'.waiting = a ::ₘ L.waiting) (ho : L'.out = L.out)
    (hc : L'.called = L.called) : Move L L' (some a)
  | take (s : Multiset α) (hw : L.waiting = s + L'.waiting) (ho : L'.out = L.out + s)
    (hc : L'.called = L.called) : Move L L' none
  | call (a : α) (hw : L'.waiting = L.waiting) (ho : L.out = a ::ₘ L'.out)
    (hc : L'.called = a ::ₘ L.called) : Move L L' none

/-- The ledger of the images. -/
def map {β : Type*} (f : α → β) (L : Ledger α) : Ledger β :=
  ⟨L.waiting.map f, L.out.map f, L.called.map f⟩

/-- The stages hold exactly the accepted entries, each once. -/
structure Kept (accepted : List α) (L : Ledger α) : Prop where
  all_eq : L.all = accepted
  nodup : accepted.Nodup

variable {L L' : Ledger α} {accepted : List α}

/-- A move changes what the ledger holds by what it accepts. -/
theorem Move.all_eq {o : Option α} (h : Move L L' o) : L'.all = L.all + (o.toList : Multiset α) := by
  cases h with
  | stay h => simp [h]
  | accept a hw ho hc =>
    simp only [all, hw, ho, hc, Option.toList_some, Multiset.coe_singleton, Multiset.cons_add,
      ← Multiset.singleton_add a (L.waiting + L.out + L.called)]
    exact add_comm _ _
  | take s hw ho hc =>
    simp only [all, hw, ho, hc, Option.toList_none, Multiset.coe_nil, add_zero]
    ac_rfl
  | call a hw ho hc =>
    simp only [all, hw, ho, hc, Option.toList_none, Multiset.coe_nil, add_zero, Multiset.add_cons,
      Multiset.cons_add]

theorem Kept.move {o : Option α} (hk : Kept accepted L) (h : Move L L' o)
    (hnew : ∀ a ∈ o, a ∉ accepted) : Kept (accepted ++ o.toList) L' := by
  refine ⟨?_, ?_⟩
  · rw [h.all_eq, hk.all_eq, Multiset.coe_add]
  · refine List.nodup_append.2 ⟨hk.nodup, ?_, ?_⟩
    · cases o <;> simp
    · rintro a ha b hb rfl
      exact hnew a (by simpa using hb) ha

/-- A move that accepts nothing. -/
theorem Kept.move_none (hk : Kept accepted L) (h : Move L L' none) : Kept accepted L' := by
  simpa using hk.move h (by simp)

theorem Kept.map {β : Type*} {f : α → β} (hk : Kept accepted L) (hf : (accepted.map f).Nodup) :
    Kept (accepted.map f) (L.map f) := by
  refine ⟨?_, hf⟩
  rw [← Multiset.map_coe, ← hk.all_eq]
  simp [all, Ledger.map]

/-- Nothing waits twice. -/
theorem Kept.nodup_waiting (hk : Kept accepted L) : L.waiting.Nodup := by
  have hall : L.all.Nodup := by rw [hk.all_eq, Multiset.coe_nodup]; exact hk.nodup
  rw [all, add_assoc] at hall
  exact (Multiset.nodup_add.1 hall).1

/-! ## Ledgers that drop entries -/

/-- The moves of a ledger that may lose entries: only what is accepted is added. -/
def LossyMove (L L' : Ledger α) (o : Option α) : Prop := L'.all ≤ L.all + (o.toList : Multiset α)

/-- An entry is called, and others that were taken out with it are lost. -/
structure Abandons (L L' : Ledger α) (a : α) (lost : Multiset α) : Prop where
  waiting : L'.waiting = L.waiting
  out : L.out = a ::ₘ (lost + L'.out)
  called : L'.called = a ::ₘ L.called

/-- The stages hold accepted entries, each at most once. -/
structure Traced (accepted : List α) (L : Ledger α) : Prop where
  all_le : L.all ≤ accepted
  nodup : accepted.Nodup

theorem Kept.traced (hk : Kept accepted L) : Traced accepted L := ⟨hk.all_eq.le, hk.nodup⟩

theorem Move.lossy {o : Option α} (h : Move L L' o) : LossyMove L L' o := h.all_eq.le

/-- If nothing is lost with the entry, it is called like any other. -/
theorem Abandons.move {a : α} (h : Abandons L L' a 0) : Move L L' none :=
  .call a h.waiting (by rw [h.out, zero_add]) h.called

theorem Abandons.lossy {a : α} {lost : Multiset α} (h : Abandons L L' a lost) :
    LossyMove L L' none := by
  have hall : L.all = lost + L'.all := by
    simp only [all, h.waiting, h.out, h.called, Multiset.add_cons, Multiset.cons_add]
    congr 1
    ac_rfl
  rw [LossyMove, hall, Option.toList_none, Multiset.coe_nil, add_zero]
  exact Multiset.le_add_left _ _

theorem Traced.move {o : Option α} (ht : Traced accepted L) (h : LossyMove L L' o)
    (hnew : ∀ a ∈ o, a ∉ accepted) : Traced (accepted ++ o.toList) L' := by
  refine ⟨?_, ?_⟩
  · rw [← Multiset.coe_add]
    exact h.trans (add_le_add_left ht.all_le _)
  · refine List.nodup_append.2 ⟨ht.nodup, ?_, ?_⟩
    · cases o <;> simp
    · rintro a ha b hb rfl
      exact hnew a (by simpa using hb) ha

/-- What a move finds was there, or is accepted. -/
theorem LossyMove.mem {o : Option α} (h : LossyMove L L' o) {a : α} (ha : a ∈ L'.all) :
    a ∈ L.all ∨ a ∈ o := by
  rcases Multiset.mem_add.1 (Multiset.mem_of_le h ha) with ha | ha
  · exact .inl ha
  · exact .inr (by simpa using ha)

/-- What is in a stage has been accepted. -/
theorem Traced.mem_accepted (ht : Traced accepted L) {a : α} (ha : a ∈ L.all) : a ∈ accepted :=
  Multiset.mem_coe.1 (Multiset.mem_of_le ht.all_le ha)

theorem Traced.nodup_all (ht : Traced accepted L) : L.all.Nodup :=
  Multiset.nodup_of_le ht.all_le (Multiset.coe_nodup.2 ht.nodup)

theorem Traced.map {β : Type*} {f : α → β} (ht : Traced accepted L) (hf : (accepted.map f).Nodup) :
    Traced (accepted.map f) (L.map f) := by
  refine ⟨?_, hf⟩
  have hle := Multiset.map_le_map (f := f) ht.all_le
  simpa [all, Ledger.map] using hle

section

variable [DecidableEq α]

/-- **An accepted entry is in exactly one stage**, once. -/
theorem Kept.count_eq_one (hk : Kept accepted L) {a : α} (ha : a ∈ accepted) :
    L.waiting.count a + L.out.count a + L.called.count a = 1 := by
  rw [← Multiset.count_add, ← Multiset.count_add]
  show L.all.count a = 1
  rw [hk.all_eq, Multiset.coe_count]
  exact List.count_eq_one_of_mem hk.nodup ha

/-- What has not been accepted is in no stage. -/
theorem Kept.count_called_eq_zero (hk : Kept accepted L) {a : α} (ha : a ∉ accepted) :
    L.called.count a = 0 := by
  have h : L.all.count a = 0 := by
    rw [hk.all_eq, Multiset.coe_count]
    exact List.count_eq_zero_of_not_mem ha
  rw [all, Multiset.count_add] at h
  omega

/-- What has been called was called once, even if entries are lost. -/
theorem Traced.count_called_eq_one (ht : Traced accepted L) {a : α} (ha : a ∈ L.called) :
    L.called.count a = 1 := by
  have hle : L.called ≤ L.all := Multiset.le_add_left _ _
  exact Multiset.count_eq_one_of_mem (Multiset.nodup_of_le hle ht.nodup_all) ha

/-- No entry is called twice. -/
theorem Kept.count_called_le_one (hk : Kept accepted L) (a : α) : L.called.count a ≤ 1 := by
  by_cases ha : a ∈ accepted
  · have := hk.count_eq_one ha
    omega
  · rw [hk.count_called_eq_zero ha]
    exact Nat.zero_le 1

/-- **In a drained ledger every accepted entry has been called exactly once.** -/
theorem Kept.called_eq_one (hk : Kept accepted L) (hw : L.waiting = 0) (ho : L.out = 0) {a : α}
    (ha : a ∈ accepted) : L.called.count a = 1 := by
  have := hk.count_eq_one ha
  rw [hw, ho] at this
  simpa using this

end

end Ledger

end Foundations
