import Mathlib.Order.Defs.LinearOrder
import Mathlib.Data.Set.Basic
import Mathlib.Data.List.Basic
import Mathlib.Logic.Function.Basic

/-!
# Receivers that keep the highest key

Entries with keys are written to numbered channels. A receiver takes the entries of each channel in
the order in which they were written, the channels interleaved in any way, and stores an entry if
its key is above the highest one it has stored; otherwise it drops it. It does not tell the two
apart to the writer, so the writer must not let an entry be dropped that it still waits for.

The discipline that prevents it is `Sound.covering`: a channel that has an entry also has, before it,
every entry with a smaller key that is still waited for. An entry that is waited for and not stored
is then above everything the receiver has stored.

* `Dedup.take` is what the receiver does with an entry, and `Dedup.receive` the receiver at a channel.
* `Sound` is the invariant, with its rules: `Sound.receive` for the receiver, `Sound.write`,
  `Sound.await` and `Sound.subset` for the writer.
* `Sound.stored_of_received` is the result: what has been received and is waited for is stored.
-/

namespace Foundations

/-- The state of a receiver. -/
structure Dedup (α κ : Type*) where
  /-- The highest key so far. -/
  highest : Option κ
  /-- What has been stored, in order. -/
  stored : List α
  /-- How many entries of each channel have been taken. -/
  received : ℕ → ℕ

namespace Dedup

variable {α κ : Type*} [LinearOrder κ] {key : α → κ} {d : Dedup α κ} {written : ℕ → List α}
  {waiting : Set α}

/-- The key is above the highest one. -/
def IsNew (d : Dedup α κ) (k : κ) : Prop := ∀ h ∈ d.highest, h < k

instance (d : Dedup α κ) (k : κ) : Decidable (d.IsNew k) :=
  inferInstanceAs (Decidable (∀ h ∈ d.highest, h < k))

/-- Store the entry `a`, if it is new. -/
def take (key : α → κ) (d : Dedup α κ) (a : α) : Dedup α κ :=
  if d.IsNew (key a) then { d with highest := some (key a), stored := d.stored ++ [a] } else d

/-- Take the entry `a` from the channel `c`. -/
def receive (key : α → κ) (d : Dedup α κ) (c : ℕ) (a : α) : Dedup α κ :=
  { d.take key a with received := Function.update d.received c (d.received c + 1) }

/-- An entry that is not new leaves the receiver as it is. -/
theorem take_of_not_isNew {a : α} (h : ¬ d.IsNew (key a)) : d.take key a = d := if_neg h

/-- What the writer and the receiver keep up, for the entries that are waited for. -/
structure Sound (key : α → κ) (written : ℕ → List α) (waiting : Set α) (d : Dedup α κ) : Prop where
  increasing : ∀ c, (written c).Pairwise fun a b => key a < key b
  covering : ∀ c, ∀ b ∈ written c, ∀ a ∈ waiting, key a ≤ key b → a ∈ written c
  received_le : ∀ c, d.received c ≤ (written c).length
  stored_increasing : d.stored.Pairwise fun a b => key a < key b
  stored_old : ∀ a ∈ d.stored, ¬ d.IsNew (key a)
  received_old : ∀ c, ∀ a ∈ (written c).take (d.received c), ¬ d.IsNew (key a)
  waiting_stored : ∀ a ∈ waiting, ¬ d.IsNew (key a) → a ∈ d.stored

theorem receive_received (key : α → κ) (d : Dedup α κ) (c : ℕ) (a : α) :
    (d.receive key c a).received = Function.update d.received c (d.received c + 1) := rfl

/-- After an entry has been received its key is old, and so is every key up to it. -/
theorem not_isNew_receive (c : ℕ) (a : α) {k : κ} (hk : ¬ d.IsNew k ∨ k ≤ key a) :
    ¬ (d.receive key c a).IsNew k := by
  unfold receive take
  split
  · rename_i hnew
    intro h
    have hlt : key a < k := h (key a) rfl
    rcases hk with hk | hk
    · exact hk fun g hg => (hnew g hg).trans hlt
    · exact absurd hlt (not_lt.2 hk)
  · rename_i hold
    rcases hk with hk | hk
    · exact hk
    · exact fun h => hold fun g hg => (h g hg).trans_le hk

theorem stored_subset_receive (c : ℕ) (a : α) {b : α} (hb : b ∈ d.stored) :
    b ∈ (d.receive key c a).stored := by
  unfold receive take
  split
  · exact List.mem_append_left _ hb
  · exact hb

theorem mem_stored_receive {c : ℕ} {a b : α} (hb : b ∈ (d.receive key c a).stored) :
    b ∈ d.stored ∨ b = a := by
  unfold receive take at hb
  split at hb
  · exact (List.mem_append.1 hb).imp_right List.mem_singleton.1
  · exact .inl hb

/-- The key that is the highest one belongs to what was received, or it was the highest before. -/
theorem highest_receive {c : ℕ} {a : α} {h : κ} (hh : h ∈ (d.receive key c a).highest) :
    h ∈ d.highest ∨ h = key a := by
  unfold receive take at hh
  split at hh
  · exact .inr (Option.some.inj hh).symm
  · exact .inl hh

/-- In an increasing list what is not above an entry comes before it, or is the entry. -/
theorem mem_take_of_le {l : List α} (hl : l.Pairwise fun a b => key a < key b) {n : ℕ} {a b : α}
    (hn : l[n]? = some b) (ha : a ∈ l) (hab : key a ≤ key b) : a ∈ l.take n ∨ a = b := by
  obtain ⟨hlt, rfl⟩ := List.getElem?_eq_some_iff.1 hn
  rw [← List.take_append_drop n l, List.drop_eq_getElem_cons hlt, List.mem_append,
    List.mem_cons] at ha
  obtain ha | ha | ha := ha
  · exact .inl ha
  · exact .inr ha
  · have hdrop := hl.sublist (List.drop_sublist n l)
    rw [List.drop_eq_getElem_cons hlt] at hdrop
    exact absurd ((List.pairwise_cons.1 hdrop).1 a ha) (not_lt.2 hab)

namespace Sound

/-- Nothing is written, and nothing is waited for. -/
theorem start (key : α → κ) (highest : Option κ) :
    Sound key (fun _ => []) ∅ ⟨highest, [], fun _ => 0⟩ := by
  constructor <;> simp

/-- **The receiver keeps the invariant.** -/
theorem receive (hd : Sound key written waiting d) {c : ℕ} {a : α}
    (ha : (written c)[d.received c]? = some a) : Sound key written waiting (d.receive key c a) := by
  have hlt : d.received c < (written c).length := (List.getElem?_eq_some_iff.1 ha).1
  have hmem : a ∈ written c := List.mem_of_getElem? ha
  -- an entry that is waited for, up to the new one, has been received before or is the new one
  have hupto : ∀ b ∈ waiting, key b ≤ key a → b ∈ d.stored ∨ b = a := by
    intro b hb hle
    obtain htake | rfl := mem_take_of_le (hd.increasing c) ha (hd.covering c a hmem b hb hle) hle
    · exact .inl (hd.waiting_stored b hb (hd.received_old c b htake))
    · exact .inr rfl
  refine ⟨hd.increasing, hd.covering, fun e => ?_, ?_, fun b hb => ?_, fun e b hb => ?_,
    fun b hb hold => ?_⟩
  · rw [receive_received]
    by_cases he : e = c
    · subst he
      rw [Function.update_self]
      exact hlt
    · simpa [he] using hd.received_le e
  · unfold Dedup.receive Dedup.take
    split
    · rename_i hnew
      refine List.pairwise_append.2 ⟨hd.stored_increasing, List.pairwise_singleton _ _, ?_⟩
      intro b hb b' hb'
      obtain rfl : b' = a := by simpa using hb'
      by_contra hle
      exact hd.stored_old b hb fun h hh => (hnew h hh).trans_le (not_lt.1 hle)
    · exact hd.stored_increasing
  · obtain hb | rfl := mem_stored_receive hb
    · exact not_isNew_receive c a (.inl (hd.stored_old b hb))
    · exact not_isNew_receive c b (.inr le_rfl)
  · rw [receive_received] at hb
    by_cases he : e = c
    · subst he
      rw [Function.update_self, List.take_add_one, ha, List.mem_append] at hb
      obtain hb | hb := hb
      · exact not_isNew_receive e a (.inl (hd.received_old e b hb))
      · exact not_isNew_receive e a (.inr (congrArg key (by simpa using hb)).le)
    · rw [Function.update_of_ne he] at hb
      exact not_isNew_receive c a (.inl (hd.received_old e b hb))
  · by_cases hb' : d.IsNew (key b)
    · -- the key was new and is old now, so the receiver has just stored the entry up to it
      unfold Dedup.receive Dedup.take at hold ⊢
      split
      · rename_i hnew
        rw [if_pos hnew] at hold
        have hle : key b ≤ key a := by
          by_contra hgt
          refine hold fun h hh => ?_
          rw [← Option.some.inj hh]
          exact not_le.1 hgt
        obtain hst | rfl := hupto b hb hle
        · exact List.mem_append_left _ hst
        · exact List.mem_append_right _ (List.mem_singleton.2 rfl)
      · rename_i hnew
        rw [if_neg hnew] at hold
        exact absurd hb' hold
    · exact stored_subset_receive c a (hd.waiting_stored b hb hb')

/-- The writer may stop waiting. -/
theorem subset (hd : Sound key written waiting d) {waiting' : Set α} (h : waiting' ⊆ waiting) :
    Sound key written waiting' d :=
  ⟨hd.increasing, fun c b hb a ha => hd.covering c b hb a (h ha), hd.received_le,
    hd.stored_increasing, hd.stored_old, hd.received_old, fun a ha => hd.waiting_stored a (h ha)⟩

/-- The writer may begin to wait for an entry that is above all that it wrote, and new. -/
theorem await (hd : Sound key written waiting d) {a : α} (ha : ∀ c, ∀ b ∈ written c, key b < key a)
    (hnew : d.IsNew (key a)) : Sound key written (insert a waiting) d := by
  refine ⟨hd.increasing, fun c b hb a' ha' hle => ?_, hd.received_le, hd.stored_increasing,
    hd.stored_old, hd.received_old, fun a' ha' hold => ?_⟩
  · obtain rfl | ha' := ha'
    · exact absurd (ha c b hb) (not_lt.2 hle)
    · exact hd.covering c b hb a' ha' hle
  · obtain rfl | ha' := ha'
    · exact absurd hnew hold
    · exact hd.waiting_stored a' ha' hold

/-- The writer may append to a channel, if the channel keeps its order and its cover. -/
theorem write (hd : Sound key written waiting d) {c : ℕ} {as : List α}
    (has : (written c ++ as).Pairwise fun a b => key a < key b)
    (hcover : ∀ b ∈ as, ∀ a ∈ waiting, key a ≤ key b → a ∈ written c ++ as) :
    Sound key (Function.update written c (written c ++ as)) waiting d := by
  refine ⟨fun e => ?_, fun e b hb a ha hle => ?_, fun e => ?_, hd.stored_increasing, hd.stored_old,
    fun e a ha => ?_, hd.waiting_stored⟩ <;> rcases eq_or_ne e c with rfl | he
  · rw [Function.update_self]
    exact has
  · rw [Function.update_of_ne he]
    exact hd.increasing e
  · rw [Function.update_self] at hb ⊢
    obtain hb | hb := List.mem_append.1 hb
    · exact List.mem_append_left _ (hd.covering e b hb a ha hle)
    · exact hcover b hb a ha hle
  · rw [Function.update_of_ne he] at hb ⊢
    exact hd.covering e b hb a ha hle
  · rw [Function.update_self, List.length_append]
    exact Nat.le_add_right_of_le (hd.received_le e)
  · rw [Function.update_of_ne he]
    exact hd.received_le e
  · rw [Function.update_self, List.take_append_of_le_length (hd.received_le e)] at ha
    exact hd.received_old e a ha
  · rw [Function.update_of_ne he] at ha
    exact hd.received_old e a ha

/-- **What has been received, by its key, and is waited for is stored.** -/
theorem stored_of_received (hd : Sound key written waiting d) {c : ℕ} {a b : α} (ha : a ∈ waiting)
    (hb : b ∈ (written c).take (d.received c)) (hab : key b = key a) : a ∈ d.stored :=
  hd.waiting_stored a ha (hab ▸ hd.received_old c b hb)

end Sound

end Dedup

end Foundations
