import Hareflow.Producer.Accumulator
import Mathlib.Data.List.Sort

/-!
# The unconfirmed messages

`m_unconfirmed` maps the publishing ids of the messages that wait for a confirmation to the messages.
It is a hash map, so its order means nothing: it is a list of messages here whose ids are distinct,
which is a field of `Unconfirmed` and not an assumption about it.

* `emplace` does not replace a message whose id is there already.
* `sorted` is the copy into a `std::map` that `check_confirm_timeout` and `reconnect_to_server` make.
* `timedOut` is the scan of `check_confirm_timeout`, which stops at the first message, in the order
  of the ids, that is young enough.
-/

namespace Hareflow.Producer

/-- `m_unconfirmed`. -/
structure Unconfirmed where
  entries : List AccumulatedMessage
  /-- The keys of a map are distinct. -/
  keys : (entries.map AccumulatedMessage.publishingId).Nodup

namespace Unconfirmed

def empty : Unconfirmed := ⟨[], List.nodup_nil⟩

instance : EmptyCollection Unconfirmed := ⟨empty⟩

def find (u : Unconfirmed) (publishingId : UInt64) : Option AccumulatedMessage :=
  u.entries.find? fun m => m.publishingId = publishingId

/-- Keep the messages that satisfy `p`. -/
def filter (u : Unconfirmed) (p : AccumulatedMessage → Bool) : Unconfirmed :=
  ⟨u.entries.filter p, u.keys.sublist (List.filter_sublist.map _)⟩

def erase (u : Unconfirmed) (publishingId : UInt64) : Unconfirmed :=
  u.filter fun m => m.publishingId ≠ publishingId

def emplace (u : Unconfirmed) (m : AccumulatedMessage) : Unconfirmed :=
  if h : m.publishingId ∈ u.entries.map AccumulatedMessage.publishingId then u
  else
    ⟨u.entries ++ [m], by
      rw [List.map_append]
      exact List.nodup_append.2 ⟨u.keys, List.nodup_singleton _, by simpa using h⟩⟩

/-- The loop at the end of `publish_batch`. -/
def emplaceAll (u : Unconfirmed) (ms : List AccumulatedMessage) : Unconfirmed :=
  ms.foldl emplace u

/-- The messages in the order of their ids. -/
def sorted (u : Unconfirmed) : List AccumulatedMessage :=
  u.entries.insertionSort fun m m' => m.publishingId ≤ m'.publishingId

/-- The messages that `check_confirm_timeout` takes out at the time `now`: those published at
`now - m_confirm_timeout` or before. -/
def timedOut (u : Unconfirmed) (now confirmTimeout : ℕ) : List AccumulatedMessage :=
  u.sorted.takeWhile fun m => m.publishTime + confirmTimeout ≤ now

/-- Erase the ids of the messages, one by one. -/
def eraseAll (u : Unconfirmed) (ms : List AccumulatedMessage) : Unconfirmed :=
  ms.foldl (fun u m => u.erase m.publishingId) u

variable {u : Unconfirmed} {m : AccumulatedMessage}

@[simp] theorem entries_empty : (∅ : Unconfirmed).entries = [] := rfl

/-- Two messages of the map with one id are the same. -/
theorem eq_of_publishingId_eq {m' : AccumulatedMessage} (hm : m ∈ u.entries) (hm' : m' ∈ u.entries)
    (h : m.publishingId = m'.publishingId) : m = m' :=
  List.inj_on_of_nodup_map u.keys hm hm' h

/-- What is found is taken off, and nothing else. -/
theorem perm_erase (hm : m ∈ u.entries) :
    u.entries.Perm (m :: (u.erase m.publishingId).entries) := by
  have hnodup : u.entries.Nodup := u.keys.of_map _
  have herase : u.entries.erase m = (u.erase m.publishingId).entries := by
    rw [hnodup.erase_eq_filter]
    refine List.filter_congr fun x hx => ?_
    by_cases hxm : x = m
    · simp [hxm]
    · have hne : x.publishingId ≠ m.publishingId := fun h => hxm (eq_of_publishingId_eq hx hm h)
      simp [hxm, hne]
  rw [← herase]
  exact List.perm_cons_erase hm

theorem mem_of_find {publishingId : UInt64} (h : u.find publishingId = some m) :
    m ∈ u.entries ∧ m.publishingId = publishingId :=
  ⟨List.mem_of_find?_eq_some h, by simpa using List.find?_some h⟩

theorem find_of_mem (hm : m ∈ u.entries) : u.find m.publishingId = some m := by
  have hsome : (u.find m.publishingId).isSome = true :=
    List.find?_isSome.2 ⟨m, hm, decide_eq_true rfl⟩
  obtain ⟨m', hm'⟩ := Option.isSome_iff_exists.1 hsome
  obtain ⟨hmem, hid⟩ := mem_of_find hm'
  rw [hm', eq_of_publishingId_eq hmem hm hid]

theorem perm_of_find {publishingId : UInt64} (h : u.find publishingId = some m) :
    u.entries.Perm (m :: (u.erase publishingId).entries) := by
  obtain ⟨hm, rfl⟩ := mem_of_find h
  exact perm_erase hm

/-- New ids are all added. -/
theorem entries_emplaceAll {ms : List AccumulatedMessage}
    (h : ((u.entries ++ ms).map AccumulatedMessage.publishingId).Nodup) :
    (u.emplaceAll ms).entries = u.entries ++ ms := by
  induction ms generalizing u with
  | nil => simp [emplaceAll]
  | cons m ms ih =>
    have hm : m.publishingId ∉ u.entries.map AccumulatedMessage.publishingId := by
      rw [List.map_append, List.map_cons] at h
      exact fun hmem => List.disjoint_of_nodup_append h hmem (List.mem_cons_self ..)
    have hone : (u.emplace m).entries = u.entries ++ [m] := by simp [emplace, hm]
    have := ih (u := u.emplace m) (by simpa [hone] using h)
    simpa [emplaceAll, hone] using this

/-- Nothing else is added. -/
theorem mem_emplaceAll {ms : List AccumulatedMessage} (h : m ∈ (u.emplaceAll ms).entries) :
    m ∈ u.entries ∨ m ∈ ms := by
  induction ms generalizing u with
  | nil => exact .inl h
  | cons m' ms ih =>
    obtain h | h := ih (u := u.emplace m') h
    · unfold emplace at h
      split at h
      · exact .inl h
      · obtain h | h := List.mem_append.1 h
        · exact .inl h
        · exact .inr (List.mem_cons.2 (.inl (List.mem_singleton.1 h)))
    · exact .inr (List.mem_cons_of_mem m' h)

/-- What is there stays, whatever is added. -/
theorem mem_emplaceAll_of_mem (hm : m ∈ u.entries) (ms : List AccumulatedMessage) :
    m ∈ (u.emplaceAll ms).entries := by
  induction ms generalizing u with
  | nil => exact hm
  | cons m' ms ih =>
    refine ih (u := u.emplace m') ?_
    unfold emplace
    split
    · exact hm
    · exact List.mem_append_left _ hm

/-- Some of the new messages are added, after the ones that are there. -/
theorem emplaceAll_sublist (u : Unconfirmed) (ms : List AccumulatedMessage) :
    (u.emplaceAll ms).entries.Sublist (u.entries ++ ms) := by
  induction ms generalizing u with
  | nil => simp [emplaceAll]
  | cons m ms ih =>
    refine (ih (u.emplace m)).trans ?_
    have hone : (u.emplace m).entries.Sublist (u.entries ++ [m]) := by
      unfold emplace
      split
      · exact List.sublist_append_left ..
      · exact .refl _
    simpa using hone.append_right ms

/-- What `publish_batch` drops: the messages whose ids are taken. -/
theorem exists_dropped (u : Unconfirmed) (ms : List AccumulatedMessage) :
    ∃ dropped, (u.entries ++ ms).Perm (dropped ++ (u.emplaceAll ms).entries) ∧
      dropped.length = u.entries.length + ms.length - (u.emplaceAll ms).entries.length := by
  obtain ⟨dropped, hperm⟩ := (u.emplaceAll_sublist ms).exists_perm_append
  have hlength := hperm.length_eq
  rw [List.length_append, List.length_append] at hlength
  exact ⟨dropped, hperm.trans List.perm_append_comm, by omega⟩

/-- All messages are added exactly if the ids are distinct. -/
theorem forall_mem_emplaceAll_iff {ms : List AccumulatedMessage} (hnodup : (u.entries ++ ms).Nodup) :
    (∀ m ∈ ms, m ∈ (u.emplaceAll ms).entries) ↔
      ((u.entries ++ ms).map AccumulatedMessage.publishingId).Nodup := by
  constructor
  · intro hall
    have hsub : ∀ m ∈ u.entries ++ ms, m ∈ (u.emplaceAll ms).entries := by
      intro m hm
      rcases List.mem_append.1 hm with hm | hm
      · exact mem_emplaceAll_of_mem hm ms
      · exact hall m hm
    exact hnodup.map_on fun m hm m' hm' h => eq_of_publishingId_eq (hsub m hm) (hsub m' hm') h
  · intro hids m hm
    rw [entries_emplaceAll hids]
    exact List.mem_append_right _ hm

theorem mem_of_mem_erase {i : UInt64} (h : m ∈ (u.erase i).entries) : m ∈ u.entries :=
  (List.mem_filter.1 h).1

theorem sorted_perm (u : Unconfirmed) : u.sorted.Perm u.entries := List.perm_insertionSort _ _

theorem mem_sorted : m ∈ u.sorted ↔ m ∈ u.entries := u.sorted_perm.mem_iff

/-- The order of the ids is strict. -/
theorem sorted_pairwise (u : Unconfirmed) :
    u.sorted.Pairwise fun m m' => m.publishingId < m'.publishingId := by
  have : Std.Total fun m m' : AccumulatedMessage => m.publishingId ≤ m'.publishingId :=
    ⟨fun m m' => UInt64.le_total m.publishingId m'.publishingId⟩
  have : IsTrans AccumulatedMessage fun m m' => m.publishingId ≤ m'.publishingId :=
    ⟨fun _ _ _ => UInt64.le_trans⟩
  have hle : u.sorted.Pairwise fun m m' => m.publishingId ≤ m'.publishingId :=
    List.pairwise_insertionSort _ u.entries
  have hnodup : (u.sorted.map AccumulatedMessage.publishingId).Nodup :=
    (u.sorted_perm.map _).nodup_iff.2 u.keys
  have hne : u.sorted.Pairwise fun m m' => m.publishingId ≠ m'.publishingId :=
    List.pairwise_map.1 hnodup
  exact (hle.and hne).imp fun h => UInt64.lt_of_le_of_ne h.1 h.2

/-- Erasing messages of the map, one by one, leaves the others. -/
theorem perm_eraseAll {ms : List AccumulatedMessage} (hms : ms.Subperm u.entries) :
    u.entries.Perm (ms ++ (u.eraseAll ms).entries) := by
  induction ms generalizing u with
  | nil => exact .refl _
  | cons m ms ih =>
    have hperm := perm_erase (hms.subset (List.mem_cons_self ..))
    have hsub : ms.Subperm (u.erase m.publishingId).entries :=
      List.subperm_cons m |>.1 (hms.trans hperm.subperm)
    exact hperm.trans ((ih hsub).cons m)

/-- The scan takes out what has timed out and leaves the rest. -/
theorem perm_timedOut (u : Unconfirmed) (now confirmTimeout : ℕ) :
    u.entries.Perm (u.timedOut now confirmTimeout ++
      (u.eraseAll (u.timedOut now confirmTimeout)).entries) :=
  perm_eraseAll ((List.takeWhile_sublist _).subperm.trans u.sorted_perm.subperm)

theorem mem_of_mem_eraseAll {ms : List AccumulatedMessage} (h : m ∈ (u.eraseAll ms).entries) :
    m ∈ u.entries := by
  induction ms generalizing u with
  | nil => exact h
  | cons m' ms ih => exact mem_of_mem_erase (ih h)

end Unconfirmed

end Hareflow.Producer
