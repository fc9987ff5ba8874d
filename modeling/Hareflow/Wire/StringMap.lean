import Hareflow.Wire.Commands

/-!
# Maps of strings

`Properties` of the source is a `std::map<std::string, std::string>`: the entries are ordered by
their keys, which are compared as byte strings, and no key occurs twice. `StringMap` carries this
order as a field. Inserting an entry whose key is there already changes nothing.

`read_array` inserts the elements that it reads one by one, so that a map is read back from the array
of its entries (`StringMap.read_reads`): each of them comes after those before it.
-/

namespace Hareflow.Wire

open BinaryBuffer

/-- Insert an entry into entries that are ordered by their keys, unless its key is there. -/
def insertEntry (e : Bytes × Bytes) : Properties → Properties
  | [] => [e]
  | x :: xs =>
    if e.1 < x.1 then e :: x :: xs
    else if x.1 < e.1 then x :: insertEntry e xs
    else x :: xs

theorem mem_of_mem_insertEntry {e x : Bytes × Bytes} {xs : Properties} (h : x ∈ insertEntry e xs) :
    x = e ∨ x ∈ xs := by
  induction xs with
  | nil => exact .inl (List.mem_singleton.1 h)
  | cons y ys ih =>
    rw [insertEntry] at h
    split at h
    · exact List.mem_cons.1 h
    · split at h
      · rcases List.mem_cons.1 h with rfl | h
        · exact .inr List.mem_cons_self
        · exact (ih h).imp_right (List.mem_cons_of_mem y)
      · exact .inr h

/-- An entry whose key comes after all others goes to the end. -/
theorem insertEntry_of_forall_lt {e : Bytes × Bytes} {xs : Properties} (h : ∀ x ∈ xs, x.1 < e.1) :
    insertEntry e xs = xs ++ [e] := by
  induction xs with
  | nil => rfl
  | cons x xs ih =>
    have hx := h x List.mem_cons_self
    rw [insertEntry, if_neg (List.lt_asymm hx), if_pos hx,
      ih fun y hy => h y (List.mem_cons_of_mem x hy), List.cons_append]

/-- A map of strings: its entries in the order of their keys. -/
structure StringMap where
  entries : Properties
  ordered : entries.Pairwise fun x y => x.1 < y.1
  deriving DecidableEq, Repr

namespace StringMap

instance : EmptyCollection StringMap := ⟨⟨[], .nil⟩⟩

theorem entries_empty : (∅ : StringMap).entries = [] := rfl

theorem ordered_insertEntry {xs : Properties} (h : xs.Pairwise fun x y => x.1 < y.1)
    (e : Bytes × Bytes) : (insertEntry e xs).Pairwise fun x y => x.1 < y.1 := by
  induction xs with
  | nil => exact List.pairwise_singleton ..
  | cons x xs ih =>
    obtain ⟨hx, hxs⟩ := List.pairwise_cons.1 h
    rw [insertEntry]
    split
    · rename_i hlt
      refine List.pairwise_cons.2 ⟨fun y hy => ?_, h⟩
      rcases List.mem_cons.1 hy with rfl | hy
      · exact hlt
      · exact List.lt_trans hlt (hx y hy)
    · split
      · rename_i hlt
        refine List.pairwise_cons.2 ⟨fun y hy => ?_, ih hxs⟩
        rcases mem_of_mem_insertEntry hy with rfl | hy
        · exact hlt
        · exact hx y hy
      · exact h

/-- `std::map::insert`. -/
def insert (m : StringMap) (e : Bytes × Bytes) : StringMap :=
  ⟨insertEntry e m.entries, ordered_insertEntry m.ordered e⟩

/-- The value that `find` points to. -/
def find (m : StringMap) (key : Bytes) : Option Bytes :=
  (m.entries.find? fun e => e.1 = key).map Prod.snd

/-- `find` finds the entries, and nothing else. -/
theorem find_eq_some {m : StringMap} {key value : Bytes} :
    m.find key = some value ↔ (key, value) ∈ m.entries := by
  obtain ⟨entries, hordered⟩ := m
  show (entries.find? fun e => e.1 = key).map Prod.snd = some value ↔ (key, value) ∈ entries
  induction entries with
  | nil => simp
  | cons e es ih =>
    obtain ⟨he, hes⟩ := List.pairwise_cons.1 hordered
    by_cases hkey : e.1 = key
    · -- the keys behind it are greater
      have hnot : (key, value) ∉ es := by
        intro hmem
        have hlt : e.1 < key := he (key, value) hmem
        exact List.lt_irrefl key (hkey ▸ hlt)
      rw [List.find?_cons_of_pos (by simpa using hkey)]
      simp only [Option.map_some, Option.some.injEq, List.mem_cons, hnot, or_false]
      exact ⟨fun h => Prod.ext hkey.symm h.symm, fun h => congrArg Prod.snd h.symm⟩
    · have hne : (key, value) ≠ e := fun h => hkey (congrArg Prod.fst h.symm)
      rw [List.find?_cons_of_neg (by simpa using hkey), ih hes]
      simp [hne]

/-- Inserting entries whose keys come after all others, in their order, appends them. -/
theorem entries_foldl_insert {es : Properties} {m : StringMap}
    (h : (m.entries ++ es).Pairwise fun x y => x.1 < y.1) :
    (es.foldl insert m).entries = m.entries ++ es := by
  induction es generalizing m with
  | nil => simp
  | cons e es ih =>
    have hlt : ∀ x ∈ m.entries, x.1 < e.1 := fun x hx =>
      (List.pairwise_append.1 h).2.2 x hx e List.mem_cons_self
    have hinsert : (m.insert e).entries = m.entries ++ [e] := insertEntry_of_forall_lt hlt
    rw [List.foldl_cons, ih (by simpa [hinsert] using h), hinsert]
    simp

/-- A map is what its entries make when they are inserted in order. -/
theorem foldl_insert_entries (m : StringMap) : m.entries.foldl insert ∅ = m := by
  have hordered : ((∅ : StringMap).entries ++ m.entries).Pairwise fun x y => x.1 < y.1 := by
    simpa [entries_empty] using m.ordered
  have h := entries_foldl_insert hordered
  obtain ⟨entries, hordered⟩ := m
  rw [entries_empty, List.nil_append] at h
  cases hm : entries.foldl insert ∅ with
  | mk entries' _ =>
    rw [hm] at h
    cases h
    rfl

end StringMap

/-! ## Arrays that are read into a container -/

/-- The loop of `read_array`: each element is inserted as it has been read. -/
def readElemsInto {γ α : Type} (insert : γ → α → γ) (readElem : Reader α) : ℕ → γ → Reader γ
  | 0, container => return container
  | n + 1, container => do
    let x ← readElem
    readElemsInto insert readElem n (insert container x)

theorem readElemsInto_eq {γ α : Type} (insert : γ → α → γ) (readElem : Reader α) (n : ℕ)
    (container : γ) :
    readElemsInto insert readElem n container =
      readElems readElem n >>= fun xs => pure (xs.foldl insert container) := by
  induction n generalizing container with
  | zero => simp [readElemsInto, readElems]
  | succ n ih => simp [readElemsInto, readElems, ih]

def readProperty : Reader (Bytes × Bytes) := do
  let key ← readString
  let value ← readString
  return (key, value)

/-- `read_array` into a map of strings. -/
def StringMap.read : Reader StringMap := do
  let length ← readInt
  if length ≤ 0 then return ∅
  readElemsInto StringMap.insert readProperty length.toNatClampNeg ∅

/-- `write_array` of a map of strings. -/
def StringMap.write (m : StringMap) : Writer := writeArray writeProperty m.entries

theorem readProperty_reads {p : Bytes × Bytes} (hkey : p.1.length ≤ int16Max)
    (hvalue : p.2.length ≤ int16Max) : Reads readProperty (encodeProperty p) p :=
  (Reads.readString hkey).bind ((Reads.readString hvalue).map fun value => (p.1, value))

/-- A map whose strings are short enough is read back from its entries. -/
theorem StringMap.read_reads {m : StringMap} (hlen : m.entries.length ≤ int32Max)
    (hstrings : ∀ p ∈ m.entries, p.1.length ≤ int16Max ∧ p.2.length ≤ int16Max) :
    Reads StringMap.read (encodeArray encodeProperty m.entries) m := by
  refine Reads.counted (k := fun n => readElemsInto StringMap.insert readProperty n ∅) hlen
    (fun hzero => ?_) fun _ => ?_
  · obtain ⟨entries, hordered⟩ := m
    obtain rfl := List.length_eq_zero_iff.1 hzero
    exact ⟨rfl, rfl⟩
  · rw [readElemsInto_eq]
    have helems := Reads.readElems fun p hp => readProperty_reads (hstrings p hp).1 (hstrings p hp).2
    have hmap := helems.map fun es => es.foldl StringMap.insert ∅
    rwa [m.foldl_insert_entries] at hmap

end Hareflow.Wire
