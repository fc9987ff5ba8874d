import Mathlib.Algebra.Ring.Nat
import Hareflow.Exceptions

/-!
# The binary buffer

`BinaryBuffer` is the growable byte buffer that every frame is written to. The model keeps the
bytes and both cursors. Writing is `growBuffer`, which resizes the bytes to end where the new data
ends, followed by a copy to the write cursor; a buffer never grows past `2 ^ 32 - 1` bytes, and
strings, blobs and arrays have length limits of their own.

`put_eq_append` is what a write does to a buffer whose write cursor is at its end, and `Writes`
packages it for a sequence of writes: the writer appends given bytes to every such buffer that has
room for them. `Encodes` says in addition what a writer accepts: it writes these bytes when a limit
is respected, and whenever it succeeds the limit was respected and the cursor moved by their number.
`Reads` is its counterpart for readers: given bytes at the read cursor are read as a given value.
-/

namespace Hareflow.Wire

/-- `std::numeric_limits<std::uint32_t>::max()`. -/
def uint32Max : ℕ := 2 ^ 32 - 1

/-- `std::numeric_limits<std::int32_t>::max()`. -/
def int32Max : ℕ := 2 ^ 31 - 1

/-- `std::numeric_limits<std::int16_t>::max()`. -/
def int16Max : ℕ := 2 ^ 15 - 1

/-- The `n` bytes of `v`, the most significant first. -/
def bigEndian : ℕ → ℕ → List UInt8
  | 0, _ => []
  | n + 1, v => UInt8.ofNat (v / 256 ^ n) :: bigEndian n v

@[simp] theorem length_bigEndian (n v : ℕ) : (bigEndian n v).length = n := by
  induction n with
  | zero => rfl
  | succ n ih => simp [bigEndian, ih]

/-- The number that big-endian bytes stand for. -/
def fromBigEndian (bytes : List UInt8) : ℕ := bytes.foldl (fun n byte => n * 256 + byte.toNat) 0

theorem fromBigEndian_lt (bytes : List UInt8) : fromBigEndian bytes < 256 ^ bytes.length := by
  have hfold : ∀ n, bytes.foldl (fun n byte => n * 256 + byte.toNat) n <
      (n + 1) * 256 ^ bytes.length := by
    induction bytes with
    | nil => simp
    | cons byte bytes ih =>
      intro n
      have hbyte := byte.toNat_lt
      have hstep : n * 256 + byte.toNat + 1 ≤ (n + 1) * 256 := by omega
      rw [List.foldl_cons, List.length_cons, Nat.pow_succ', ← Nat.mul_assoc]
      exact Nat.lt_of_lt_of_le (ih _) (Nat.mul_le_mul_right _ hstep)
  rw [fromBigEndian, ← Nat.one_mul (256 ^ bytes.length)]
  exact hfold 0

theorem fromBigEndian_bigEndian {n v : ℕ} (h : v < 256 ^ n) : fromBigEndian (bigEndian n v) = v := by
  suffices hfold : ∀ n acc, (bigEndian n v).foldl (fun n byte => n * 256 + byte.toNat) acc =
      acc * 256 ^ n + v % 256 ^ n by
    rw [fromBigEndian, hfold, Nat.zero_mul, Nat.zero_add, Nat.mod_eq_of_lt h]
  intro n
  induction n with
  | zero => intro acc; simp [bigEndian, Nat.mod_one]
  | succ n ih =>
    intro acc
    have hbyte : (UInt8.ofNat (v / 256 ^ n)).toNat = v / 256 ^ n % 256 := UInt8.toNat_ofNat'
    rw [bigEndian, List.foldl_cons, ih, hbyte, Nat.pow_succ, Nat.mod_mul, Nat.add_mul,
      Nat.mul_assoc, Nat.mul_comm 256 (256 ^ n), Nat.mul_comm (v / 256 ^ n % 256)]
    omega

/-- The four bytes of a signed 32-bit integer, in two's complement. -/
def intBytes (v : Int32) : List UInt8 := bigEndian 4 v.toUInt32.toNat

@[simp] theorem length_intBytes (v : Int32) : (intBytes v).length = 4 := length_bigEndian ..

/-- The two bytes of a signed 16-bit integer, in two's complement. -/
def shortBytes (v : Int16) : List UInt8 := bigEndian 2 v.toUInt16.toNat

@[simp] theorem length_shortBytes (v : Int16) : (shortBytes v).length = 2 := length_bigEndian ..

/-- `std::vector::resize`: drop the bytes past the new size, or fill up with zeros. -/
def resizeBytes (bytes : List UInt8) (size : ℕ) : List UInt8 :=
  bytes.take size ++ List.replicate (size - bytes.length) 0

@[simp] theorem length_resizeBytes (bytes : List UInt8) (size : ℕ) :
    (resizeBytes bytes size).length = size := by
  simp [resizeBytes]
  omega

theorem resizeBytes_of_le {bytes : List UInt8} {size : ℕ} (h : bytes.length ≤ size) :
    resizeBytes bytes size = bytes ++ List.replicate (size - bytes.length) 0 := by
  rw [resizeBytes, List.take_of_length_le h]

/-- The bytes of a buffer with its read and write cursors. -/
structure BinaryBuffer where
  bytes : List UInt8 := []
  readCursor : ℕ := 0
  writeCursor : ℕ := 0
  deriving DecidableEq, Repr

/-- Code that writes to a buffer. -/
abbrev Writer := BinaryBuffer → Except StreamException BinaryBuffer

/-- Code that reads a value from a buffer. -/
abbrev Reader := StateT BinaryBuffer (Except StreamException)

namespace BinaryBuffer

def size (b : BinaryBuffer) : ℕ := b.bytes.length

/-- The exception of a buffer that would be longer than `2 ^ 32 - 1` bytes. -/
def maximumBufferSizeExceeded : StreamException :=
  .invalidInput s!"Maximum buffer size exceeded ({uint32Max})"

/-- `reserve` checks the size; the capacity itself is not observable. -/
def reserve (size : ℕ) : Writer := fun b =>
  if uint32Max < size then .error maximumBufferSizeExceeded else .ok b

def resize (size : ℕ) : Writer := fun b =>
  if uint32Max < size then .error maximumBufferSizeExceeded
  else .ok { b with bytes := resizeBytes b.bytes size }

def clear (_ : BinaryBuffer) : BinaryBuffer := ⟨[], 0, 0⟩

/-- Check the length and take `toRead` bytes at the read cursor: the common body of `read_byte`,
`read_ushort`, …, `read_bytes`. -/
def get (toRead : ℕ) : Reader (List UInt8) := fun b =>
  if b.bytes.length < b.readCursor + toRead then
    .error (.invalidInput "Not enough data left in buffer")
  else .ok ((b.bytes.drop b.readCursor).take toRead,
    { b with readCursor := b.readCursor + toRead })

/-- `read_cursor(cursor)`. -/
def setReadCursor (cursor : ℕ) : Reader Unit := fun b =>
  if b.bytes.length < cursor then .error (.invalidInput "Read cursor out of range")
  else .ok ((), { b with readCursor := cursor })

/-- `read_cursor(read_cursor() - 1)`. -/
def unreadByte : Reader Unit := fun b => b.setReadCursor (b.readCursor - 1)

def readByte : Reader UInt8 := do
  let data ← get 1
  return UInt8.ofNat (fromBigEndian data)

def readUshort : Reader UInt16 := do
  let data ← get 2
  return UInt16.ofNat (fromBigEndian data)

def readUint : Reader UInt32 := do
  let data ← get 4
  return UInt32.ofNat (fromBigEndian data)

def readUlong : Reader UInt64 := do
  let data ← get 8
  return UInt64.ofNat (fromBigEndian data)

def readShort : Reader Int16 := do
  let val ← readUshort
  return val.toInt16

def readInt : Reader Int32 := do
  let val ← readUint
  return val.toInt32

def readLong : Reader Int64 := do
  let val ← readUlong
  return val.toInt64

def readBytes (count : ℕ) : Reader (List UInt8) :=
  if count = 0 then return [] else get count

def readString : Reader (List UInt8) := do
  let length ← readShort
  if length ≤ 0 then return []
  get length.toNatClampNeg

def readBlob : Reader (List UInt8) := do
  let length ← readInt
  if length ≤ 0 then return []
  readBytes length.toNatClampNeg

/-- The elements of an array, one after the other. -/
def readElems {α : Type} (readElem : Reader α) : ℕ → Reader (List α)
  | 0 => return []
  | n + 1 => do
    let x ← readElem
    let xs ← readElems readElem n
    return x :: xs

def readArray {α : Type} (readElem : Reader α) : Reader (List α) := do
  let length ← readInt
  if length ≤ 0 then return []
  readElems readElem length.toNatClampNeg

def growBuffer (toAdd : ℕ) : Writer := fun b =>
  if uint32Max - b.writeCursor < toAdd then .error maximumBufferSizeExceeded
  else .ok { b with bytes := resizeBytes b.bytes (b.writeCursor + toAdd) }

/-- Grow the buffer and copy `data` to the write cursor: the common body of `write_byte`,
`write_ushort`, …, `write_bytes`. -/
def put (data : List UInt8) : Writer := fun b => do
  let b ← b.growBuffer data.length
  return { b with
    bytes := b.bytes.take b.writeCursor ++ data ++ b.bytes.drop (b.writeCursor + data.length)
    writeCursor := b.writeCursor + data.length }

def writeByte (v : UInt8) : Writer := put [v]

def writeUshort (v : UInt16) : Writer := put (bigEndian 2 v.toNat)

def writeUint (v : UInt32) : Writer := put (bigEndian 4 v.toNat)

def writeUlong (v : UInt64) : Writer := put (bigEndian 8 v.toNat)

def writeShort (v : Int16) : Writer := put (shortBytes v)

def writeInt (v : Int32) : Writer := put (intBytes v)

def writeLong (v : Int64) : Writer := put (bigEndian 8 v.toUInt64.toNat)

def writeBytes (bytes : List UInt8) : Writer := fun b =>
  if bytes.length = 0 then .ok b else b.put bytes

def writeString (string : List UInt8) : Writer := fun b =>
  if int16Max < string.length then
    .error (.invalidInput s!"Maximum string size exceeded ({int16Max})")
  else do
    let b ← b.writeShort (Int16.ofNat string.length)
    if string.length = 0 then return b
    b.writeBytes string

def writeBlob (blob : List UInt8) : Writer := fun b =>
  if int32Max < blob.length then .error (.invalidInput s!"Maximum blob size exceeded ({int32Max})")
  else do
    let b ← b.writeInt (Int32.ofNat blob.length)
    if blob.length = 0 then return b
    b.writeBytes blob

/-- The elements of an array, one after the other. -/
def writeElems {α : Type} (writeElem : α → Writer) : List α → Writer
  | [], b => .ok b
  | x :: xs, b => (writeElem x b).bind (writeElems writeElem xs)

def writeArray {α : Type} (writeElem : α → Writer) (container : List α) : Writer := fun b =>
  if int32Max < container.length then
    .error (.invalidInput s!"Maximum array size exceeded ({int32Max})")
  else do
    let b ← b.writeInt (Int32.ofNat container.length)
    writeElems writeElem container b

/-- `serialized_size` of a string: its length field and its bytes. -/
def serializedSizeString (string : List UInt8) : ℕ := 2 + string.length

/-- `serialized_size` of a blob: its length field and its bytes. -/
def serializedSizeBlob (blob : List UInt8) : ℕ := 4 + blob.length

/-- `serialized_size` of a container, element by element. -/
def serializedSizeArray {α : Type} (elemSize : α → ℕ) (container : List α) : ℕ :=
  container.foldl (fun size x => size + elemSize x) 4

theorem serializedSizeArray_eq {α : Type} (elemSize : α → ℕ) (container : List α) :
    serializedSizeArray elemSize container = 4 + (container.map elemSize).sum := by
  suffices h : ∀ n, container.foldl (fun size x => size + elemSize x) n =
      n + (container.map elemSize).sum from h 4
  induction container with
  | nil => simp
  | cons x xs ih => intro n; simp [ih]; omega

/-! ## Writing at the end -/

/-- The write cursor is at the end of the bytes, as in every buffer that is only written to. -/
def AtEnd (b : BinaryBuffer) : Prop := b.writeCursor = b.bytes.length

/-- The buffer with `out` written at its end. -/
def append (b : BinaryBuffer) (out : List UInt8) : BinaryBuffer :=
  { b with bytes := b.bytes ++ out, writeCursor := b.writeCursor + out.length }

@[simp] theorem bytes_append (b : BinaryBuffer) (out : List UInt8) :
    (b.append out).bytes = b.bytes ++ out := rfl

@[simp] theorem append_nil (b : BinaryBuffer) : b.append [] = b := by simp [append]

@[simp] theorem append_append (b : BinaryBuffer) (out out' : List UInt8) :
    (b.append out).append out' = b.append (out ++ out') := by
  simp [append, Nat.add_assoc]

theorem AtEnd.append {b : BinaryBuffer} (h : b.AtEnd) (out : List UInt8) : (b.append out).AtEnd := by
  simp only [AtEnd, BinaryBuffer.append, List.length_append] at *
  omega

/-- A write at the end appends. -/
theorem put_eq_append {b : BinaryBuffer} (hb : b.AtEnd) {data : List UInt8}
    (h : b.bytes.length + data.length ≤ uint32Max) : b.put data = .ok (b.append data) := by
  have hroom : ¬uint32Max - b.writeCursor < data.length := by rw [hb]; omega
  have hgrow : b.growBuffer data.length =
      .ok { b with bytes := b.bytes ++ List.replicate data.length 0 } := by
    rw [growBuffer, if_neg hroom, hb, resizeBytes_of_le (by omega), Nat.add_sub_cancel_left]
  simp only [put, hgrow, bind, Except.bind, pure, Except.pure, append]
  rw [hb]
  simp

end BinaryBuffer

/-! ## Writers that append -/

open BinaryBuffer

/-- `Writes f out`: `f` appends `out` to every buffer that is at its end and has room for it. -/
def Writes (f : Writer) (out : List UInt8) : Prop :=
  ∀ b : BinaryBuffer, b.AtEnd → b.bytes.length + out.length ≤ uint32Max → f b = .ok (b.append out)

namespace Writes

variable {f g : Writer} {out out' : List UInt8}

theorem put (data : List UInt8) : Writes (BinaryBuffer.put data) data :=
  fun _ hb h => put_eq_append hb h

/-- One writer after the other. -/
theorem bind (hf : Writes f out) (hg : Writes g out') :
    Writes (fun b => (f b).bind g) (out ++ out') := by
  intro b hb h
  rw [List.length_append] at h
  have hb' := hg (b.append out) (hb.append out) (by simp; omega)
  simp only [hf b hb (by omega), Except.bind, hb', append_append]

/-- The bytes of a string or a blob after its length field, if there are any. -/
theorem writeRest (data : List UInt8) :
    Writes (fun b => if data.length = 0 then pure b else b.writeBytes data) data := by
  intro b hb hroom
  by_cases h0 : data.length = 0
  · obtain rfl := List.length_eq_zero_iff.1 h0
    simp [pure, Except.pure]
  · simp only [writeBytes, if_neg h0]
    exact put data b hb hroom

end Writes

/-! ## What a successful write says -/

/-- Two writers in a row succeed when each of them does. -/
theorem bind_eq_ok {f : Except StreamException BinaryBuffer} {g : Writer} {b : BinaryBuffer} :
    f.bind g = .ok b ↔ ∃ c, f = .ok c ∧ g c = .ok b := by
  cases f <;> simp [Except.bind]

/-- Two writers in a row fail when the first does, or the second after it. -/
theorem bind_eq_error {f : Except StreamException BinaryBuffer} {g : Writer} {e : StreamException} :
    f.bind g = .error e ↔ f = .error e ∨ ∃ c, f = .ok c ∧ g c = .error e := by
  cases f <;> simp [Except.bind]

/-- `Encodes f fits out`: `f` appends `out` when `fits` holds and there is room. It succeeds only
when `fits` holds, and then it moves the write cursor by the length of `out`, whatever the buffer;
what it throws is `InvalidInputException`. -/
structure Encodes (f : Writer) (fits : Prop) (out : List UInt8) : Prop where
  writes : fits → Writes f out
  throws : ∀ {b : BinaryBuffer} {e : StreamException}, f b = .error e → ∃ what, e = .invalidInput what
  of_ok : ∀ {b b' : BinaryBuffer}, f b = .ok b' →
    fits ∧ b'.writeCursor = b.writeCursor + out.length

namespace Encodes

variable {f g : Writer} {p q : Prop} {out out' : List UInt8}

theorem congr (h : Encodes f p out) (hpq : p ↔ q) : Encodes f q out where
  writes hq := h.writes (hpq.2 hq)
  throws := h.throws
  of_ok hok := ⟨hpq.1 (h.of_ok hok).1, (h.of_ok hok).2⟩

theorem nil : Encodes .ok True [] where
  writes _ b _ _ := by rw [append_nil]
  throws h := by cases h
  of_ok h := by cases h; simp

theorem put (data : List UInt8) : Encodes (BinaryBuffer.put data) True data where
  writes _ := Writes.put data
  throws h := by
    rcases bind_eq_error.1 h with h | ⟨c, -, h⟩
    · rw [growBuffer] at h
      split at h
      · cases h
        exact ⟨_, rfl⟩
      · cases h
    · cases h
  of_ok {b b'} h := by
    obtain ⟨c, hc, h⟩ := bind_eq_ok.1 h
    rw [growBuffer] at hc
    split at hc
    · cases hc
    · cases hc
      cases h
      simp

/-- One writer after the other. -/
theorem bind (hf : Encodes f p out) (hg : Encodes g q out') :
    Encodes (fun b => (f b).bind g) (p ∧ q) (out ++ out') where
  writes h := (hf.writes h.1).bind (hg.writes h.2)
  throws h := by
    rcases bind_eq_error.1 h with h | ⟨c, -, h⟩
    · exact hf.throws h
    · exact hg.throws h
  of_ok {b b'} h := by
    obtain ⟨c, hc, h⟩ := bind_eq_ok.1 h
    have hf := hf.of_ok hc
    have hg := hg.of_ok h
    rw [List.length_append]
    exact ⟨⟨hf.1, hg.1⟩, by omega⟩

theorem writeRest (data : List UInt8) :
    Encodes (fun b => if data.length = 0 then pure b else b.writeBytes data) True data where
  writes _ := Writes.writeRest data
  throws h := by
    split at h
    · cases h
    · rename_i h0
      rw [writeBytes, if_neg h0] at h
      exact (put data).throws h
  of_ok {b b'} h := by
    split at h
    · cases h
      simp [*]
    · rename_i h0
      rw [writeBytes, if_neg h0] at h
      exact (put data).of_ok h

/-- A length check in front of a writer. -/
theorem guarded {n limit : ℕ} {what : String} (hf : n ≤ limit → Encodes f p out) :
    Encodes (fun b => if limit < n then .error (.invalidInput what) else f b) (n ≤ limit ∧ p) out where
  writes h := by
    simp only [if_neg (Nat.not_lt.2 h.1)]
    exact (hf h.1).writes h.2
  throws h := by
    split at h
    · cases h
      exact ⟨what, rfl⟩
    · exact (hf (by omega)).throws h
  of_ok {b b'} h := by
    split at h
    · cases h
    · have hn : n ≤ limit := by omega
      exact ⟨⟨hn, ((hf hn).of_ok h).1⟩, ((hf hn).of_ok h).2⟩

theorem writeString (string : List UInt8) :
    Encodes (BinaryBuffer.writeString string) (string.length ≤ int16Max)
      (shortBytes (Int16.ofNat string.length) ++ string) :=
  (guarded fun _ => (put _).bind (writeRest string)).congr (by simp)

theorem writeBlob (blob : List UInt8) :
    Encodes (BinaryBuffer.writeBlob blob) (blob.length ≤ int32Max)
      (intBytes (Int32.ofNat blob.length) ++ blob) :=
  (guarded fun _ => (put _).bind (writeRest blob)).congr (by simp)

section Arrays

variable {α : Type} {writeElem : α → Writer} {fits : α → Prop} {enc : α → List UInt8}

theorem writeElems (h : ∀ x, Encodes (writeElem x) (fits x) (enc x)) (xs : List α) :
    Encodes (BinaryBuffer.writeElems writeElem xs) (∀ x ∈ xs, fits x) (xs.flatMap enc) := by
  induction xs with
  | nil => exact nil.congr (by simp)
  | cons x xs ih => exact ((h x).bind ih).congr (by simp)

theorem writeArray (h : ∀ x, Encodes (writeElem x) (fits x) (enc x)) (xs : List α) :
    Encodes (BinaryBuffer.writeArray writeElem xs) (xs.length ≤ int32Max ∧ ∀ x ∈ xs, fits x)
      (intBytes (Int32.ofNat xs.length) ++ xs.flatMap enc) :=
  (guarded fun _ => (put _).bind (writeElems h xs)).congr (by simp)

end Arrays

end Encodes

/-! ## Readers of what was written -/

/-- Two readers in a row succeed when each of them does. -/
theorem read_bind_eq_ok {α β : Type} {f : Reader α} {g : α → Reader β} {b : BinaryBuffer}
    {r : β × BinaryBuffer} :
    (f >>= g) b = .ok r ↔ ∃ v c, f b = .ok (v, c) ∧ g v c = .ok r := by
  show (f b).bind _ = _ ↔ _
  rcases f b with e | ⟨v, c⟩
  · exact ⟨nofun, fun ⟨_, _, h, _⟩ => nomatch h⟩
  · simp [Except.bind]

/-- Two readers in a row fail when the first does, or the second after it. -/
theorem read_bind_eq_error {α β : Type} {f : Reader α} {g : α → Reader β} {b : BinaryBuffer}
    {e : StreamException} :
    (f >>= g) b = .error e ↔ f b = .error e ∨ ∃ v c, f b = .ok (v, c) ∧ g v c = .error e := by
  show (f b).bind _ = _ ↔ _
  rcases f b with e | ⟨v, c⟩ <;> simp [Except.bind]

/-- A computation on another buffer between two reads. -/
theorem lift_bind_eq_ok {α β : Type} {e : Except StreamException α} {k : α → Reader β}
    {b : BinaryBuffer} {r : β × BinaryBuffer} :
    ((liftM e : Reader α) >>= k) b = .ok r ↔ ∃ v, e = .ok v ∧ k v b = .ok r := by
  rw [read_bind_eq_ok]
  cases e with
  | error e => exact ⟨fun ⟨_, _, h, _⟩ => (nomatch h), fun ⟨_, h, _⟩ => (nomatch h)⟩
  | ok v =>
    constructor
    · rintro ⟨_, _, h, hk⟩
      cases h
      exact ⟨v, rfl, hk⟩
    · rintro ⟨_, h, hk⟩
      cases h
      exact ⟨v, b, rfl, hk⟩

/-- `Reads f out v`: where the bytes `out` follow the read cursor, `f` returns `v` and moves the
cursor behind them. -/
def Reads {α : Type} (f : Reader α) (out : List UInt8) (v : α) : Prop :=
  ∀ (before rest : List UInt8) (writeCursor : ℕ),
    f ⟨before ++ (out ++ rest), before.length, writeCursor⟩ =
      .ok (v, ⟨before ++ (out ++ rest), before.length + out.length, writeCursor⟩)

namespace Reads

variable {α β : Type} {f : Reader α} {g : α → Reader β} {out out' : List UInt8} {v : α} {u : β}

theorem pure (v : α) : Reads (Pure.pure v) [] v := fun _ _ _ => rfl

/-- One reader after the other. -/
theorem bind (hf : Reads f out v) (hg : Reads (g v) out' u) : Reads (f >>= g) (out ++ out') u := by
  intro before rest writeCursor
  have hfirst := hf before (out' ++ rest) writeCursor
  have hsecond := hg (before ++ out) rest writeCursor
  rw [List.append_assoc, List.length_append] at hsecond
  rw [List.append_assoc, List.length_append, ← Nat.add_assoc, ← hsecond]
  show (f _).bind _ = _
  rw [hfirst]
  rfl

/-- A computation that reads nothing. -/
theorem lift {x : Except StreamException α} (hx : x = .ok v) : Reads (liftM x) [] v := by
  subst hx
  exact pure v

/-- What is read is converted. -/
theorem map (hf : Reads f out v) (h : α → β) : Reads (f >>= fun x => Pure.pure (h x)) out (h v) := by
  have hbind := hf.bind (g := fun x => Pure.pure (h x)) (pure (h v))
  rwa [List.append_nil] at hbind

theorem get (out : List UInt8) : Reads (BinaryBuffer.get out.length) out out := by
  intro before rest writeCursor
  simp [BinaryBuffer.get]

/-- A number that fits into its bytes. -/
theorem number {n x : ℕ} (hx : x < 256 ^ n) (h : ℕ → α) :
    Reads (BinaryBuffer.get n >>= fun data => Pure.pure (h (fromBigEndian data))) (bigEndian n x)
      (h x) := by
  have hget := (get (bigEndian n x)).map fun data => h (fromBigEndian data)
  rwa [length_bigEndian, fromBigEndian_bigEndian hx] at hget

theorem readByte (v : UInt8) : Reads BinaryBuffer.readByte [v] v := by
  have h := number (n := 1) v.toNat_lt UInt8.ofNat
  have hbyte : bigEndian 1 v.toNat = [v] := by simp [bigEndian]
  rwa [UInt8.ofNat_toNat, hbyte] at h

theorem readUshort (v : UInt16) : Reads BinaryBuffer.readUshort (bigEndian 2 v.toNat) v := by
  have h := number (n := 2) v.toNat_lt UInt16.ofNat
  rwa [UInt16.ofNat_toNat] at h

theorem readUint (v : UInt32) : Reads BinaryBuffer.readUint (bigEndian 4 v.toNat) v := by
  have h := number (n := 4) v.toNat_lt UInt32.ofNat
  rwa [UInt32.ofNat_toNat] at h

theorem readUlong (v : UInt64) : Reads BinaryBuffer.readUlong (bigEndian 8 v.toNat) v := by
  have h := number (n := 8) v.toNat_lt UInt64.ofNat
  rwa [UInt64.ofNat_toNat] at h

theorem readShort (v : Int16) : Reads BinaryBuffer.readShort (shortBytes v) v := by
  have h := (readUshort v.toUInt16).map UInt16.toInt16
  rwa [Int16.toInt16_toUInt16] at h

theorem readInt (v : Int32) : Reads BinaryBuffer.readInt (intBytes v) v := by
  have h := (readUint v.toUInt32).map UInt32.toInt32
  rwa [Int32.toInt32_toUInt32] at h

theorem readLong (v : Int64) : Reads BinaryBuffer.readLong (bigEndian 8 v.toUInt64.toNat) v := by
  have h := (readUlong v.toUInt64).map UInt64.toInt64
  rwa [Int64.toInt64_toUInt64] at h

theorem readBytes (out : List UInt8) : Reads (BinaryBuffer.readBytes out.length) out out := by
  rw [BinaryBuffer.readBytes]
  split
  · rename_i hzero
    obtain rfl := List.length_eq_zero_iff.1 hzero
    exact pure []
  · exact get out

theorem ofNat_nonpos {n : ℕ} (h : n < 2 ^ 31) : Int32.ofNat n ≤ 0 ↔ n = 0 := by
  rw [Int32.le_iff_toInt_le, Int32.toInt_ofNat_of_lt h]
  simp

/-- A length field of 32 bits in front of what it counts; nothing follows a length of zero. -/
theorem counted {n : ℕ} (hn : n ≤ int32Max) {k : ℕ → Reader α} {z : α}
    (hzero : n = 0 → out = [] ∧ v = z) (hk : n ≠ 0 → Reads (k n) out v) :
    Reads (BinaryBuffer.readInt >>= fun length =>
      if length ≤ 0 then Pure.pure z else k length.toNatClampNeg)
      (intBytes (Int32.ofNat n) ++ out) v := by
  have hlt : n < 2 ^ 31 := by
    simp only [int32Max] at hn
    omega
  have hle := ofNat_nonpos hlt
  refine (readInt _).bind ?_
  rw [Int32.toNatClampNeg_ofNat_of_lt hlt]
  split
  · rename_i h
    obtain ⟨rfl, rfl⟩ := hzero (hle.1 h)
    exact pure v
  · rename_i h
    exact hk fun hz => h (hle.2 hz)

/-- A blob that is short enough for its length field. -/
theorem readBlob {blob : List UInt8} (h : blob.length ≤ int32Max) :
    Reads BinaryBuffer.readBlob (intBytes (Int32.ofNat blob.length) ++ blob) blob := by
  refine counted h (fun hzero => ?_) fun _ => readBytes blob
  obtain rfl := List.length_eq_zero_iff.1 hzero
  exact ⟨rfl, rfl⟩

/-- A string that is short enough for its length field. -/
theorem readString {string : List UInt8} (h : string.length ≤ int16Max) :
    Reads BinaryBuffer.readString (shortBytes (Int16.ofNat string.length) ++ string) string := by
  have hlt : string.length < 2 ^ 15 := by
    simp only [int16Max] at h
    omega
  refine (readShort _).bind ?_
  rw [Int16.toNatClampNeg_ofNat_of_lt hlt]
  split
  · rename_i hzero
    rw [Int16.le_iff_toInt_le, Int16.toInt_ofNat_of_lt hlt] at hzero
    have hnil : string.length = 0 := by simpa using hzero
    obtain rfl := List.length_eq_zero_iff.1 hnil
    exact pure []
  · exact get string

section Arrays

variable {readElem : Reader α} {enc : α → List UInt8} {xs : List α}

theorem readElems (h : ∀ x ∈ xs, Reads readElem (enc x) x) :
    Reads (BinaryBuffer.readElems readElem xs.length) (xs.flatMap enc) xs := by
  induction xs with
  | nil => exact pure []
  | cons x xs ih =>
    have hrest := ih fun y hy => h y (List.mem_cons_of_mem x hy)
    exact (h x List.mem_cons_self).bind (hrest.map fun ys => x :: ys)

/-- An array that is short enough for its length field, of elements that are read back. -/
theorem readArray (hlen : xs.length ≤ int32Max) (h : ∀ x ∈ xs, Reads readElem (enc x) x) :
    Reads (BinaryBuffer.readArray readElem)
      (intBytes (Int32.ofNat xs.length) ++ xs.flatMap enc) xs := by
  refine counted hlen (fun hzero => ?_) fun _ => readElems h
  obtain rfl := List.length_eq_zero_iff.1 hzero
  exact ⟨rfl, rfl⟩

end Arrays

/-- What is read from the front of a byte string does not depend on what follows: two encodings, one
of which is a prefix of the other, stand for the same value. -/
theorem eq_of_isPrefix {v' : α} (h : Reads f out v) (h' : Reads f out' v') (hpre : out <+: out') :
    v = v' := by
  obtain ⟨rest, rfl⟩ := hpre
  have hshort := h [] rest 0
  have hlong := h' [] [] 0
  rw [List.append_nil, hshort] at hlong
  exact (Prod.mk.inj (Except.ok.inj hlong)).1

end Reads

/-- The read cursor is in front of these bytes, and they are the last of the buffer. -/
def BinaryBuffer.At (b : BinaryBuffer) (bytes : List UInt8) : Prop :=
  ∃ before writeCursor, b = ⟨before ++ bytes, before.length, writeCursor⟩

/-- What is in front of the cursor is read. -/
theorem Reads.read_at {α : Type} {f : Reader α} {out rest : List UInt8} {v : α} (h : Reads f out v)
    {b : BinaryBuffer} (hb : b.At (out ++ rest)) : ∃ b', f b = .ok (v, b') ∧ b'.At rest := by
  obtain ⟨before, writeCursor, rfl⟩ := hb
  refine ⟨_, h before rest writeCursor, before ++ out, writeCursor, ?_⟩
  rw [List.append_assoc, List.length_append]

/-- All that is in front of the cursor is read. -/
theorem Reads.read_all {α : Type} {f : Reader α} {out : List UInt8} {v : α} (h : Reads f out v)
    {b : BinaryBuffer} (hb : b.At out) : ∃ b', f b = .ok (v, b') := by
  rw [← List.append_nil out] at hb
  obtain ⟨b', hb', -⟩ := h.read_at hb
  exact ⟨b', hb'⟩

end Hareflow.Wire
