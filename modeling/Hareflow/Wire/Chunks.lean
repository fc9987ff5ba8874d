import Hareflow.Wire.ServerCommands

/-!
# Deliver chunks on arbitrary bytes

`DeliverCommand::read_body` reads a header of fixed size, copies the announced number of data bytes
and reads the announced number of entries from the copy. This module says what it does on every byte
string, for both versions of the command.

* `Fixed` is for readers of a fixed number of bytes: they fail on fewer bytes, and else their value
  is a function of these bytes. `Fixed.bind` adds up the sizes, so that the fields of a header are
  numbers at their positions (`number`, `Chunk.ofBytes`).
* `Entries` says that data begin with given entries, each of them a length of four bytes, the first
  bit of which is zero, and as many bytes.
* `DeliverCommand.readBody_eq_ok_iff` puts them together.
-/

namespace Hareflow.Wire

open BinaryBuffer

/-- The big-endian number in the `len` bytes at a position. -/
def number (bytes : Bytes) (pos len : ℕ) : ℕ := fromBigEndian ((bytes.drop pos).take len)

@[simp] theorem number_drop (bytes : Bytes) (n pos len : ℕ) :
    number (bytes.drop n) pos len = number bytes (n + pos) len := by
  rw [number, List.drop_drop, number]

section Split

variable {n : ℕ} {before bytes : Bytes}

theorem append_take_append_drop : before ++ bytes.take n ++ bytes.drop n = before ++ bytes := by
  rw [List.append_assoc, List.take_append_drop]

theorem length_append_take (hn : n ≤ bytes.length) :
    (before ++ bytes.take n).length = before.length + n := by
  rw [List.length_append, List.length_take_of_le hn]

end Split

/-- `Fixed f n val`: `f` reads `n` bytes at the cursor and makes a value of them. -/
def Fixed {α : Type} (f : Reader α) (n : ℕ) (val : Bytes → α) : Prop :=
  ∀ (before bytes : Bytes) (writeCursor : ℕ), f ⟨before ++ bytes, before.length, writeCursor⟩ =
    if bytes.length < n then .error (.invalidInput "Not enough data left in buffer")
    else .ok (val bytes, ⟨before ++ bytes, before.length + n, writeCursor⟩)

namespace Fixed

variable {α β : Type} {f : Reader α} {g : α → Reader β} {n m : ℕ} {val : Bytes → α}
  {val' : α → Bytes → β}

theorem pure (v : α) : Fixed (Pure.pure v) 0 fun _ => v := fun _ _ _ => rfl

/-- One reader after the other; the second sees the bytes behind those of the first. -/
theorem bind (hf : Fixed f n val) (hg : ∀ v, Fixed (g v) m (val' v)) :
    Fixed (f >>= g) (n + m) fun bytes => val' (val bytes) (bytes.drop n) := by
  intro before bytes writeCursor
  show (f _).bind _ = _
  rw [hf before bytes writeCursor]
  by_cases hn : bytes.length < n
  · rw [if_pos hn, if_pos (by omega)]
    rfl
  · have hsecond := hg (val bytes) (before ++ bytes.take n) (bytes.drop n) writeCursor
    rw [append_take_append_drop, length_append_take (by omega)] at hsecond
    rw [if_neg hn]
    show g (val bytes) _ = _
    rw [hsecond, List.length_drop]
    by_cases hm : bytes.length < n + m
    · rw [if_pos hm, if_pos (by omega)]
    · rw [if_neg hm, if_neg (by omega), Nat.add_assoc]

theorem eq_ok (hf : Fixed f n val) {before bytes : Bytes} {writeCursor : ℕ} {v : α}
    {b : BinaryBuffer} :
    f ⟨before ++ bytes, before.length, writeCursor⟩ = .ok (v, b) ↔
      n ≤ bytes.length ∧ v = val bytes ∧
        b = ⟨before ++ bytes, before.length + n, writeCursor⟩ := by
  rw [hf before bytes writeCursor]
  by_cases hn : bytes.length < n
  · rw [if_pos hn]
    exact ⟨nofun, fun h => absurd hn (Nat.not_lt.2 h.1)⟩
  · rw [if_neg hn, Except.ok.injEq, Prod.mk.injEq]
    exact ⟨fun h => ⟨Nat.not_lt.1 hn, h.1.symm, h.2.symm⟩, fun h => ⟨h.2.1.symm, h.2.2.symm⟩⟩

/-- A run that succeeds has its bytes, and the rest goes on behind them. -/
theorem bind_eq_ok (hf : Fixed f n val) {before bytes : Bytes} {writeCursor : ℕ}
    {r : β × BinaryBuffer} :
    (f >>= g) ⟨before ++ bytes, before.length, writeCursor⟩ = .ok r ↔
      n ≤ bytes.length ∧
        g (val bytes) ⟨before ++ bytes, before.length + n, writeCursor⟩ = .ok r := by
  show (f _).bind _ = _ ↔ _
  rw [hf before bytes writeCursor]
  by_cases hn : bytes.length < n
  · rw [if_pos hn]
    exact ⟨nofun, fun h => absurd hn (Nat.not_lt.2 h.1)⟩
  · rw [if_neg hn]
    exact ⟨fun h => ⟨Nat.not_lt.1 hn, h⟩, fun h => h.2⟩

/-- What is read is converted. -/
theorem map (hf : Fixed f n val) (h : α → β) :
    Fixed (f >>= fun x => Pure.pure (h x)) n fun bytes => h (val bytes) :=
  hf.bind (m := 0) fun v => pure (h v)

theorem get (n : ℕ) : Fixed (BinaryBuffer.get n) n fun bytes => bytes.take n := by
  intro before bytes writeCursor
  have hlen : (before ++ bytes).length < before.length + n ↔ bytes.length < n := by
    rw [List.length_append]
    omega
  by_cases hn : bytes.length < n
  · rw [BinaryBuffer.get, if_pos (hlen.2 hn), if_pos hn]
  · rw [BinaryBuffer.get, if_neg (mt hlen.1 hn), if_neg hn, List.drop_left]

/-- A number of `n` bytes. -/
theorem ofNumber (n : ℕ) (h : ℕ → α) :
    Fixed (BinaryBuffer.get n >>= fun data => Pure.pure (h (fromBigEndian data))) n fun bytes =>
      h (number bytes 0 n) :=
  (get n).map fun data => h (fromBigEndian data)

theorem readByte : Fixed BinaryBuffer.readByte 1 fun bytes => UInt8.ofNat (number bytes 0 1) :=
  ofNumber 1 UInt8.ofNat

theorem readUshort :
    Fixed BinaryBuffer.readUshort 2 fun bytes => UInt16.ofNat (number bytes 0 2) :=
  ofNumber 2 UInt16.ofNat

theorem readUint : Fixed BinaryBuffer.readUint 4 fun bytes => UInt32.ofNat (number bytes 0 4) :=
  ofNumber 4 UInt32.ofNat

theorem readUlong : Fixed BinaryBuffer.readUlong 8 fun bytes => UInt64.ofNat (number bytes 0 8) :=
  ofNumber 8 UInt64.ofNat

theorem readInt :
    Fixed BinaryBuffer.readInt 4 fun bytes => (UInt32.ofNat (number bytes 0 4)).toInt32 :=
  readUint.map UInt32.toInt32

theorem readLong :
    Fixed BinaryBuffer.readLong 8 fun bytes => (UInt64.ofNat (number bytes 0 8)).toInt64 :=
  readUlong.map UInt64.toInt64

theorem readBytes (n : ℕ) : Fixed (BinaryBuffer.readBytes n) n fun bytes => bytes.take n := by
  rw [BinaryBuffer.readBytes]
  split
  · rename_i hzero
    subst hzero
    exact pure []
  · exact get n

end Fixed

/-! ## The header -/

/-- The header of a chunk at a position. -/
def Chunk.ofBytes (bytes : Bytes) (pos : ℕ) : Chunk where
  magicVersion := .ofNat (number bytes pos 1)
  chunkType := .ofNat (number bytes (pos + 1) 1)
  nbEntries := .ofNat (number bytes (pos + 2) 2)
  nbRecords := .ofNat (number bytes (pos + 4) 4)
  timestamp := (UInt64.ofNat (number bytes (pos + 8) 8)).toInt64
  epoch := .ofNat (number bytes (pos + 16) 8)
  offset := .ofNat (number bytes (pos + 24) 8)
  chunkCrc := .ofNat (number bytes (pos + 32) 4)
  dataLen := .ofNat (number bytes (pos + 36) 4)
  trailerLen := .ofNat (number bytes (pos + 40) 4)
  reserved := .ofNat (number bytes (pos + 44) 4)

theorem Chunk.ofBytes_drop (bytes : Bytes) (n : ℕ) :
    Chunk.ofBytes (bytes.drop n) 0 = Chunk.ofBytes bytes n := by
  simp [Chunk.ofBytes]

theorem Chunk.read_fixed : Fixed Chunk.read 48 fun bytes => Chunk.ofBytes bytes 0 := by
  have h := Fixed.readByte.bind fun magicVersion => Fixed.readByte.bind fun chunkType =>
    Fixed.readUshort.bind fun nbEntries => Fixed.readUint.bind fun nbRecords =>
    Fixed.readLong.bind fun timestamp => Fixed.readUlong.bind fun epoch =>
    Fixed.readUlong.bind fun offset => Fixed.readUint.bind fun chunkCrc =>
    Fixed.readUint.bind fun dataLen => Fixed.readUint.bind fun trailerLen =>
    Fixed.readUint.map fun reserved => Chunk.mk magicVersion chunkType nbEntries nbRecords timestamp
      epoch offset chunkCrc dataLen trailerLen reserved
  simp only [List.drop_drop, number_drop] at h
  exact h

namespace DeliverCommand

/-- The position of the header of the chunk: behind the subscription id and, from version 2 on, the
committed chunk id. -/
def chunkPosition (version : UInt16) : ℕ := 1 + if 2 ≤ version then 8 else 0

/-- The number of bytes before the data. -/
def headerSize (version : UInt16) : ℕ := chunkPosition version + 48

/-- The committed chunk id, which version 1 does not have. -/
def committedChunkIdOf (version : UInt16) (bytes : Bytes) : Option UInt64 :=
  if 2 ≤ version then some (.ofNat (number bytes 1 8)) else none

/-- The data of the chunk: as many bytes behind the header as it announces. -/
def dataOf (version : UInt16) (bytes : Bytes) : Bytes :=
  (bytes.drop (headerSize version)).take
    (Chunk.ofBytes bytes (chunkPosition version)).dataLen.toNat

/-- `read_body` up to the data. -/
def readHeader (version : UInt16) : Reader (UInt8 × Option UInt64 × Chunk) := do
  let subscriptionId ← readByte
  let committedChunkId ← readCommittedChunkId version
  let chunk ← Chunk.read
  return (subscriptionId, committedChunkId, chunk)

theorem readCommittedChunkId_fixed (version : UInt16) :
    Fixed (readCommittedChunkId version) (if 2 ≤ version then 8 else 0) fun bytes =>
      if 2 ≤ version then some (.ofNat (number bytes 0 8)) else none := by
  unfold readCommittedChunkId
  split
  · exact Fixed.readUlong.map some
  · exact Fixed.pure none

theorem readHeader_fixed (version : UInt16) :
    Fixed (readHeader version) (headerSize version) fun bytes =>
      (.ofNat (number bytes 0 1), committedChunkIdOf version bytes,
        Chunk.ofBytes bytes (chunkPosition version)) := by
  have h := Fixed.readByte.bind fun subscriptionId =>
    (readCommittedChunkId_fixed version).bind fun committedChunkId =>
      Chunk.read_fixed.map fun chunk => (subscriptionId, committedChunkId, chunk)
  simp only [List.drop_drop, number_drop, Chunk.ofBytes_drop] at h
  rwa [← Nat.add_assoc] at h

/-- `read_body` after the header: copy the data and read the entries from the copy. -/
def readEntries (chunk : Chunk) : Reader (List Bytes) := do
  let bytes ← readBytes chunk.dataLen.toNat
  let data ← BinaryBuffer.writeBytes bytes {}
  let (messages, _) ← readElems readEntry chunk.nbEntries.toNat data
  return messages

theorem readBody_eq (version : UInt16) :
    readBody version = readHeader version >>= fun h => readEntries h.2.2 >>= fun messages =>
      pure ⟨h.1, h.2.1, h.2.2, messages⟩ := by
  simp [readBody, readHeader, readEntries]

/-! ## The entries -/

/-- An entry: a length of four bytes, the first bit of which is zero, and as many bytes. -/
def IsEntry (entry body : Bytes) : Prop :=
  ∃ b₀ b₁ b₂ b₃ : UInt8, b₀ &&& 0x80 = 0 ∧ fromBigEndian [b₀, b₁, b₂, b₃] = body.length ∧
    entry = [b₀, b₁, b₂, b₃] ++ body

/-- The data begin with these entries. -/
inductive Entries : Bytes → List Bytes → Prop
  | nil (data : Bytes) : Entries data []
  | cons {entry body data : Bytes} {bodies : List Bytes} (h : IsEntry entry body)
    (hrest : Entries data bodies) : Entries (entry ++ data) (body :: bodies)

/-- Looking at the first byte and putting it back leaves the blob to be read. -/
theorem readEntry_eq_ok {before data : Bytes} {writeCursor : ℕ} {r : Bytes × BinaryBuffer} :
    readEntry ⟨before ++ data, before.length, writeCursor⟩ = .ok r ↔
      (∃ b₀ rest, data = b₀ :: rest ∧ b₀ &&& 0x80 = 0) ∧
        readBlob ⟨before ++ data, before.length, writeCursor⟩ = .ok r := by
  rw [readEntry, Fixed.readByte.bind_eq_ok]
  cases data with
  | nil =>
    constructor
    · exact fun h => absurd h.1 (by decide)
    · rintro ⟨⟨b, rest, h, -⟩, -⟩
      cases h
  | cons b₀ rest =>
    have hbyte : UInt8.ofNat (number (b₀ :: rest) 0 1) = b₀ := by
      simp [number, fromBigEndian]
    rw [hbyte]
    by_cases hbit : b₀ &&& 0x80 = 0
    · rw [if_neg (not_not.2 hbit)]
      show _ ∧ (unreadByte _).bind _ = _ ↔ _
      rw [unreadByte_eq]
      exact ⟨fun h => ⟨⟨b₀, rest, rfl, hbit⟩, h.2⟩, fun h => ⟨Nat.succ_pos _, h.2⟩⟩
    · rw [if_pos hbit]
      constructor
      · intro h
        cases h.2
      · rintro ⟨⟨b, rest', h, hb⟩, -⟩
        obtain ⟨rfl, rfl⟩ := List.cons.inj h
        exact absurd hb hbit

/-- A length the first bit of which is zero is not negative. -/
theorem length_lt {b₀ : UInt8} (b₁ b₂ b₃ : UInt8) (h : b₀ &&& 0x80 = 0) :
    fromBigEndian [b₀, b₁, b₂, b₃] < 2 ^ 31 := by
  have hsmall : b₀.toNat < 128 := by
    have hlt := b₀.toNat_lt
    have hand : b₀.toNat &&& 2 ^ 7 = 0 := congrArg UInt8.toNat h
    have hbit : b₀.toNat.testBit 7 = false := by
      rw [← Bool.and_true (b₀.toNat.testBit 7), ← Nat.testBit_two_pow_self (n := 7),
        ← Nat.testBit_and, hand, Nat.zero_testBit]
    rw [Nat.testBit_eq_decide_div_mod_eq, decide_eq_false_iff_not] at hbit
    omega
  have h₁ := b₁.toNat_lt
  have h₂ := b₂.toNat_lt
  have h₃ := b₃.toNat_lt
  simp only [fromBigEndian, List.foldl_cons, List.foldl_nil]
  omega

/-- The blob behind such a length. -/
theorem readBlob_cons {b₀ : UInt8} (b₁ b₂ b₃ : UInt8) (h : b₀ &&& 0x80 = 0) (before rest : Bytes)
    (writeCursor : ℕ) :
    readBlob ⟨before ++ ([b₀, b₁, b₂, b₃] ++ rest), before.length, writeCursor⟩ =
      readBytes (fromBigEndian [b₀, b₁, b₂, b₃])
        ⟨before ++ [b₀, b₁, b₂, b₃] ++ rest, (before ++ [b₀, b₁, b₂, b₃]).length, writeCursor⟩ := by
  have hlt := length_lt b₁ b₂ b₃ h
  have hread := Fixed.readInt before ([b₀, b₁, b₂, b₃] ++ rest) writeCursor
  rw [if_neg (by simp)] at hread
  show (readInt _).bind _ = _
  rw [hread, List.append_assoc]
  -- the length is not negative, so that a blob of length zero is the only special case
  show (if Int32.ofNat (fromBigEndian [b₀, b₁, b₂, b₃]) ≤ 0 then _ else
    readBytes (Int32.ofNat (fromBigEndian [b₀, b₁, b₂, b₃])).toNatClampNeg : Reader Bytes) _ = _
  rw [Int32.toNatClampNeg_ofNat_of_lt hlt, List.length_append]
  split
  · rename_i hzero
    rw [(Reads.ofNat_nonpos hlt).1 hzero]
    rfl
  · rfl

/-- An entry is read exactly when there is one at the cursor. -/
theorem readEntry_exact {before data m : Bytes} {writeCursor : ℕ} {b : BinaryBuffer} :
    readEntry ⟨before ++ data, before.length, writeCursor⟩ = .ok (m, b) ↔
      ∃ entry rest, IsEntry entry m ∧ data = entry ++ rest ∧
        b = ⟨before ++ data, (before ++ entry).length, writeCursor⟩ := by
  rw [readEntry_eq_ok]
  constructor
  · rintro ⟨⟨b₀, tail, rfl, hbit⟩, hblob⟩
    have hfour := (Fixed.readInt.bind_eq_ok.1 hblob).1
    obtain _ | ⟨b₁, _ | ⟨b₂, _ | ⟨b₃, rest⟩⟩⟩ := tail
    · simp at hfour
    · simp at hfour
    · simp at hfour
    · rw [show b₀ :: b₁ :: b₂ :: b₃ :: rest = [b₀, b₁, b₂, b₃] ++ rest from rfl,
        readBlob_cons b₁ b₂ b₃ hbit, (Fixed.readBytes _).eq_ok] at hblob
      obtain ⟨hle, rfl, rfl⟩ := hblob
      refine ⟨[b₀, b₁, b₂, b₃] ++ rest.take (fromBigEndian [b₀, b₁, b₂, b₃]),
        rest.drop (fromBigEndian [b₀, b₁, b₂, b₃]), ⟨b₀, b₁, b₂, b₃, hbit, ?_, rfl⟩, ?_, ?_⟩
      · exact (List.length_take_of_le hle).symm
      · rw [List.append_assoc, List.take_append_drop]
        rfl
      · simp only [List.length_append, List.length_take_of_le hle, List.append_assoc, Nat.add_assoc]
        rfl
  · rintro ⟨entry, rest, ⟨b₀, b₁, b₂, b₃, hbit, hlen, rfl⟩, rfl, rfl⟩
    refine ⟨⟨b₀, b₁ :: b₂ :: b₃ :: (m ++ rest), rfl, hbit⟩, ?_⟩
    rw [List.append_assoc, readBlob_cons b₁ b₂ b₃ hbit, (Fixed.readBytes _).eq_ok, hlen]
    refine ⟨by simp, by simp, ?_⟩
    simp only [List.length_append, List.append_assoc, Nat.add_assoc]

/-- The loop reads exactly the entries with which the data begin. -/
theorem readElems_exact (n : ℕ) (before data : Bytes) (ms : List Bytes) (writeCursor : ℕ) :
    (∃ b, readElems readEntry n ⟨before ++ data, before.length, writeCursor⟩ = .ok (ms, b)) ↔
      ms.length = n ∧ Entries data ms := by
  induction n generalizing before data ms with
  | zero =>
    constructor
    · rintro ⟨b, h⟩
      cases h
      exact ⟨rfl, .nil data⟩
    · rintro ⟨hlen, -⟩
      obtain rfl := List.length_eq_zero_iff.1 hlen
      exact ⟨_, rfl⟩
  | succ n ih =>
    constructor
    · rintro ⟨b, h⟩
      obtain ⟨m, b₁, hentry, h⟩ := read_bind_eq_ok.1 h
      obtain ⟨ms', b₂, hrest, h⟩ := read_bind_eq_ok.1 h
      cases h
      obtain ⟨entry, rest, hm, rfl, rfl⟩ := readEntry_exact.1 hentry
      rw [← List.append_assoc] at hrest
      obtain ⟨hlen, hms⟩ := (ih _ _ _).1 ⟨b, hrest⟩
      exact ⟨congrArg Nat.succ hlen, .cons hm hms⟩
    · rintro ⟨hlen, h⟩
      cases h with
      | nil => cases hlen
      | @cons entry m rest ms hm hms =>
        obtain ⟨b, hrest⟩ := (ih (before ++ entry) rest ms).2 ⟨Nat.succ.inj hlen, hms⟩
        rw [List.append_assoc] at hrest
        refine ⟨b, read_bind_eq_ok.2 ⟨m, _, ?_, read_bind_eq_ok.2 ⟨ms, b, hrest, rfl⟩⟩⟩
        exact readEntry_exact.2 ⟨entry, rest, hm, rfl, rfl⟩

/-! ## The command -/

/-- The data are read from a copy of their own, so that what the last entry leaves of them is
consumed too. -/
theorem readEntries_exact (chunk : Chunk) (before bytes : Bytes) (ms : List Bytes) (writeCursor : ℕ)
    (b : BinaryBuffer) :
    readEntries chunk ⟨before ++ bytes, before.length, writeCursor⟩ = .ok (ms, b) ↔
      chunk.dataLen.toNat ≤ bytes.length ∧ ms.length = chunk.nbEntries.toNat ∧
        Entries (bytes.take chunk.dataLen.toNat) ms ∧
        b = ⟨before ++ bytes, before.length + chunk.dataLen.toNat, writeCursor⟩ := by
  have hsize : (bytes.take chunk.dataLen.toNat).length ≤ uint32Max := by
    have := chunk.dataLen.toNat_lt
    rw [List.length_take]
    simp only [uint32Max]
    omega
  have hcopy := writeBytes_empty hsize
  have hloop := readElems_exact chunk.nbEntries.toNat [] (bytes.take chunk.dataLen.toNat) ms
    (bytes.take chunk.dataLen.toNat).length
  rw [readEntries, (Fixed.readBytes _).bind_eq_ok, lift_bind_eq_ok, hcopy]
  constructor
  · rintro ⟨hle, _, h, hrest⟩
    cases h
    obtain ⟨⟨ms', b'⟩, hread, h⟩ := lift_bind_eq_ok.1 hrest
    cases h
    obtain ⟨hlen, hms⟩ := hloop.1 ⟨b', hread⟩
    exact ⟨hle, hlen, hms, rfl⟩
  · rintro ⟨hle, hlen, hms, rfl⟩
    obtain ⟨b', hread⟩ := hloop.2 ⟨hlen, hms⟩
    exact ⟨hle, _, rfl, lift_bind_eq_ok.2 ⟨(ms, b'), hread, rfl⟩⟩

/-- `read_body` succeeds exactly on a complete header with the data behind it and the entries in
them, and this is what it returns. -/
theorem readBody_eq_ok_iff {version : UInt16} {before bytes : Bytes} {writeCursor : ℕ}
    {c : DeliverCommand} {b : BinaryBuffer} :
    readBody version ⟨before ++ bytes, before.length, writeCursor⟩ = .ok (c, b) ↔
      headerSize version + (Chunk.ofBytes bytes (chunkPosition version)).dataLen.toNat ≤
        bytes.length ∧
      c.subscriptionId = .ofNat (number bytes 0 1) ∧
      c.committedChunkId = committedChunkIdOf version bytes ∧
      c.chunk = Chunk.ofBytes bytes (chunkPosition version) ∧
      c.messages.length = c.chunk.nbEntries.toNat ∧
      Entries (dataOf version bytes) c.messages ∧
      b = ⟨before ++ bytes, before.length + (headerSize version + c.chunk.dataLen.toNat),
        writeCursor⟩ := by
  -- the entries begin where the header ends
  have hentries {ms : List Bytes} (hheader : headerSize version ≤ bytes.length) :=
    readEntries_exact (Chunk.ofBytes bytes (chunkPosition version))
      (before ++ bytes.take (headerSize version)) (bytes.drop (headerSize version)) ms writeCursor b
  simp only [append_take_append_drop, List.length_drop] at hentries
  rw [readBody_eq, (readHeader_fixed version).bind_eq_ok, read_bind_eq_ok]
  constructor
  · rintro ⟨hheader, ms, b', hread, h⟩
    cases h
    rw [← length_append_take hheader, hentries hheader, length_append_take hheader] at hread
    obtain ⟨hle, hlen, hms, hb⟩ := hread
    exact ⟨by omega, rfl, rfl, rfl, hlen, hms, by rw [hb, Nat.add_assoc]⟩
  · rintro ⟨hle, hsubscription, hcommitted, hchunk, hlen, hms, hb⟩
    obtain ⟨subscriptionId, committedChunkId, chunk, ms⟩ := c
    subst hsubscription hcommitted hchunk
    have hheader : headerSize version ≤ bytes.length := by omega
    refine ⟨hheader, ms, b, ?_, rfl⟩
    rw [← length_append_take hheader, hentries hheader, length_append_take hheader]
    exact ⟨by omega, hlen, hms, by rw [hb, Nat.add_assoc]⟩

/-- The data begin with one list of entries of a given length only. -/
theorem Entries.unique {data : Bytes} {ms ms' : List Bytes} (h : Entries data ms)
    (h' : Entries data ms') (hlen : ms.length = ms'.length) : ms = ms' := by
  obtain ⟨b, hread⟩ := (readElems_exact _ [] data ms 0).2 ⟨hlen, h⟩
  obtain ⟨b', hread'⟩ := (readElems_exact _ [] data ms' 0).2 ⟨rfl, h'⟩
  rw [hread] at hread'
  exact (Prod.mk.inj (Except.ok.inj hread')).1

/-- A command with these entries and the counts that belong to them. -/
def withEntries (c : DeliverCommand) (messages : List Bytes) : DeliverCommand :=
  { c with
    chunk := { c.chunk with
      nbEntries := .ofNat messages.length
      dataLen := .ofNat (messages.flatMap encodeBlob).length }
    messages }

theorem withEntries_wellFormed {version : UInt16} {c : DeliverCommand} {messages : List Bytes}
    (hcommitted : c.committedChunkId.isSome = decide (2 ≤ version)) (hcount : messages.length < 2 ^ 16)
    (hlengths : ∀ m ∈ messages, m.length ≤ int32Max)
    (hsize : (messages.flatMap encodeBlob).length ≤ uint32Max) :
    (c.withEntries messages).WellFormed version where
  committed := hcommitted
  nbEntries := UInt16.toNat_ofNat_of_lt' hcount
  dataLen := UInt32.toNat_ofNat_of_lt' (Nat.lt_succ_of_le hsize)
  lengths := hlengths

/-- **Deliver chunks are decoded exactly**, in every version of the command (`headerSize` is 49
bytes in version 1, and 57 from version 2 on). On every byte string `read_body` succeeds if and only
if the header is complete, the announced number of data bytes follows it and the data begin with the
announced number of entries. Then it returns these entries in order and the fields at their
positions, and has consumed the header and the data. Hence the encoding of a chunk is decoded to its
entries, whatever follows it. -/
theorem readBody_exact (version : UInt16) :
    (∀ (before bytes : Bytes) (writeCursor : ℕ),
      (∃ c b, readBody version ⟨before ++ bytes, before.length, writeCursor⟩ = .ok (c, b)) ↔
        headerSize version ≤ bytes.length ∧
        headerSize version + (Chunk.ofBytes bytes (chunkPosition version)).dataLen.toNat ≤
          bytes.length ∧
        ∃ bodies, bodies.length = (Chunk.ofBytes bytes (chunkPosition version)).nbEntries.toNat ∧
          Entries (dataOf version bytes) bodies) ∧
    (∀ (before bytes : Bytes) (writeCursor : ℕ) (c : DeliverCommand) (b : BinaryBuffer),
      readBody version ⟨before ++ bytes, before.length, writeCursor⟩ = .ok (c, b) →
        (∀ bodies, bodies.length = c.chunk.nbEntries.toNat → Entries (dataOf version bytes) bodies →
          c.messages = bodies) ∧
        c.messages.length = c.chunk.nbEntries.toNat ∧ Entries (dataOf version bytes) c.messages ∧
        c.subscriptionId = .ofNat (number bytes 0 1) ∧
        c.committedChunkId = committedChunkIdOf version bytes ∧
        c.chunk = Chunk.ofBytes bytes (chunkPosition version) ∧
        b = ⟨before ++ bytes, before.length + (headerSize version + c.chunk.dataLen.toNat),
          writeCursor⟩) ∧
    ∀ (c : DeliverCommand) (messages : List Bytes),
      c.committedChunkId.isSome = decide (2 ≤ version) → messages.length < 2 ^ 16 →
      (∀ m ∈ messages, m.length ≤ int32Max) →
      (messages.flatMap encodeBlob).length ≤ uint32Max →
        Reads (readBody version) (c.withEntries messages).encodeBody (c.withEntries messages) := by
  refine ⟨fun before bytes writeCursor => ?_, fun before bytes writeCursor c b h => ?_,
    fun c messages hcommitted hcount hlengths hsize => ?_⟩
  · constructor
    · rintro ⟨c, b, h⟩
      obtain ⟨hle, -, -, hchunk, hlen, hms, -⟩ := readBody_eq_ok_iff.1 h
      rw [hchunk] at hlen
      exact ⟨by omega, hle, c.messages, hlen, hms⟩
    · rintro ⟨-, hle, bodies, hlen, hms⟩
      exact ⟨⟨_, _, _, bodies⟩, _, readBody_eq_ok_iff.2 ⟨hle, rfl, rfl, rfl, hlen, hms, rfl⟩⟩
  · obtain ⟨-, hsubscription, hcommitted, hchunk, hlen, hms, hb⟩ := readBody_eq_ok_iff.1 h
    refine ⟨fun bodies hbodies hentries => ?_, hlen, hms, hsubscription, hcommitted, hchunk, hb⟩
    exact hms.unique hentries (hlen.trans hbodies.symm)
  · exact readBody_reads (withEntries_wellFormed hcommitted hcount hlengths hsize)

theorem readBody_exact_two :
    Reads (readBody 2)
      (withEntries ⟨5, some 41, ⟨80, 0, 0, 2, 1700, 1, 42, 0, 0, 0, 0⟩, []⟩ [[7, 8], []]).encodeBody
      (withEntries ⟨5, some 41, ⟨80, 0, 0, 2, 1700, 1, 42, 0, 0, 0, 0⟩, []⟩ [[7, 8], []]) :=
  (readBody_exact 2).2.2 _ _ rfl (by decide) (by decide) (by decide)

end DeliverCommand

end Hareflow.Wire
