import Hareflow.Wire.StringMap

/-!
# Shapes

The frames of the protocol are records of numbers, strings, blobs, maps and arrays, nested to any
depth. A `Shape` is such a layout. `Shape.write` writes the fields of a value in order with the
`write_*` functions and `write_array`, and `Shape.read` reads them with their counterparts.

`Shape.write_encodes` and `Shape.read_reads` are by induction on the shape; `Shape.roundTrip` puts
them together: a value within the limits of the buffer is written, is read back, and the bytes of no
other value of the shape begin with its bytes.
-/

namespace Hareflow.Wire

open BinaryBuffer

/-- The layouts of values in a buffer. -/
inductive Shape
  | u8
  | u16
  | u32
  | u64
  | i16
  | i32
  | i64
  | string
  | blob
  /-- A `std::map<std::string, std::string>`. -/
  | map
  /-- An array of elements of one shape. -/
  | seq (elem : Shape)
  /-- A record without fields. -/
  | unit
  /-- A field, and the fields after it. -/
  | pair (first rest : Shape)
  deriving DecidableEq, Repr

namespace Shape

/-- The values of a shape. -/
def Value : Shape → Type
  | u8 => UInt8
  | u16 => UInt16
  | u32 => UInt32
  | u64 => UInt64
  | i16 => Int16
  | i32 => Int32
  | i64 => Int64
  | string => Bytes
  | blob => Bytes
  | map => StringMap
  | seq elem => List elem.Value
  | unit => Unit
  | pair first rest => first.Value × rest.Value

/-- Write the fields in order. -/
def write : (s : Shape) → s.Value → Writer
  | u8, v => writeByte v
  | u16, v => writeUshort v
  | u32, v => writeUint v
  | u64, v => writeUlong v
  | i16, v => writeShort v
  | i32, v => writeInt v
  | i64, v => writeLong v
  | string, v => writeString v
  | blob, v => writeBlob v
  | map, v => StringMap.write v
  | seq elem, v => writeArray elem.write v
  | unit, _ => .ok
  | pair first rest, v => fun b => (first.write v.1 b).bind (rest.write v.2)

/-- Read the fields in order. -/
def read : (s : Shape) → Reader s.Value
  | u8 => readByte
  | u16 => readUshort
  | u32 => readUint
  | u64 => readUlong
  | i16 => readShort
  | i32 => readInt
  | i64 => readLong
  | string => readString
  | blob => readBlob
  | map => StringMap.read
  | seq elem => readArray elem.read
  | unit => return ()
  | pair first rest => do
    let x ← first.read
    let y ← rest.read
    return (x, y)

/-- The limits of the length fields: strings of at most `2 ^ 15 - 1` bytes, blobs of at most
`2 ^ 31 - 1` bytes, maps and arrays of at most `2 ^ 31 - 1` elements. -/
def Fits : (s : Shape) → s.Value → Prop
  | string, v => List.length v ≤ int16Max
  | blob, v => List.length v ≤ int32Max
  | map, v => v.entries.length ≤ int32Max ∧
      ∀ p ∈ v.entries, p.1.length ≤ int16Max ∧ p.2.length ≤ int16Max
  | seq elem, (v : List elem.Value) => v.length ≤ int32Max ∧ ∀ x ∈ v, elem.Fits x
  | pair first rest, v => first.Fits v.1 ∧ rest.Fits v.2
  | _, _ => True

instance decidableFits : (s : Shape) → (v : s.Value) → Decidable (s.Fits v)
  | u8, _ | u16, _ | u32, _ | u64, _ | i16, _ | i32, _ | i64, _ | unit, _ => .isTrue trivial
  | string, v => inferInstanceAs (Decidable (List.length v ≤ int16Max))
  | blob, v => inferInstanceAs (Decidable (List.length v ≤ int32Max))
  | map, v => inferInstanceAs (Decidable (v.entries.length ≤ int32Max ∧
      ∀ p ∈ v.entries, p.1.length ≤ int16Max ∧ p.2.length ≤ int16Max))
  | seq elem, (v : List elem.Value) =>
    have := elem.decidableFits
    inferInstanceAs (Decidable (v.length ≤ int32Max ∧ ∀ x ∈ v, elem.Fits x))
  | pair first rest, v =>
    have := first.decidableFits
    have := rest.decidableFits
    inferInstanceAs (Decidable (first.Fits v.1 ∧ rest.Fits v.2))

/-- The number of bytes of a value: those of its numbers, its length fields and its contents. -/
def size : (s : Shape) → s.Value → ℕ
  | u8, _ => 1
  | u16, _ | i16, _ => 2
  | u32, _ | i32, _ => 4
  | u64, _ | i64, _ => 8
  | string, v => serializedSizeString v
  | blob, v => serializedSizeBlob v
  | map, v => serializedSizeArray propertySize v.entries
  | seq elem, v => serializedSizeArray elem.size v
  | unit, _ => 0
  | pair first rest, v => first.size v.1 + rest.size v.2

/-- The bytes of a value. -/
def encode : (s : Shape) → s.Value → Bytes
  | u8, v => [v]
  | u16, v => bigEndian 2 (UInt16.toNat v)
  | u32, v => bigEndian 4 (UInt32.toNat v)
  | u64, v => bigEndian 8 (UInt64.toNat v)
  | i16, v => shortBytes v
  | i32, v => intBytes v
  | i64, v => bigEndian 8 (Int64.toUInt64 v).toNat
  | string, v => encodeString v
  | blob, v => encodeBlob v
  | map, v => encodeArray encodeProperty v.entries
  | seq elem, v => encodeArray elem.encode v
  | unit, _ => []
  | pair first rest, v => first.encode v.1 ++ rest.encode v.2

theorem length_encode (s : Shape) (v : s.Value) : (s.encode v).length = s.size v := by
  induction s with
  | u8 => rfl
  | u16 | u32 | u64 | i64 => exact length_bigEndian ..
  | i16 => exact length_shortBytes v
  | i32 => exact length_intBytes v
  | string => exact length_encodeString v
  | blob => exact length_encodeBlob v
  | map => exact length_encodeArray length_encodeProperty v.entries
  | seq elem ih => exact length_encodeArray ih v
  | unit => rfl
  | pair first rest ih₁ ih₂ =>
    rw [encode, size, List.length_append, ih₁, ih₂]

/-- What a shape writes are its bytes, if the value is within the limits. -/
theorem write_encodes (s : Shape) (v : s.Value) : Encodes (s.write v) (s.Fits v) (s.encode v) := by
  induction s with
  | u8 | u16 | u32 | u64 | i16 | i32 | i64 => exact Encodes.put _
  | string => exact Encodes.writeString v
  | blob => exact Encodes.writeBlob v
  | map => exact Encodes.writeArray writeProperty_encodes v.entries
  | seq elem ih => exact Encodes.writeArray ih v
  | unit => exact Encodes.nil
  | pair first rest ih₁ ih₂ => exact (ih₁ v.1).bind (ih₂ v.2)

/-- The bytes of a value within the limits are read as this value. -/
theorem read_reads (s : Shape) (v : s.Value) (h : s.Fits v) : Reads s.read (s.encode v) v := by
  induction s with
  | u8 => exact Reads.readByte v
  | u16 => exact Reads.readUshort v
  | u32 => exact Reads.readUint v
  | u64 => exact Reads.readUlong v
  | i16 => exact Reads.readShort v
  | i32 => exact Reads.readInt v
  | i64 => exact Reads.readLong v
  | string => exact Reads.readString h
  | blob => exact Reads.readBlob h
  | map => exact StringMap.read_reads h.1 h.2
  | seq elem ih => exact Reads.readArray h.1 fun x hx => ih x (h.2 x hx)
  | unit => exact Reads.pure ()
  | pair first rest ih₁ ih₂ =>
    exact (ih₁ v.1 h.1).bind ((ih₂ v.2 h.2).map fun y => (v.1, y))

/-- The value is within the limits of its length fields and of the buffer. -/
structure Writable (s : Shape) (v : s.Value) : Prop where
  fits : s.Fits v
  size : s.size v ≤ uint32Max

/-- Into an empty buffer a value within the limits is written as its bytes. -/
theorem write_empty {s : Shape} {v : s.Value} (h : s.Writable v) :
    s.write v {} = .ok ⟨s.encode v, 0, (s.encode v).length⟩ := by
  have hroom : ([] : Bytes).length + (s.encode v).length ≤ uint32Max := by
    rw [length_encode, List.length_nil, Nat.zero_add]
    exact h.size
  have hwrite := (s.write_encodes v).writes h.fits {} rfl hroom
  simpa [append] using hwrite

/-- **A buffer reads back what was written to it**, for every shape. A value within the limits is
written into an empty buffer; whatever is written afterwards, reading the shape returns the value and
leaves the read cursor where the write cursor was; and the bytes of two different values are never
prefixes of each other. -/
theorem roundTrip (s : Shape) (v : s.Value) (h : s.Writable v) :
    ∃ b : BinaryBuffer, s.write v {} = .ok b ∧
      (∀ after : Bytes, s.read (b.append after) =
        .ok (v, { b.append after with readCursor := b.writeCursor })) ∧
      ∀ (v' : s.Value) (b' : BinaryBuffer), s.Writable v' → s.write v' {} = .ok b' → v' ≠ v →
        ¬b.bytes <+: b'.bytes ∧ ¬b'.bytes <+: b.bytes := by
  refine ⟨_, write_empty h, fun after => ?_, fun v' b' h' hwrite hne => ?_⟩
  · have hread := s.read_reads v h.fits [] after ((s.encode v).length + after.length)
    simpa [append] using hread
  · rw [write_empty h'] at hwrite
    obtain rfl := Except.ok.inj hwrite
    have hv := s.read_reads v h.fits
    have hv' := s.read_reads v' h'.fits
    exact ⟨fun hpre => hne (hv.eq_of_isPrefix hv' hpre).symm,
      fun hpre => hne (hv'.eq_of_isPrefix hv hpre)⟩

/-- A record of a number, a map and an array of arrays. -/
def nested : Shape := pair u16 (pair map (seq (seq i32)))

def nestedValue : nested.Value :=
  ((7 : UInt16), (⟨[([97], [98])], List.pairwise_singleton ..⟩ : StringMap),
    ([[-1], []] : List (List Int32)))

theorem roundTrip_nested :
    ∃ b : BinaryBuffer, nested.write nestedValue {} = .ok b ∧
      nested.read b = .ok (nestedValue, { b with readCursor := 28 }) := by
  have hfits : nested.Fits nestedValue := by decide
  have hsize : nested.size nestedValue = 28 := rfl
  have hw : nested.Writable nestedValue := ⟨hfits, by simp [hsize, uint32Max]⟩
  obtain ⟨b, hwrite, hread, -⟩ := roundTrip nested nestedValue hw
  have hcursor : b.writeCursor = 28 := by
    rw [write_empty hw] at hwrite
    rw [← Except.ok.inj hwrite, length_encode, hsize]
  have hback := hread []
  rw [append_nil, hcursor] at hback
  exact ⟨b, hwrite, hback⟩

end Shape

end Hareflow.Wire
